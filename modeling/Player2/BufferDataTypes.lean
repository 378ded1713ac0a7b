import Player2.BufferPool

/-! # The table of buffer data types

`BufferManager_Generic_c` numbers the data types that are created: the identifier of a type is its
index in the table together with the bit of its kind.  `GetDescriptor` checks the kind, then the
index, and then the identifier that stands in the table.

The check of the index lets through the index one past the last descriptor, whose place holds
whatever was in memory, or what is left of a type whose name could not be copied.  For every other
identifier the lookup is exact (`lookup_iff`). -/

namespace Player2.BufferDataTypes

/-! ### The source -/

abbrev maxBufferDataTypes : ℕ := 256
def typeIndexMask : UInt32 := 255
def typeTypeMask : UInt32 := ~~~typeIndexMask
def bufferDataTypeBase : UInt32 := 0x0000
def metaDataTypeBase : UInt32 := 0x8000
def notSpecified : UInt32 := 0xffffffff

/-- `BufferStatus_t`, for the functions here and those that deal with meta data. -/
inductive Status
  | noError
  | error
  | insufficientMemoryGeneral
  | insufficientMemoryForMetaData
  | unsupportedAllocationSource
  | invalidDescriptor
  | tooManyDataTypes
  | dataTypeNotFound
  | metaDataTypeNotFound
  | parametersIncompatibleWithAllocationSource
  | operationNotSupportedByThisDescriptor
  | failedToCreateBuffer
  | noFreeBufferAvailable
deriving DecidableEq, Repr

/-- `BufferDataDescriptor_t`. -/
structure Descriptor where
  typeName : Option String
  type : UInt32
  allocationSource : AllocationSource
  requiredAllignment : UInt32
  allocationUnitSize : UInt32
  hasFixedSize : Bool
  allocateOnPoolCreation : Bool
  fixedSize : UInt32
deriving DecidableEq, Repr

/-- `BufferManager_Generic_c`, without the pools. -/
structure Manager where
  typeDescriptorCount : UInt32
  typeDescriptors : Vector Descriptor maxBufferDataTypes
  count_le : typeDescriptorCount.toNat ≤ maxBufferDataTypes

namespace Manager

/-- The constructor.  The descriptors are not initialized. -/
def constructed (memory : Vector Descriptor maxBufferDataTypes) : Manager where
  typeDescriptorCount := 0
  typeDescriptors := memory
  count_le := by decide

end Manager

/-- The checks of `CreateBufferDataType` on the descriptor alone. -/
def Descriptor.check (d : Descriptor) : Status :=
  if d.type = metaDataTypeBase ∧ d.allocationSource = .allocateIndividualSuppliedBlocks then
    .unsupportedAllocationSource
  else if d.type = metaDataTypeBase ∧ d.allocateOnPoolCreation then .unsupportedAllocationSource
  else if d.type ≠ metaDataTypeBase ∧ d.type ≠ bufferDataTypeBase then .invalidDescriptor
  else if d.hasFixedSize ∧ d.fixedSize = notSpecified then .invalidDescriptor
  else .noError

namespace Manager

/-- What `CreateBufferDataType` returns: the status and `*Type`. -/
structure Created where
  status : Status
  type : UInt32
deriving DecidableEq, Repr

/-- The descriptor at the end of the table is replaced. -/
def write (m : Manager) (d : Descriptor) (h : m.typeDescriptorCount.toNat < maxBufferDataTypes) :
    Manager :=
  { m with typeDescriptors := m.typeDescriptors.set m.typeDescriptorCount.toNat d h }

/-- The descriptor is added to the table. -/
def grow (m : Manager) (d : Descriptor) (h : m.typeDescriptorCount.toNat < maxBufferDataTypes) :
    Manager where
  typeDescriptorCount := m.typeDescriptorCount + 1
  typeDescriptors := (m.write d h).typeDescriptors
  count_le := by
    rw [UInt32.toNat_add]
    exact le_trans (Nat.mod_le _ _) h

/-- `CreateBufferDataType`.  The name is copied, or not for want of memory. -/
def createBufferDataType (m : Manager) (d : Descriptor) (copied : Bool) : Manager × Created :=
  if d.check ≠ .noError then (m, ⟨d.check, 0xffffffff⟩)
  else if h : m.typeDescriptorCount.toNat < maxBufferDataTypes then
    if d.typeName.isSome ∧ !copied then
      (m.write { d with typeName := none } h, ⟨.insufficientMemoryGeneral, 0xffffffff⟩)
    else
      let type := d.type ||| m.typeDescriptorCount
      (m.grow { d with type := type } h, ⟨.noError, type⟩)
  else (m, ⟨.tooManyDataTypes, 0xffffffff⟩)

/-- The descriptors that have been created. -/
def table (m : Manager) : List Descriptor :=
  m.typeDescriptors.toList.take m.typeDescriptorCount.toNat

/-- The index of a type. -/
def index (type : UInt32) : ℕ := (type &&& typeIndexMask).toNat

theorem index_lt (type : UInt32) : index type < maxBufferDataTypes := by
  exact Nat.lt_succ_of_le Nat.and_le_right

/-- The descriptor at a place of the array. -/
def descriptor (m : Manager) (i : ℕ) (h : i < maxBufferDataTypes) : Descriptor :=
  m.typeDescriptors.get ⟨i, h⟩

/-- `GetDescriptor`, with the index of the descriptor that it reads and leaves in `*Descriptor`. -/
def getDescriptor (m : Manager) (type requiredKind : UInt32) : Status × Option ℕ :=
  if type &&& typeTypeMask ≠ requiredKind then (.dataTypeNotFound, none)
  else if index type > m.typeDescriptorCount.toNat then (.dataTypeNotFound, none)
  else if (m.descriptor (index type) (index_lt type)).type ≠ type then
    (.invalidDescriptor, some (index type))
  else (.noError, some (index type))

/-- The descriptor that `GetDescriptor` finds, or its status. -/
def lookup (m : Manager) (type requiredKind : UInt32) : Except Status Descriptor :=
  let status := (m.getDescriptor type requiredKind).1
  if status = .noError then .ok (m.descriptor (index type) (index_lt type)) else .error status

/-- A type that has been returned, with the kind that was asked for. -/
structure Registration where
  kind : UInt32
  type : UInt32
deriving DecidableEq, Repr

/-- The calls of `CreateBufferDataType`, each with whether the name can be copied, and the types that
they return. -/
def createAll : Manager → List (Descriptor × Bool) → Manager × List Registration
  | m, [] => (m, [])
  | m, c :: calls =>
    let r := m.createBufferDataType c.1 c.2
    let rest := createAll r.1 calls
    (rest.1, if r.2.status = .noError then ⟨c.1.type, r.2.type⟩ :: rest.2 else rest.2)

/-! ### The specification -/

/-- The types that have been returned are those of the table, each in the place of its index. -/
structure Registered (m : Manager) (registrations : List Registration) : Prop where
  entry : ∀ (i : ℕ) (h : i < maxBufferDataTypes), i < m.typeDescriptorCount.toNat →
    index (m.descriptor i h).type = i ∧
      ⟨(m.descriptor i h).type &&& typeTypeMask, (m.descriptor i h).type⟩ ∈ registrations
  registration : ∀ r ∈ registrations, index r.type < m.typeDescriptorCount.toNat ∧
    (m.descriptor (index r.type) (index_lt r.type)).type = r.type ∧
      r.type &&& typeTypeMask = r.kind

/-- The lookup of a type reads a descriptor that has been created and succeeds exactly for a type that
has been returned with the kind. -/
structure LooksUp (m : Manager) (registrations : List Registration) (type kind : UInt32) : Prop where
  created : ∀ i, (m.getDescriptor type kind).2 = some i → i < m.typeDescriptorCount.toNat
  exact : (m.getDescriptor type kind).1 = .noError ↔ ⟨kind, type⟩ ∈ registrations

/-- A call that fails leaves the table as it was, and everything when it fails in a check. -/
def FailuresKeep (m : Manager) : Prop :=
  ∀ d copied, let r := m.createBufferDataType d copied
    r.2.status ≠ .noError →
      r.1.table = m.table ∧ (r.2.status ≠ .insufficientMemoryGeneral → r.1 = m)

/-! ### Identifiers -/

theorem or_and_distrib (a b c : UInt32) : (a ||| b) &&& c = a &&& c ||| b &&& c := by
  rw [← UInt32.toNat_inj]
  simp [Nat.and_or_distrib_right]

variable {count kind type : UInt32}

theorem and_indexMask (hcount : count.toNat < maxBufferDataTypes) :
    count &&& typeIndexMask = count := by
  rw [← UInt32.toNat_inj, UInt32.toNat_and]
  change count.toNat &&& 2 ^ 8 - 1 = _
  rw [Nat.and_two_pow_sub_one_eq_mod]
  exact Nat.mod_eq_of_lt hcount

theorem index_or (hkind : kind = metaDataTypeBase ∨ kind = bufferDataTypeBase)
    (hcount : count.toNat < maxBufferDataTypes) :
    index (kind ||| count) = count.toNat ∧ (kind ||| count) &&& typeTypeMask = kind := by
  have hkindIndex : kind &&& typeIndexMask = 0 := by
    rcases hkind with rfl | rfl <;> decide
  have hkindMask : kind &&& typeTypeMask = kind := by
    rcases hkind with rfl | rfl <;> decide
  have hcountMask : count &&& typeTypeMask = 0 := by
    rw [← and_indexMask hcount, UInt32.and_assoc, show typeIndexMask &&& typeTypeMask = 0 by decide,
      UInt32.and_zero]
  constructor
  · rw [index, or_and_distrib, hkindIndex, UInt32.zero_or, and_indexMask hcount]
  · rw [or_and_distrib, hkindMask, hcountMask, UInt32.or_zero]

theorem kind_of_check {d : Descriptor} (h : d.check = .noError) :
    d.type = metaDataTypeBase ∨ d.type = bufferDataTypeBase := by
  by_contra hkind
  rw [not_or] at hkind
  simp [Descriptor.check, hkind] at h

/-! ### The array -/

variable {m : Manager}

theorem descriptor_write_self (d : Descriptor)
    (h : m.typeDescriptorCount.toNat < maxBufferDataTypes) :
    (m.write d h).descriptor m.typeDescriptorCount.toNat h = d := by
  simp [descriptor, write, Vector.get_eq_getElem]

theorem descriptor_write_of_ne (d : Descriptor)
    (h : m.typeDescriptorCount.toNat < maxBufferDataTypes) {i : ℕ} (hi : i < maxBufferDataTypes)
    (hne : i ≠ m.typeDescriptorCount.toNat) : (m.write d h).descriptor i hi = m.descriptor i hi := by
  simp [descriptor, write, Vector.get_eq_getElem, hne.symm]

theorem descriptor_grow (d : Descriptor) (h : m.typeDescriptorCount.toNat < maxBufferDataTypes)
    {i : ℕ} (hi : i < maxBufferDataTypes) :
    (m.grow d h).descriptor i hi = (m.write d h).descriptor i hi := rfl

theorem table_write (d : Descriptor) (h : m.typeDescriptorCount.toNat < maxBufferDataTypes) :
    (m.write d h).table = m.table := by
  simp [table, write, Vector.toList_set, List.take_set_of_le]

theorem count_succ (h : m.typeDescriptorCount.toNat < maxBufferDataTypes) :
    (m.typeDescriptorCount + 1).toNat = m.typeDescriptorCount.toNat + 1 := by
  exact Nat.mod_eq_of_lt (lt_of_le_of_lt (Nat.succ_le_of_lt h) (by decide))

/-! ### One call -/

/-- What a call of `CreateBufferDataType` does: nothing when a check fails, a place behind the table is
written when the name cannot be copied, and otherwise the table grows by the descriptor. -/
theorem create_cases (m : Manager) (d : Descriptor) (copied : Bool) :
    let r := m.createBufferDataType d copied
    (r.1 = m ∧ r.2.status ≠ .noError) ∨
      (∃ h d', r = (m.write d' h, ⟨.insufficientMemoryGeneral, 0xffffffff⟩)) ∨
      (∃ h, d.check = .noError ∧
        r = (m.grow { d with type := d.type ||| m.typeDescriptorCount } h,
          ⟨.noError, d.type ||| m.typeDescriptorCount⟩)) := by
  intro r
  by_cases hcheck : d.check = .noError
  · by_cases h : m.typeDescriptorCount.toNat < maxBufferDataTypes
    · have hr : r = _ := (if_neg (not_not.mpr hcheck)).trans (dif_pos h)
      by_cases hname : d.typeName.isSome ∧ !copied
      · rw [if_pos hname] at hr
        exact Or.inr (Or.inl ⟨h, _, hr⟩)
      · rw [if_neg hname] at hr
        exact Or.inr (Or.inr ⟨h, hcheck, hr⟩)
    · have hr : r = _ := (if_neg (not_not.mpr hcheck)).trans (dif_neg h)
      refine Or.inl ⟨congrArg Prod.fst hr, ?_⟩
      rw [hr]
      simp
  · have hr : r = _ := if_pos hcheck
    refine Or.inl ⟨congrArg Prod.fst hr, ?_⟩
    rw [hr]
    exact hcheck

theorem failuresKeep (m : Manager) : FailuresKeep m := by
  intro d copied r hfail
  rcases create_cases m d copied with ⟨hsame, -⟩ | ⟨h, d', hwrite⟩ | ⟨h, -, hgrow⟩
  · exact ⟨by rw [hsame], fun _ => hsame⟩
  · have hr : r = _ := hwrite
    rw [hr]
    exact ⟨table_write d' h, fun hne => absurd rfl hne⟩
  · have hr : r = _ := hgrow
    rw [hr] at hfail
    exact absurd rfl hfail

variable {registrations : List Registration}

theorem Registered.write (hm : Registered m registrations)
    (d : Descriptor) (h : m.typeDescriptorCount.toNat < maxBufferDataTypes) :
    Registered (m.write d h) registrations where
  entry i hi hlt := by
    rw [descriptor_write_of_ne d h hi (Nat.ne_of_lt hlt)]
    exact hm.entry i hi hlt
  registration r hr := by
    have hlt := (hm.registration r hr).1
    rw [descriptor_write_of_ne d h (index_lt r.type) (Nat.ne_of_lt hlt)]
    exact hm.registration r hr

theorem Registered.grow (hm : Registered m registrations)
    (d : Descriptor) (h : m.typeDescriptorCount.toNat < maxBufferDataTypes)
    (hindex : index d.type = m.typeDescriptorCount.toNat) :
    Registered (m.grow d h) (registrations ++ [⟨d.type &&& typeTypeMask, d.type⟩]) where
  entry i hi hlt := by
    change i < (m.typeDescriptorCount + 1).toNat at hlt
    rw [count_succ h] at hlt
    rw [descriptor_grow]
    by_cases hi' : i = m.typeDescriptorCount.toNat
    · subst hi'
      rw [descriptor_write_self]
      exact ⟨hindex, List.mem_append_right _ (List.mem_singleton_self _)⟩
    · rw [descriptor_write_of_ne d h hi hi']
      have hentry := hm.entry i hi (by omega)
      exact ⟨hentry.1, List.mem_append_left _ hentry.2⟩
  registration r hr := by
    change index r.type < (m.typeDescriptorCount + 1).toNat ∧ _
    rw [count_succ h, descriptor_grow]
    rcases List.mem_append.mp hr with hold | hnew
    · obtain ⟨hlt, htype, hkind⟩ := hm.registration r hold
      rw [descriptor_write_of_ne d h (index_lt r.type) (Nat.ne_of_lt hlt)]
      exact ⟨Nat.lt_succ_of_lt hlt, htype, hkind⟩
    · obtain rfl := List.mem_singleton.mp hnew
      refine ⟨by rw [hindex]; exact Nat.lt_succ_self _, ?_, rfl⟩
      simp only [hindex]
      rw [descriptor_write_self]

theorem Registered.create (hm : Registered m registrations)
    (d : Descriptor) (copied : Bool) :
    let r := m.createBufferDataType d copied
    Registered r.1 (registrations ++ if r.2.status = .noError then [⟨d.type, r.2.type⟩] else []) := by
  intro r
  rcases create_cases m d copied with ⟨hsame, hfail⟩ | ⟨h, d', hwrite⟩ | ⟨h, hcheck, hgrow⟩
  · rw [if_neg hfail, List.append_nil, hsame]
    exact hm
  · have hr : r = _ := hwrite
    rw [hr, if_neg (by simp), List.append_nil]
    exact hm.write d' h
  · have hr : r = _ := hgrow
    have hbits := index_or (kind_of_check hcheck) h
    have hgrown := hm.grow { d with type := d.type ||| m.typeDescriptorCount } h hbits.1
    rw [hbits.2] at hgrown
    rw [hr, if_pos rfl]
    exact hgrown

/-! ### Every sequence of calls -/

theorem registered_constructed (memory : Vector Descriptor maxBufferDataTypes) :
    Registered (constructed memory) [] where
  entry i _ hlt := absurd hlt (Nat.not_lt_zero i)
  registration _ hr := absurd hr List.not_mem_nil

theorem Registered.createAll (calls : List (Descriptor × Bool)) :
    ∀ {m : Manager} {registrations : List Registration}, Registered m registrations →
      Registered (m.createAll calls).1 (registrations ++ (m.createAll calls).2) := by
  induction calls with
  | nil =>
    intro m registrations hm
    rw [Manager.createAll, List.append_nil]
    exact hm
  | cons c calls ih =>
    intro m registrations hm
    have h := ih (hm.create c.1 c.2)
    rw [List.append_assoc] at h
    rw [Manager.createAll]
    split at h
    next hok =>
      rw [if_pos hok]
      exact h
    next hfail =>
      rw [if_neg hfail]
      exact h

theorem getDescriptor_of_index_lt (hkind : type &&& typeTypeMask = kind)
    (hlt : index type < m.typeDescriptorCount.toNat) :
    m.getDescriptor type kind =
      (if (m.descriptor (index type) (index_lt type)).type = type then .noError
        else .invalidDescriptor, some (index type)) := by
  rw [getDescriptor, if_neg (not_not.mpr hkind), if_neg (Nat.not_lt.mpr (Nat.le_of_lt hlt))]
  split <;> simp_all

theorem looksUp_of_notFound (hget : m.getDescriptor type kind = (.dataTypeNotFound, none))
    (hno : ⟨kind, type⟩ ∉ registrations) : LooksUp m registrations type kind where
  created i hi := by
    rw [hget] at hi
    exact absurd hi (by simp)
  exact := by
    rw [hget]
    exact iff_of_false Status.noConfusion hno

theorem looksUp_iff (hm : Registered m registrations)
    (type kind : UInt32) :
    LooksUp m registrations type kind ↔
      ¬ (type &&& typeTypeMask = kind ∧ index type = m.typeDescriptorCount.toNat) := by
  constructor
  · rintro h ⟨hkind, hindex⟩
    have hread : (m.getDescriptor type kind).2 = some (index type) := by
      rw [getDescriptor, if_neg (not_not.mpr hkind), if_neg (by omega)]
      split <;> rfl
    exact absurd (h.created _ hread) (by omega)
  · intro h
    by_cases hkind : type &&& typeTypeMask = kind
    · rcases Nat.lt_or_ge (index type) m.typeDescriptorCount.toNat with hlt | hge
      · have hget := getDescriptor_of_index_lt hkind hlt
        constructor
        · intro i hi
          rw [hget] at hi
          exact Option.some.inj hi ▸ hlt
        · rw [hget]
          constructor
          · intro hok
            have htype : (m.descriptor (index type) (index_lt type)).type = type := by
              by_contra hne
              rw [if_neg hne] at hok
              exact Status.noConfusion hok
            have hentry := (hm.entry _ (index_lt type) hlt).2
            rwa [htype, hkind] at hentry
          · intro hmem
            exact if_pos (hm.registration _ hmem).2.1
      · have hget : m.getDescriptor type kind = (.dataTypeNotFound, none) := by
          have hgt : index type > m.typeDescriptorCount.toNat :=
            lt_of_le_of_ne hge fun heq => h ⟨hkind, heq.symm⟩
          rw [getDescriptor, if_neg (not_not.mpr hkind), if_pos hgt]
        apply looksUp_of_notFound hget
        intro hmem
        exact absurd (hm.registration _ hmem).1 (Nat.not_lt.mpr hge)
    · have hget : m.getDescriptor type kind = (.dataTypeNotFound, none) := if_pos hkind
      apply looksUp_of_notFound hget
      intro hmem
      exact hkind (hm.registration _ hmem).2.2

/-- After any calls of `CreateBufferDataType`, whatever was in memory before them, a type is looked up
exactly and a call that fails keeps the table, unless the type has the kind that is asked for and the
index one past the last descriptor. -/
theorem lookup_iff (memory : Vector Descriptor maxBufferDataTypes)
    (calls : List (Descriptor × Bool)) (type kind : UInt32) :
    let r := (constructed memory).createAll calls
    (LooksUp r.1 r.2 type kind ∧ FailuresKeep r.1) ↔
      ¬ (type &&& typeTypeMask = kind ∧ index type = r.1.typeDescriptorCount.toNat) := by
  intro r
  have hr := (registered_constructed memory).createAll calls
  exact (and_iff_left (failuresKeep r.1)).trans (looksUp_iff hr type kind)

/-- A data type without a name. -/
def unnamed : Descriptor :=
  ⟨none, bufferDataTypeBase, .noAllocation, 32, 4096, false, false, notSpecified⟩

/-- A type whose name could not be copied was not returned, but it is looked up. -/
example :
    let r := (constructed (Vector.replicate 256 unnamed)).createAll
      [({ unnamed with typeName := some "" }, false)]
    r.2 = [] ∧ r.1.getDescriptor 0 bufferDataTypeBase = (.noError, some 0) := by
  decide +kernel

/-- With one type created, the lookup of type 1 reads the second descriptor. -/
theorem not_lookup :
    ¬ ∀ (memory : Vector Descriptor maxBufferDataTypes) (calls : List (Descriptor × Bool))
      (type kind : UInt32),
      LooksUp ((constructed memory).createAll calls).1 ((constructed memory).createAll calls).2 type
          kind ∧
        FailuresKeep ((constructed memory).createAll calls).1 := by
  intro h
  have hlookup := (h (Vector.replicate 256 unnamed) [(unnamed, true)] 1 bufferDataTypeBase).1
  have hread := hlookup.created 1 (by decide +kernel)
  exact absurd hread (by decide +kernel)

end Manager
end Player2.BufferDataTypes

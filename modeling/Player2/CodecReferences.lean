import Mathlib.Data.BitVec
import Mathlib.Logic.Function.Basic
import Player2.CodecDecodes
import Player2.Run

/-! # Reference holds of decodes

A decode refers to decode buffers by the decode indices of the frames in them.  `IndexBufferMap` says
which buffer a decode index is in; `TranslateReferenceFrameLists` replaces, in the decode context of a
frame, the decode indices of the reference frame lists by buffers and takes a reference on each, and
`ReleaseDecodeContext` drops what it finds there.  The first of the two stops at an entry that it cannot
translate, and its caller goes on.

Here a call is one step, and a label is a call that touches the holds: the ones of a decode context, the
ones of the frame parser (`ReferenceFrameCount`), and those of everybody else, of which the one that
`GetDecodeBuffer` obtains for the codec is the first.  What `ReleaseDecodeContext` does with the buffer
that was decoded into is part of the decodes; where it discards one, that is a `releaseDecodeBuffer` here.
`others` and `taken` are not in the source: they say how many references nobody of the codec's lists
holds, and which ones were taken for a decode context. -/

namespace Player2.Codec

/-! ### Data -/

/-- `INVALID_INDEX`; it also marks a free entry of `IndexBufferMap`, and is `CODEC_RELEASE_ALL`. -/
def invalidIndex : Word := 0xffffffff

/-- The bounds of the tables. -/
structure BufferLimits where
  maxDecodeBuffers : ℕ
  decodeBufferCount : ℕ
  maxDecodeIndicesPerBuffer : ℕ
  declared : maxDecodeBuffers = 64 ∨ maxDecodeBuffers = 32

/-- `CodecIndexBufferMap_t`. -/
structure IndexBufferEntry where
  decodeIndex : Word
  bufferIndex : Word
deriving DecidableEq

/-- What `memset (..., 0xff, ...)` makes of an entry. -/
def IndexBufferEntry.free : IndexBufferEntry := ⟨invalidIndex, invalidIndex⟩

/-- `CodecBufferState_t`, as far as it is about holds; `present` says that `Buffer` is not `NULL`. -/
structure BufferHold where
  present : Bool
  referenceFrameCount : ℕ
deriving DecidableEq

/-- What `memset (..., 0x00, ...)` makes of a buffer state. -/
def BufferHold.empty : BufferHold := ⟨false, 0⟩

/-- `CodecBaseDecodeContext_t`, as far as it is about holds. -/
structure DecodeContext where
  bufferIndex : Word
  decodeInProgress : Bool
  referenceFrameLists : List (List Word)
  taken : List Word
deriving DecidableEq

/-- A decode context that has just been obtained. -/
def DecodeContext.fresh : DecodeContext := ⟨invalidIndex, false, [], []⟩

/-- The entries of a decode context that `ReleaseDecodeContext` takes for buffers. -/
def DecodeContext.applied (c : DecodeContext) : List Word :=
  c.referenceFrameLists.flatten.filter (· ≠ invalidIndex)

/-- The counts are 32-bit words in the source and do not wrap: the decode contexts come from a pool of
fixed size, each with a bounded number of entries, and a frame is held twice at most, once a field. -/
structure ReferenceState where
  indexBufferMap : List IndexBufferEntry
  bufferState : Word → BufferHold
  owners : Word → ℕ
  others : Word → ℕ
  currentDecodeBufferIndex : Word
  contexts : List DecodeContext

namespace ReferenceState

/-! ### Decode indices -/

/-- An entry of the map is free. -/
def HasFree (s : ReferenceState) : Prop := ∃ e ∈ s.indexBufferMap, e.decodeIndex = invalidIndex

instance (s : ReferenceState) : Decidable s.HasFree :=
  inferInstanceAs (Decidable (∃ e ∈ s.indexBufferMap, e.decodeIndex = invalidIndex))

/-- The buffer is in the map. -/
def Mapped (s : ReferenceState) (i : Word) : Prop := ∃ e ∈ s.indexBufferMap, e.bufferIndex = i

/-- The first free entry of a map takes a decode index. -/
def mapEntry (d i : Word) : List IndexBufferEntry → Option (List IndexBufferEntry)
  | [] => none
  | e :: rest =>
    if e.decodeIndex = invalidIndex then some (⟨d, i⟩ :: rest)
    else (mapEntry d i rest).map (e :: ·)

def mapBufferToDecodeIndex (s : ReferenceState) (d i : Word) : Option ReferenceState :=
  (mapEntry d i s.indexBufferMap).map fun entries => { s with indexBufferMap := entries }

def unMapBufferIndex (s : ReferenceState) (i : Word) : ReferenceState :=
  { s with indexBufferMap := s.indexBufferMap.map fun e => if e.bufferIndex = i then .free else e }

def translateDecodeIndex (s : ReferenceState) (d : Word) : Option Word :=
  (s.indexBufferMap.find? (·.decodeIndex = d)).map (·.bufferIndex)

/-! ### References -/

/-- `IncrementReferenceCount` of a decode buffer. -/
def takeReference (s : ReferenceState) (i : Word) : ReferenceState :=
  { s with owners := Function.update s.owners i (s.owners i + 1) }

/-- `DecrementReferenceCount` of a decode buffer. -/
def dropReference (s : ReferenceState) (i : Word) : ReferenceState :=
  { s with owners := Function.update s.owners i (s.owners i - 1) }

/-- `Codec_MmeBase_c::DecrementReferenceCount`: with the last reference, the codec forgets the buffer. -/
def decrementReferenceCount (s : ReferenceState) (i : Word) : ReferenceState :=
  if (s.bufferState i).present then
    if s.owners i = 1 then
      let forgotten : ReferenceState :=
        { s.unMapBufferIndex i with bufferState := Function.update s.bufferState i .empty }
      forgotten.dropReference i
    else s.dropReference i
  else s

/-- The count of references that the frame parser holds on a buffer. -/
def setReferenceFrameCount (s : ReferenceState) (i : Word) (count : ℕ) : ReferenceState :=
  { s with bufferState := Function.update s.bufferState i ⟨(s.bufferState i).present, count⟩ }

/-- One reference of the frame parser is dropped. -/
def dropFrameReference (s : ReferenceState) (i : Word) : ReferenceState :=
  (s.setReferenceFrameCount i ((s.bufferState i).referenceFrameCount - 1)).decrementReferenceCount i

/-- The loop of `ReleaseReferenceFrame` over one buffer, which runs no more often than the count says. -/
def dropFrameReferences : ℕ → ReferenceState → Word → ReferenceState
  | 0, s, _ => s
  | count + 1, s, i =>
    if (s.bufferState i).referenceFrameCount ≠ 0 then
      dropFrameReferences count (s.dropFrameReference i) i
    else s

/-! ### Reference frame lists -/

section
variable (limits : BufferLimits)

/-- What `TranslateReferenceFrameLists` puts in the place of an entry: a frame that is not known is
replaced by the one being decoded. -/
def translateEntry (s : ReferenceState) (d : Word) : Option Word :=
  let bufferIndex := (s.translateDecodeIndex d).getD s.currentDecodeBufferIndex
  if bufferIndex = invalidIndex ∨ limits.maxDecodeBuffers ≤ bufferIndex.toNat then none
  else some bufferIndex

/-- The inner loop: the buffers that the first entries were translated to, and the entries from the first
one on that is not translated. -/
def translateList (s : ReferenceState) : List Word → ReferenceState × List Word × List Word
  | [] => (s, [], [])
  | d :: rest =>
    match s.translateEntry limits d with
    | none => (s, [], d :: rest)
    | some i =>
      let (t, taken, left) := (s.takeReference i).translateList rest
      (t, i :: taken, left)

/-- The outer loop: the lists that it leaves, and the buffers on which references were taken. -/
def translateLists (s : ReferenceState) : List (List Word) → ReferenceState × List (List Word) × List Word
  | [] => (s, [], [])
  | list :: rest =>
    match s.translateList limits list with
    | (t, taken, []) =>
      let (u, lists, more) := t.translateLists rest
      (u, taken :: lists, taken ++ more)
    | (t, taken, d :: left) => (t, (taken ++ d :: left) :: rest, taken)

/-- The reference that a reference frame has on itself until the frame parser releases it. -/
def takeFrameReference (s : ReferenceState) (i : Word) : ReferenceState :=
  (s.takeReference i).setReferenceFrameCount i ((s.bufferState i).referenceFrameCount + 1)

/-- `TranslateReferenceFrameLists`, into a context that records the buffer being decoded. -/
def translateReferenceFrameLists (s : ReferenceState) (k : ℕ) (lists : List (List Word))
    (incrementUseCount referenceFrame : Bool) : ReferenceState :=
  let held := if incrementUseCount && referenceFrame then s.takeFrameReference s.currentDecodeBufferIndex
    else s
  let translation := held.translateLists limits lists
  let context : DecodeContext := ⟨s.currentDecodeBufferIndex, false, translation.2.1, translation.2.2⟩
  { translation.1 with contexts := translation.1.contexts.set k context }

def releaseDecodeContext (s : ReferenceState) (k : ℕ) (c : DecodeContext) : ReferenceState :=
  c.applied.foldl decrementReferenceCount { s with contexts := s.contexts.eraseIdx k }

def releaseReferenceFrame (s : ReferenceState) (d : Word) : ReferenceState :=
  if d = invalidIndex then
    (List.range limits.decodeBufferCount).foldl
      (fun s i => s.dropFrameReferences (s.bufferState (BitVec.ofNat 32 i)).referenceFrameCount
        (BitVec.ofNat 32 i)) s
  else
    match s.translateDecodeIndex d with
    | none => s
    | some i => if (s.bufferState i).referenceFrameCount = 0 then s else s.dropFrameReference i

/-- `ReleaseDecodeBuffer`, by a holder of a reference. -/
def releaseDecodeBuffer (s : ReferenceState) (i : Word) : ReferenceState :=
  let given : ReferenceState := { s with others := Function.update s.others i (s.others i - 1) }
  if (s.bufferState i).present then given.decrementReferenceCount i else given.dropReference i

/-- `GetDecodeBuffer`: where the map is full the buffer is current all the same. -/
def getDecodeBuffer (s : ReferenceState) (d i : Word) : ReferenceState :=
  let obtained : ReferenceState := { s with
    owners := Function.update s.owners i 1
    others := Function.update s.others i 1
    currentDecodeBufferIndex := i }
  match obtained.mapBufferToDecodeIndex d i with
  | none => obtained
  | some t => { t with bufferState := Function.update t.bufferState i ⟨true, 0⟩ }

/-- The second field of a frame maps its decode index too; where the map is full, the buffer is output. -/
def mapSecondField (s : ReferenceState) (d : Word) : ReferenceState :=
  (s.mapBufferToDecodeIndex d s.currentDecodeBufferIndex).getD
    { s with currentDecodeBufferIndex := invalidIndex }

end

/-! ### Steps -/

/-- The calls. -/
inductive Label
  | getDecodeContext
  | getDecodeBuffer (d i : Word)
  | mapSecondField (d : Word)
  | translateReferenceFrameLists (k : ℕ) (lists : List (List Word)) (firstSlice referenceFrame : Bool)
  | launch (k : ℕ)
  | forgetDecodeBuffer
  | releaseDecodeContext (k : ℕ)
  | releaseReferenceFrame (d : Word)
  | releaseDecodeBuffer (i : Word)
  | addReference (i : Word)
  | getMarkerBuffer (i : Word)
deriving DecidableEq

/-- The index of a buffer that is in the pool, and that the codec does not refuse. -/
def InPool (limits : BufferLimits) (i : Word) : Prop :=
  i.toNat < limits.decodeBufferCount ∧ i.toNat < limits.maxDecodeBuffers

instance (limits : BufferLimits) (i : Word) : Decidable (InPool limits i) :=
  inferInstanceAs (Decidable (_ ∧ _))

/-- One call.  A buffer that is obtained is free; a buffer is being decoded into when reference lists are
translated; a reference is dropped by one that has it, and the codec's own, on the buffer that is being
decoded into, not before the codec turns to another. -/
def step (limits : BufferLimits) (s : ReferenceState) : Label → Option ReferenceState
  | .getDecodeContext => some { s with contexts := s.contexts ++ [.fresh] }
  | .getDecodeBuffer d i =>
    if s.owners i = 0 ∧ InPool limits i ∧ s.currentDecodeBufferIndex = invalidIndex then
      some (s.getDecodeBuffer d i)
    else none
  | .mapSecondField d =>
    if s.currentDecodeBufferIndex = invalidIndex then none else some (s.mapSecondField d)
  | .translateReferenceFrameLists k lists firstSlice referenceFrame =>
    if s.contexts[k]? = some .fresh ∧ s.currentDecodeBufferIndex ≠ invalidIndex then
      some (s.translateReferenceFrameLists limits k lists firstSlice referenceFrame)
    else none
  | .launch k =>
    match s.contexts[k]? with
    | none => none
    | some c =>
      if c.bufferIndex = invalidIndex then none
      else some { s with contexts := s.contexts.set k { c with decodeInProgress := true } }
  | .forgetDecodeBuffer => some { s with currentDecodeBufferIndex := invalidIndex }
  | .releaseDecodeContext k =>
    match s.contexts[k]? with
    | none => none
    | some c => some (s.releaseDecodeContext k c)
  | .releaseReferenceFrame d => some (s.releaseReferenceFrame limits d)
  | .releaseDecodeBuffer i =>
    if s.others i > (if s.currentDecodeBufferIndex = i then 1 else 0) then
      some (s.releaseDecodeBuffer i)
    else none
  | .addReference i =>
    if s.owners i = 0 then none
    else some { s.takeReference i with others := Function.update s.others i (s.others i + 1) }
  | .getMarkerBuffer i =>
    if s.owners i = 0 ∧ InPool limits i then
      some { s with
        owners := Function.update s.owners i 1
        others := Function.update s.others i 1 }
    else none

/-- `RegisterOutputBufferRing`. -/
def start (limits : BufferLimits) : ReferenceState where
  indexBufferMap := List.replicate (limits.decodeBufferCount * limits.maxDecodeIndicesPerBuffer) .free
  bufferState := fun _ => .empty
  owners := fun _ => 0
  others := fun _ => 0
  currentDecodeBufferIndex := invalidIndex
  contexts := []

/-! ### What a call changes -/

@[simp] theorem takeReference_bufferState (s : ReferenceState) (i : Word) :
    (s.takeReference i).bufferState = s.bufferState := rfl

@[simp] theorem takeReference_contexts (s : ReferenceState) (i : Word) :
    (s.takeReference i).contexts = s.contexts := rfl

@[simp] theorem takeReference_current (s : ReferenceState) (i : Word) :
    (s.takeReference i).currentDecodeBufferIndex = s.currentDecodeBufferIndex := rfl

@[simp] theorem takeReference_translateEntry (limits : BufferLimits) (s : ReferenceState) (i d : Word) :
    (s.takeReference i).translateEntry limits d = s.translateEntry limits d := rfl

theorem decrementReferenceCount_frame (s : ReferenceState) (i : Word) :
    (s.decrementReferenceCount i).contexts = s.contexts ∧
      (s.decrementReferenceCount i).others = s.others ∧
      (s.decrementReferenceCount i).currentDecodeBufferIndex = s.currentDecodeBufferIndex := by
  unfold decrementReferenceCount
  split
  · split
    · exact ⟨rfl, rfl, rfl⟩
    · exact ⟨rfl, rfl, rfl⟩
  · exact ⟨rfl, rfl, rfl⟩

variable {d i : Word}

theorem mapEntry_some {entries entries' : List IndexBufferEntry}
    (h : mapEntry d i entries = some entries') :
    ∃ before e after, entries = before ++ e :: after ∧ e.decodeIndex = invalidIndex ∧
      entries' = before ++ ⟨d, i⟩ :: after := by
  induction entries generalizing entries' with
  | nil => cases h
  | cons e rest ih =>
    by_cases hfree : e.decodeIndex = invalidIndex
    · rw [mapEntry, if_pos hfree, Option.some.injEq] at h
      exact ⟨[], e, rest, rfl, hfree, h.symm⟩
    · rw [mapEntry, if_neg hfree, Option.map_eq_some_iff] at h
      obtain ⟨rest', hrest, rfl⟩ := h
      obtain ⟨before, e', after, rfl, hmark, rfl⟩ := ih hrest
      exact ⟨e :: before, e', after, rfl, hmark, rfl⟩

theorem mapEntry_isSome {entries : List IndexBufferEntry}
    (h : ∃ e ∈ entries, e.decodeIndex = invalidIndex) : ∃ entries', mapEntry d i entries = some entries' := by
  induction entries with
  | nil => simp at h
  | cons e rest ih =>
    by_cases hfree : e.decodeIndex = invalidIndex
    · exact ⟨_, if_pos hfree⟩
    · obtain ⟨e', hmem, hmark⟩ := h
      have htail : e' ∈ rest := by
        rcases List.mem_cons.mp hmem with rfl | htail
        · exact absurd hmark hfree
        · exact htail
      obtain ⟨rest', hrest⟩ := ih ⟨e', htail, hmark⟩
      refine ⟨e :: rest', ?_⟩
      rw [mapEntry, if_neg hfree, hrest]
      rfl

/-! ### Balanced holds -/

/-- How many references on a buffer were taken for decode contexts. -/
def holds (contexts : List DecodeContext) (i : Word) : ℕ := (contexts.map (·.taken.count i)).sum

@[simp] theorem holds_append (before after : List DecodeContext) (i : Word) :
    holds (before ++ after) i = holds before i + holds after i := by
  simp [holds]

@[simp] theorem holds_cons (c : DecodeContext) (rest : List DecodeContext) (i : Word) :
    holds (c :: rest) i = c.taken.count i + holds rest i := by
  simp [holds]

@[simp] theorem holds_nil (i : Word) : holds [] i = 0 := rfl

/-- The references on every buffer are those of its holders, where `pending` are held by nobody; the
buffers known to the codec are those in the map. -/
structure Held (limits : BufferLimits) (pending : List Word) (s : ReferenceState) : Prop where
  owned : ∀ i, s.owners i = s.others i + (s.bufferState i).referenceFrameCount + holds s.contexts i +
    pending.count i
  counted : ∀ i, 0 < (s.bufferState i).referenceFrameCount + holds s.contexts i + pending.count i →
    (s.bufferState i).present = true
  live : ∀ i, (s.bufferState i).present = true → 0 < s.owners i
  pool : ∀ i, (s.bufferState i).present = true → InPool limits i
  mapped : ∀ i, i ≠ invalidIndex → (s.Mapped i ↔ (s.bufferState i).present = true)
  free : ∀ e ∈ s.indexBufferMap, e.decodeIndex = invalidIndex ↔ e.bufferIndex = invalidIndex
  current : s.currentDecodeBufferIndex ≠ invalidIndex →
    (s.bufferState s.currentDecodeBufferIndex).present = true ∧ 0 < s.others s.currentDecodeBufferIndex

theorem InPool.valid {limits : BufferLimits} (h : InPool limits i) : i ≠ invalidIndex := by
  rintro rfl
  have hlt := h.2
  rcases limits.declared with hmax | hmax
  · rw [hmax] at hlt
    exact absurd hlt (by decide)
  · rw [hmax] at hlt
    exact absurd hlt (by decide)

section
variable {limits : BufferLimits} {pending : List Word} {s : ReferenceState}

variable {pending' : List Word}

theorem Held.congr (h : Held limits pending s)
    (hcount : ∀ i, pending.count i = pending'.count i) : Held limits pending' s := { h with
  owned i := hcount i ▸ h.owned i
  counted i := hcount i ▸ h.counted i }

variable {i d : Word}

theorem Held.take (h : Held limits pending s) (hpresent : (s.bufferState i).present = true) :
    Held limits (i :: pending) (s.takeReference i) := { h with
  owned j := by
    have howned := h.owned j
    by_cases hj : j = i
    · subst hj
      simp only [takeReference, Function.update_self, List.count_cons_self]
      omega
    · have hne : i ≠ j := fun heq => hj heq.symm
      simp only [takeReference, Function.update_of_ne hj, List.count_cons_of_ne hne]
      exact howned
  counted j hpos := by
    by_cases hj : j = i
    · exact hj ▸ hpresent
    · have hne : i ≠ j := fun heq => hj heq.symm
      rw [List.count_cons_of_ne hne] at hpos
      exact h.counted j hpos
  live j hj := by
    have hlive := h.live j hj
    by_cases hji : j = i
    · subst hji
      simp [takeReference]
    · simpa [takeReference, Function.update_of_ne hji] using hlive }

theorem Held.pending_present (h : Held limits (i :: pending) s) :
    (s.bufferState i).present = true := by
  apply h.counted i
  rw [List.count_cons_self]
  omega

/-- Without its last reference a buffer is forgotten: nobody else had one. -/
theorem Held.dropLast (h : Held limits (i :: pending) s) (hlast : s.owners i = 1) :
    Held limits pending (dropReference
      { s.unMapBufferIndex i with bufferState := Function.update s.bufferState i .empty } i) := by
  have howned := h.owned i
  rw [List.count_cons_self] at howned
  have hothers : s.others i = 0 := by omega
  constructor
  case owned =>
    intro j
    have hj' := h.owned j
    by_cases hj : j = i
    · subst hj
      simp only [dropReference, unMapBufferIndex, BufferHold.empty, Function.update_self]
      omega
    · have hne : i ≠ j := fun heq => hj heq.symm
      rw [List.count_cons_of_ne hne] at hj'
      simp only [dropReference, unMapBufferIndex, Function.update_of_ne hj]
      exact hj'
  case counted =>
    intro j hpos
    have hj' := h.counted j
    by_cases hj : j = i
    · subst hj
      simp only [dropReference, unMapBufferIndex, BufferHold.empty, Function.update_self] at hpos
      omega
    · have hne : i ≠ j := fun heq => hj heq.symm
      rw [List.count_cons_of_ne hne] at hj'
      simp only [dropReference, unMapBufferIndex, Function.update_of_ne hj] at hpos ⊢
      exact hj' hpos
  case live =>
    intro j hpresent
    by_cases hj : j = i
    · subst hj
      simp only [dropReference, BufferHold.empty, Function.update_self] at hpresent
      cases hpresent
    · simp only [dropReference, unMapBufferIndex, Function.update_of_ne hj] at hpresent ⊢
      exact h.live j hpresent
  case pool =>
    intro j hpresent
    by_cases hj : j = i
    · subst hj
      simp only [dropReference, BufferHold.empty, Function.update_self] at hpresent
      cases hpresent
    · simp only [dropReference, Function.update_of_ne hj] at hpresent
      exact h.pool j hpresent
  case mapped =>
    intro j hvalid
    simp only [Mapped, dropReference, unMapBufferIndex, List.mem_map]
    by_cases hj : j = i
    · subst hj
      rw [Function.update_self]
      constructor
      · rintro ⟨e, ⟨e', -, rfl⟩, he⟩
        split at he
        next heq => exact absurd he.symm hvalid
        next hne => exact absurd he hne
      · intro hfalse
        cases hfalse
    · rw [Function.update_of_ne hj, ← h.mapped j hvalid]
      constructor
      · rintro ⟨e, ⟨e', hmem, rfl⟩, he⟩
        split at he
        next heq => exact absurd he.symm hvalid
        next hne => exact ⟨e', hmem, he⟩
      · rintro ⟨e, hmem, he⟩
        have hne : e.bufferIndex ≠ i := fun heq => hj (he.symm.trans heq)
        exact ⟨e, ⟨e, hmem, if_neg hne⟩, he⟩
  case free =>
    intro e hmem
    simp only [dropReference, unMapBufferIndex, List.mem_map] at hmem
    obtain ⟨e', hmem', rfl⟩ := hmem
    split
    · exact iff_of_true rfl rfl
    · exact h.free e' hmem'
  case current =>
    intro hcurrent
    obtain ⟨hheld, hpos⟩ := h.current hcurrent
    have hne : s.currentDecodeBufferIndex ≠ i := by
      intro heq
      rw [heq] at hpos
      omega
    refine ⟨?_, hpos⟩
    simp only [dropReference, unMapBufferIndex, Function.update_of_ne hne]
    exact hheld

theorem Held.dropMore (h : Held limits (i :: pending) s) (hmore : s.owners i ≠ 1) :
    Held limits pending (s.dropReference i) := by
  have hlive := h.live i h.pending_present
  constructor
  case owned =>
    intro j
    have hj' := h.owned j
    by_cases hj : j = i
    · subst hj
      rw [List.count_cons_self] at hj'
      simp only [dropReference, Function.update_self]
      omega
    · have hne : i ≠ j := fun heq => hj heq.symm
      rw [List.count_cons_of_ne hne] at hj'
      simp only [dropReference, Function.update_of_ne hj]
      exact hj'
  case counted =>
    intro j hpos
    apply h.counted j
    rw [List.count_cons]
    have hpos' : 0 < (s.bufferState j).referenceFrameCount + holds s.contexts j + pending.count j := hpos
    omega
  case live =>
    intro j hpresent
    by_cases hj : j = i
    · subst hj
      simp only [dropReference, Function.update_self]
      omega
    · simp only [dropReference, Function.update_of_ne hj]
      exact h.live j hpresent
  case pool => exact h.pool
  case mapped => exact h.mapped
  case free => exact h.free
  case current => exact h.current

theorem Held.drop (h : Held limits (i :: pending) s) :
    Held limits pending (s.decrementReferenceCount i) := by
  unfold decrementReferenceCount
  rw [if_pos h.pending_present]
  split
  next hlast => exact h.dropLast hlast
  next hmore => exact h.dropMore hmore

/-- Dropping a pending reference changes the owner count of its buffer only, and no count of the frame
parser. -/
theorem Held.drop_owners (h : Held limits (i :: pending) s) (j : Word) :
    (s.decrementReferenceCount i).owners j + [i].count j = s.owners j ∧
      ((s.decrementReferenceCount i).bufferState j).referenceFrameCount =
        (s.bufferState j).referenceFrameCount := by
  have hpresent := h.pending_present
  have hlive := h.live i hpresent
  have howned := h.owned i
  rw [List.count_cons_self] at howned
  unfold decrementReferenceCount
  rw [if_pos hpresent]
  by_cases hj : j = i
  · subst hj
    split
    next hlast =>
      simp only [dropReference, unMapBufferIndex, BufferHold.empty, Function.update_self,
        List.count_singleton_self]
      exact ⟨by omega, by omega⟩
    next hmore =>
      simp only [dropReference, Function.update_self, List.count_singleton_self]
      exact ⟨by omega, trivial⟩
  · have hne : i ≠ j := fun heq => hj heq.symm
    rw [List.count_singleton, beq_false_of_ne hne]
    split
    · simp [dropReference, unMapBufferIndex, Function.update_of_ne hj]
    · simp [dropReference, Function.update_of_ne hj]

theorem Held.dropAll {dropped : List Word} (h : Held limits (dropped ++ pending) s) :
    Held limits pending (dropped.foldl decrementReferenceCount s) ∧
      ∀ j, (dropped.foldl decrementReferenceCount s).owners j + dropped.count j = s.owners j := by
  induction dropped generalizing s with
  | nil => exact ⟨h, fun _ => rfl⟩
  | cons i rest ih =>
    obtain ⟨hheld, howners⟩ := ih h.drop
    refine ⟨hheld, ?_⟩
    intro j
    have hfirst := (Held.drop_owners h j).1
    have hrest := howners j
    rw [List.foldl_cons, List.count_cons]
    rw [List.count_singleton] at hfirst
    omega

/-- A buffer of the codec stays its buffer until nobody has a reference on it. -/
def Keeps (s t : ReferenceState) : Prop :=
  ∀ i, ((s.bufferState i).present = true → (t.bufferState i).present = true ∨ t.owners i = 0) ∧
    (s.owners i = 0 → t.owners i = 0)

theorem Keeps.refl (s : ReferenceState) : Keeps s s := fun _ => ⟨.inl, id⟩

theorem Keeps.trans {s t u : ReferenceState} (hst : Keeps s t) (htu : Keeps t u) : Keeps s u := by
  intro i
  refine ⟨?_, fun hzero => (htu i).2 ((hst i).2 hzero)⟩
  intro hpresent
  rcases (hst i).1 hpresent with hstill | hzero
  · exact (htu i).1 hstill
  · exact .inr ((htu i).2 hzero)

theorem keeps_decrementReferenceCount (s : ReferenceState) (i : Word) :
    Keeps s (s.decrementReferenceCount i) := by
  unfold decrementReferenceCount
  split
  next hpresent =>
    split
    next hlast =>
      intro j
      by_cases hj : j = i
      · subst hj
        simp [dropReference, unMapBufferIndex, hlast]
      · simp only [dropReference, unMapBufferIndex, Function.update_of_ne hj]
        exact ⟨.inl, id⟩
    next hmore =>
      intro j
      by_cases hj : j = i
      · subst hj
        simp only [dropReference, Function.update_self]
        exact ⟨.inl, fun hzero => by rw [hzero]⟩
      · simp only [dropReference, Function.update_of_ne hj]
        exact ⟨.inl, id⟩
  next hnone => exact Keeps.refl s

theorem setReferenceFrameCount_present (s : ReferenceState) (i : Word) (count : ℕ) (j : Word) :
    ((s.setReferenceFrameCount i count).bufferState j).present = (s.bufferState j).present := by
  by_cases hj : j = i
  · subst hj
    simp [setReferenceFrameCount]
  · simp [setReferenceFrameCount, Function.update_of_ne hj]

theorem keeps_setReferenceFrameCount (s : ReferenceState) (i : Word) (count : ℕ) :
    Keeps s (s.setReferenceFrameCount i count) :=
  fun j => ⟨fun hpresent => .inl ((s.setReferenceFrameCount_present i count j).trans hpresent), id⟩

theorem keeps_dropFrameReference (s : ReferenceState) (i : Word) : Keeps s (s.dropFrameReference i) :=
  (keeps_setReferenceFrameCount s i _).trans (keeps_decrementReferenceCount _ i)

theorem keeps_foldl {α : Type*} {f : ReferenceState → α → ReferenceState} (hf : ∀ s a, Keeps s (f s a))
    (l : List α) (s : ReferenceState) : Keeps s (l.foldl f s) := by
  induction l generalizing s with
  | nil => exact Keeps.refl s
  | cons a rest ih => exact (hf s a).trans (ih (f s a))

theorem keeps_dropFrameReferences (count : ℕ) (s : ReferenceState) (i : Word) :
    Keeps s (dropFrameReferences count s i) := by
  induction count generalizing s with
  | zero => exact Keeps.refl s
  | succ count ih =>
    unfold dropFrameReferences
    split
    · exact (keeps_dropFrameReference s i).trans (ih _)
    · exact Keeps.refl s

variable {count k : ℕ}

theorem Held.recount (h : Held limits pending s)
    (hpresent : (s.bufferState i).present = true)
    (hsame : count + pending'.count i = (s.bufferState i).referenceFrameCount + pending.count i)
    (hother : ∀ j, j ≠ i → pending'.count j = pending.count j) :
    Held limits pending' (s.setReferenceFrameCount i count) := by
  have hstate := s.setReferenceFrameCount_present i count
  constructor
  case owned =>
    intro j
    have howned := h.owned j
    by_cases hj : j = i
    · subst hj
      simp only [setReferenceFrameCount, Function.update_self]
      omega
    · simp only [setReferenceFrameCount, Function.update_of_ne hj, hother j hj]
      exact howned
  case counted =>
    intro j hpos
    rw [hstate j]
    by_cases hj : j = i
    · exact hj ▸ hpresent
    · simp only [setReferenceFrameCount, Function.update_of_ne hj, hother j hj] at hpos
      exact h.counted j hpos
  case live => exact fun j hj => h.live j (hstate j ▸ hj)
  case pool => exact fun j hj => h.pool j (hstate j ▸ hj)
  case mapped =>
    intro j hj
    rw [hstate j]
    exact h.mapped j hj
  case free => exact h.free
  case current =>
    intro hcurrent
    rw [hstate]
    exact h.current hcurrent

theorem Held.dropFrameReference (h : Held limits pending s)
    (hcount : (s.bufferState i).referenceFrameCount ≠ 0) : Held limits pending (s.dropFrameReference i) := by
  have hpresent : (s.bufferState i).present = true := by
    apply h.counted i
    omega
  apply Held.drop
  apply h.recount hpresent
  · rw [List.count_cons_self]
    omega
  · intro j hj
    exact List.count_cons_of_ne fun heq => hj heq.symm

theorem Held.dropFrameReferences (h : Held limits pending s) :
    Held limits pending (ReferenceState.dropFrameReferences count s i) := by
  induction count generalizing s with
  | zero => exact h
  | succ count ih =>
    unfold ReferenceState.dropFrameReferences
    split
    next hcount => exact ih (h.dropFrameReference hcount)
    next => exact h

theorem Held.takeFrameReference (h : Held limits pending s)
    (hpresent : (s.bufferState i).present = true) : Held limits pending (s.takeFrameReference i) := by
  apply (h.take hpresent).recount hpresent
  · rw [List.count_cons_self]
    simp only [takeReference_bufferState]
    omega
  · intro j hj
    exact (List.count_cons_of_ne fun heq => hj heq.symm).symm

/-! ### Reference lists -/

/-- What the translation of some entries comes to: references on `taken`, and the entries from the first
one on that is not translated. -/
structure Translates (limits : BufferLimits) (pending : List Word) (s : ReferenceState)
    (entries : List Word) (t : ReferenceState) (taken left : List Word) : Prop where
  frame : t = { s with owners := t.owners }
  held : Held limits (taken ++ pending) t
  within : ∀ i ∈ taken, InPool limits i
  keeps : Keeps s t
  read : ∃ front, entries = front ++ left
  stopped : ∀ d rest, left = d :: rest → d = invalidIndex ∧ s.HasFree

theorem Held.translateEntry_some (h : Held limits pending s)
    (hcurrent : s.currentDecodeBufferIndex ≠ invalidIndex) (hsome : s.translateEntry limits d = some i) :
    (s.bufferState i).present = true := by
  simp only [translateEntry] at hsome
  split at hsome
  next => cases hsome
  next hgood =>
    cases hsome
    push Not at hgood
    obtain ⟨hvalid, -⟩ := hgood
    cases hlookup : s.translateDecodeIndex d with
    | none => exact (h.current hcurrent).1
    | some b =>
      rw [hlookup, Option.getD_some] at hvalid
      unfold translateDecodeIndex at hlookup
      rw [Option.map_eq_some_iff] at hlookup
      obtain ⟨e, hfind, rfl⟩ := hlookup
      exact (h.mapped _ hvalid).mp ⟨e, List.mem_of_find?_eq_some hfind, rfl⟩

theorem Held.translateEntry_none (h : Held limits pending s)
    (hcurrent : s.currentDecodeBufferIndex ≠ invalidIndex) (hnone : s.translateEntry limits d = none) :
    d = invalidIndex ∧ s.HasFree := by
  simp only [translateEntry] at hnone
  split at hnone
  next hbad =>
    cases hlookup : s.translateDecodeIndex d with
    | none =>
      rw [hlookup, Option.getD_none] at hbad
      have hpool := h.pool _ (h.current hcurrent).1
      rcases hbad with heq | hge
      · exact absurd heq hcurrent
      · exact absurd hpool.2 (Nat.not_lt.mpr hge)
    | some b =>
      rw [hlookup, Option.getD_some] at hbad
      unfold translateDecodeIndex at hlookup
      rw [Option.map_eq_some_iff] at hlookup
      obtain ⟨e, hfind, rfl⟩ := hlookup
      have hmem := List.mem_of_find?_eq_some hfind
      have hkey : e.decodeIndex = d := by simpa using List.find?_some hfind
      have hinvalid : e.bufferIndex = invalidIndex := by
        by_contra hvalid
        have hpresent := (h.mapped _ hvalid).mp ⟨e, hmem, rfl⟩
        rcases hbad with heq | hge
        · exact hvalid heq
        · exact absurd (h.pool _ hpresent).2 (Nat.not_lt.mpr hge)
      have hfree := (h.free e hmem).mpr hinvalid
      exact ⟨hkey.symm.trans hfree, e, hmem, hfree⟩
  next => cases hnone

theorem keeps_takeReference (hlive : s.owners i ≠ 0) : Keeps s (s.takeReference i) := by
  intro j
  refine ⟨.inl, ?_⟩
  intro hzero
  by_cases hj : j = i
  · exact absurd (hj ▸ hzero) hlive
  · simpa [takeReference, Function.update_of_ne hj] using hzero

theorem Held.translateList (list : List Word) (h : Held limits pending s)
    (hcurrent : s.currentDecodeBufferIndex ≠ invalidIndex) :
    Translates limits pending s list (s.translateList limits list).1 (s.translateList limits list).2.1
      (s.translateList limits list).2.2 := by
  induction list generalizing s pending with
  | nil =>
    exact ⟨rfl, h, fun _ hi => (List.not_mem_nil hi).elim, Keeps.refl s, ⟨[], rfl⟩,
      fun _ _ hleft => by cases hleft⟩
  | cons d rest ih =>
    unfold ReferenceState.translateList
    split
    next hnone =>
      refine ⟨rfl, h, fun _ hi => (List.not_mem_nil hi).elim, Keeps.refl s, ⟨[], rfl⟩, ?_⟩
      intro d' rest' hleft
      cases hleft
      exact h.translateEntry_none hcurrent hnone
    next i hsome =>
      have hpresent := h.translateEntry_some hcurrent hsome
      have hpool := h.pool i hpresent
      have hrest := ih (h.take hpresent) hcurrent
      constructor
      case frame => exact hrest.frame.trans rfl
      case held =>
        change Held limits (i :: ((s.takeReference i).translateList limits rest).2.1 ++ pending) _
        apply hrest.held.congr
        intro j
        simp only [List.cons_append, List.count_append, List.count_cons]
        omega
      case within => exact List.forall_mem_cons.mpr ⟨hpool, hrest.within⟩
      case keeps => exact (keeps_takeReference (h.live i hpresent).ne').trans hrest.keeps
      case read =>
        obtain ⟨front, hfront⟩ := hrest.read
        exact ⟨d :: front, congrArg (d :: ·) hfront⟩
      case stopped => exact hrest.stopped

theorem Translates.append {list rest taken more left : List Word} {t u : ReferenceState}
    (hfirst : Translates limits pending s list t taken [])
    (hrest : Translates limits (taken ++ pending) t rest u more left) :
    Translates limits pending s (list ++ rest) u (taken ++ more) left where
  frame := by
    rw [hrest.frame, hfirst.frame]
  held := by
    apply hrest.held.congr
    intro i
    simp only [List.count_append]
    omega
  within := List.forall_mem_append.mpr ⟨hfirst.within, hrest.within⟩
  keeps := hfirst.keeps.trans hrest.keeps
  read := by
    obtain ⟨front, hfront⟩ := hrest.read
    exact ⟨list ++ front, by rw [hfront, List.append_assoc]⟩
  stopped d rest' hleft := by
    obtain ⟨hinvalid, hfree⟩ := hrest.stopped d rest' hleft
    rw [hfirst.frame] at hfree
    exact ⟨hinvalid, hfree⟩

variable {t : ReferenceState}

theorem Translates.stop {list taken left : List Word} (rest : List Word)
    (hfirst : Translates limits pending s list t taken (d :: left)) :
    Translates limits pending s (list ++ rest) t taken (d :: left ++ rest) := { hfirst with
  read := by
    obtain ⟨front, hfront⟩ := hfirst.read
    exact ⟨front, by rw [hfront, List.append_assoc]⟩
  stopped d' rest' hleft := by
    cases hleft
    exact hfirst.stopped d left rfl }

theorem Held.translateLists (lists : List (List Word)) (h : Held limits pending s)
    (hcurrent : s.currentDecodeBufferIndex ≠ invalidIndex) :
    ∃ left, (s.translateLists limits lists).2.1.flatten = (s.translateLists limits lists).2.2 ++ left ∧
      Translates limits pending s lists.flatten (s.translateLists limits lists).1
        (s.translateLists limits lists).2.2 left := by
  induction lists generalizing s pending with
  | nil => exact ⟨[], rfl, h.translateList [] hcurrent⟩
  | cons list rest ih =>
    have hfirst := h.translateList list hcurrent
    unfold ReferenceState.translateLists
    split
    next t taken heq =>
      rw [heq] at hfirst
      have hframe : t = { s with owners := t.owners } := hfirst.frame
      have hsame : t.currentDecodeBufferIndex = s.currentDecodeBufferIndex := by
        rw [hframe]
      obtain ⟨left, hflat, hrest⟩ := ih hfirst.held (hsame ▸ hcurrent)
      refine ⟨left, ?_, hfirst.append hrest⟩
      simp only [List.flatten_cons, hflat, List.append_assoc]
    next t taken d left heq =>
      rw [heq] at hfirst
      refine ⟨d :: left ++ rest.flatten, ?_, hfirst.stop rest.flatten⟩
      simp only [List.flatten_cons, List.append_assoc, List.cons_append]

theorem mem_dropWhile_of_mem {front rest : List Word} (hmem : d ∈ rest) :
    d ∈ (front ++ invalidIndex :: rest).dropWhile (· ≠ invalidIndex) := by
  induction front with
  | nil =>
    exact List.mem_cons_of_mem _ hmem
  | cons e front ih =>
    by_cases he : e = invalidIndex
    · rw [List.cons_append, List.dropWhile_cons_of_neg (by simp [he])]
      simp [hmem]
    · rw [List.cons_append, List.dropWhile_cons_of_pos (by simp [he])]
      exact ih

/-- Where only `INVALID_INDEX` follows an entry that is not translated, what is taken for buffers later
is what references were taken on. -/
theorem Translates.applied {entries taken left : List Word}
    (h : Translates limits pending s entries t taken left)
    (hmeant : s.HasFree → ∀ d ∈ entries.dropWhile (· ≠ invalidIndex), d = invalidIndex) :
    (taken ++ left).filter (· ≠ invalidIndex) = taken := by
  have htaken : taken.filter (· ≠ invalidIndex) = taken := by
    apply List.filter_eq_self.mpr
    intro i hi
    simpa using (h.within i hi).valid
  have hleft : left.filter (· ≠ invalidIndex) = [] := by
    rw [List.filter_eq_nil_iff]
    intro d hd
    have hinvalid : d = invalidIndex := by
      cases hl : left with
      | nil => exact absurd (hl ▸ hd) List.not_mem_nil
      | cons e rest =>
        obtain ⟨rfl, hfree⟩ := h.stopped e rest hl
        rw [hl] at hd
        rcases List.mem_cons.mp hd with heq | hrest
        · exact heq
        · obtain ⟨front, hfront⟩ := h.read
          apply hmeant hfree
          rw [hfront, hl]
          exact mem_dropWhile_of_mem hrest
    simp [hinvalid]
  rw [List.filter_append, htaken, hleft, List.append_nil]

/-! ### Contexts -/

variable {contexts : List DecodeContext} {c : DecodeContext}

theorem holds_eraseIdx (h : contexts[k]? = some c) (i : Word) :
    holds contexts i = c.taken.count i + holds (contexts.eraseIdx k) i := by
  induction contexts generalizing k with
  | nil => cases h
  | cons c' rest ih =>
    cases k with
    | zero =>
      cases h
      exact holds_cons c rest i
    | succ k =>
      have hrest := ih h
      rw [List.eraseIdx_cons_succ, holds_cons, holds_cons, hrest]
      omega

theorem holds_set (c' : DecodeContext)
    (h : contexts[k]? = some c) (i : Word) :
    holds (contexts.set k c') i + c.taken.count i = holds contexts i + c'.taken.count i := by
  induction contexts generalizing k with
  | nil => cases h
  | cons head rest ih =>
    cases k with
    | zero =>
      cases h
      rw [List.set_cons_zero, holds_cons, holds_cons]
      omega
    | succ k =>
      have hrest := ih h
      rw [List.set_cons_succ, holds_cons, holds_cons]
      omega

theorem Held.recontext (h : Held limits pending s)
    (hsame : ∀ i, holds contexts i + pending'.count i = holds s.contexts i + pending.count i) :
    Held limits pending' { s with contexts := contexts } := { h with
  owned i := by
    have howned := h.owned i
    have hi := hsame i
    change s.owners i = s.others i + (s.bufferState i).referenceFrameCount + holds contexts i + _
    omega
  counted i hpos := by
    have hi := hsame i
    apply h.counted i
    change 0 < (s.bufferState i).referenceFrameCount + holds contexts i + _ at hpos
    omega }

theorem Held.reowned (pending' : List Word) {owners others : Word → ℕ} (h : Held limits pending s)
    (hsame : ∀ j, owners j + s.others j + pending.count j = s.owners j + others j + pending'.count j)
    (hpending : ∀ j, 0 < pending'.count j → (s.bufferState j).present = true)
    (hlive : ∀ j, (s.bufferState j).present = true → 0 < owners j)
    (hcurrent : s.currentDecodeBufferIndex ≠ invalidIndex → 0 < others s.currentDecodeBufferIndex) :
    Held limits pending' { s with owners := owners, others := others } := { h with
  owned j := by
    have howned := h.owned j
    have hj := hsame j
    change owners j = others j + (s.bufferState j).referenceFrameCount + holds s.contexts j + _
    omega
  counted j hpos := by
    by_cases hj : 0 < pending'.count j
    · exact hpending j hj
    · apply h.counted j
      change 0 < (s.bufferState j).referenceFrameCount + holds s.contexts j + _ at hpos
      omega
  live := hlive
  current hvalid := ⟨(h.current hvalid).1, hcurrent hvalid⟩ }

theorem mapBufferToDecodeIndex_some
    (hfree : ∀ e ∈ s.indexBufferMap, e.decodeIndex = invalidIndex ↔ e.bufferIndex = invalidIndex)
    (hd : d ≠ invalidIndex) (hi : i ≠ invalidIndex) (h : s.mapBufferToDecodeIndex d i = some t) :
    t = { s with indexBufferMap := t.indexBufferMap } ∧
      (∀ e ∈ t.indexBufferMap, e.decodeIndex = invalidIndex ↔ e.bufferIndex = invalidIndex) ∧
      ∀ j, j ≠ invalidIndex → (t.Mapped j ↔ j = i ∨ s.Mapped j) := by
  unfold mapBufferToDecodeIndex at h
  rw [Option.map_eq_some_iff] at h
  obtain ⟨entries, hentries, rfl⟩ := h
  obtain ⟨before, e, after, hold, hmark, rfl⟩ := mapEntry_some hentries
  have hempty : e.bufferIndex = invalidIndex := by
    apply (hfree e ?_).mp hmark
    rw [hold]
    simp
  refine ⟨rfl, ?_, ?_⟩
  · intro e' hmem
    rcases List.mem_append.mp hmem with hbefore | hrest
    · exact hfree e' (hold ▸ List.mem_append_left _ hbefore)
    · rcases List.mem_cons.mp hrest with rfl | hafter
      · exact iff_of_false hd hi
      · exact hfree e' (hold ▸ List.mem_append_right _ (List.mem_cons_of_mem _ hafter))
  · intro j hj
    unfold Mapped
    rw [hold]
    constructor
    · rintro ⟨e', hmem, rfl⟩
      rcases List.mem_append.mp hmem with hbefore | hrest
      · exact .inr ⟨e', List.mem_append_left _ hbefore, rfl⟩
      · rcases List.mem_cons.mp hrest with rfl | hafter
        · exact .inl rfl
        · exact .inr ⟨e', List.mem_append_right _ (List.mem_cons_of_mem _ hafter), rfl⟩
    · rintro (rfl | ⟨e', hmem, rfl⟩)
      · exact ⟨⟨d, j⟩, by simp, rfl⟩
      · refine ⟨e', ?_, rfl⟩
        rcases List.mem_append.mp hmem with hbefore | hrest
        · exact List.mem_append_left _ hbefore
        · rcases List.mem_cons.mp hrest with rfl | hafter
          · exact absurd hempty hj
          · exact List.mem_append_right _ (List.mem_cons_of_mem _ hafter)

end

/-! ### Steps of balanced holds -/

section
variable {limits : BufferLimits} {s : ReferenceState}

variable {i d : Word}

theorem Held.not_present (h : Held limits [] s) (hzero : s.owners i = 0) :
    (s.bufferState i).present = false := by
  by_contra hpresent
  have hlive := h.live i (Bool.not_eq_false _ ▸ hpresent)
  omega

theorem Held.getDecodeBuffer (h : Held limits [] s) (hzero : s.owners i = 0)
    (hpool : InPool limits i) (hd : d ≠ invalidIndex) (hfree : s.HasFree) :
    Held limits [] (s.getDecodeBuffer d i) := by
  have habsent := h.not_present hzero
  have hcounted : (s.bufferState i).referenceFrameCount + holds s.contexts i = 0 := by
    have howned := h.owned i
    omega
  obtain ⟨entries, hentries⟩ := mapEntry_isSome (d := d) (i := i) hfree
  have hmap : s.mapBufferToDecodeIndex d i = some { s with indexBufferMap := entries } := by
    rw [mapBufferToDecodeIndex, hentries]
    rfl
  obtain ⟨-, hmarks, hmapped⟩ := mapBufferToDecodeIndex_some h.free hd hpool.valid hmap
  unfold ReferenceState.getDecodeBuffer
  simp only [mapBufferToDecodeIndex, hentries, Option.map_some]
  constructor
  case owned =>
    intro j
    have howned := h.owned j
    by_cases hj : j = i
    · subst hj
      simp only [Function.update_self, List.count_nil]
      omega
    · simp only [Function.update_of_ne hj]
      exact howned
  case counted =>
    intro j hpos
    by_cases hj : j = i
    · subst hj
      simp
    · simp only [Function.update_of_ne hj] at hpos ⊢
      exact h.counted j hpos
  case live =>
    intro j hpresent
    by_cases hj : j = i
    · subst hj
      simp
    · simp only [Function.update_of_ne hj] at hpresent ⊢
      exact h.live j hpresent
  case pool =>
    intro j hpresent
    by_cases hj : j = i
    · exact hj ▸ hpool
    · simp only [Function.update_of_ne hj] at hpresent
      exact h.pool j hpresent
  case mapped =>
    intro j hj
    refine (hmapped j hj).trans ?_
    by_cases hji : j = i
    · subst hji
      simp
    · simp only [Function.update_of_ne hji]
      exact (or_iff_right hji).trans (h.mapped j hj)
  case free => exact hmarks
  case current => simp

theorem Held.mapSecondField (h : Held limits [] s) (hd : d ≠ invalidIndex)
    (hcurrent : s.currentDecodeBufferIndex ≠ invalidIndex) : Held limits [] (s.mapSecondField d) := by
  unfold ReferenceState.mapSecondField
  cases hmap : s.mapBufferToDecodeIndex d s.currentDecodeBufferIndex with
  | none => exact ⟨h.owned, h.counted, h.live, h.pool, h.mapped, h.free, fun hvalid => absurd rfl hvalid⟩
  | some t =>
    obtain ⟨hframe, hmarks, hmapped⟩ := mapBufferToDecodeIndex_some h.free hd hcurrent hmap
    rw [Option.getD_some, hframe]
    refine ⟨h.owned, h.counted, h.live, h.pool, ?_, hmarks, h.current⟩
    intro j hj
    refine (hmapped j hj).trans ?_
    rw [h.mapped j hj]
    constructor
    · rintro (rfl | hpresent)
      · exact (h.current hcurrent).1
      · exact hpresent
    · exact .inr

/-- What is true of a decode context: what it is released with is what was taken for it. -/
structure Settled (limits : BufferLimits) (c : DecodeContext) : Prop where
  applied : c.applied = c.taken
  within : ∀ i ∈ c.taken, InPool limits i
  bufferIndex : c.bufferIndex ≠ invalidIndex → InPool limits c.bufferIndex
  launched : c.decodeInProgress = true → c.bufferIndex ≠ invalidIndex

theorem settled_fresh : Settled limits .fresh where
  applied := rfl
  within _ hi := (List.not_mem_nil hi).elim
  bufferIndex hvalid := absurd rfl hvalid
  launched hlaunched := by cases hlaunched

/-- The holds are balanced, and all contexts are settled. -/
structure Referenced (limits : BufferLimits) (s : ReferenceState) : Prop where
  held : Held limits [] s
  settled : ∀ c ∈ s.contexts, Settled limits c

/-- Only `INVALID_INDEX` follows the first `INVALID_INDEX`. -/
def EndsInvalid (entries : List Word) : Prop :=
  ∀ d ∈ entries.dropWhile (· ≠ invalidIndex), d = invalidIndex

instance (entries : List Word) : Decidable (EndsInvalid entries) :=
  List.decidableBAll (fun d => d = invalidIndex) (entries.dropWhile (· ≠ invalidIndex))

/-- What `TranslateReferenceFrameLists` and `GetDecodeBuffer` need: `INVALID_INDEX` is not the decode
index of a frame, it ends the reference frame lists, unless the map is full, and the map is not full when
a buffer is obtained. -/
def ReferencesMeant (s : ReferenceState) : Label → Prop
  | .getDecodeBuffer d _ => d ≠ invalidIndex ∧ s.HasFree
  | .mapSecondField d => d ≠ invalidIndex
  | .translateReferenceFrameLists _ lists _ _ => s.HasFree → EndsInvalid lists.flatten
  | _ => True

instance : ∀ (s : ReferenceState) (label : Label), Decidable (ReferencesMeant s label)
  | _, .getDecodeBuffer _ _ => inferInstanceAs (Decidable (_ ∧ _))
  | _, .mapSecondField d => inferInstanceAs (Decidable (d ≠ invalidIndex))
  | s, .translateReferenceFrameLists _ lists _ _ =>
    inferInstanceAs (Decidable (s.HasFree → EndsInvalid lists.flatten))
  | _, .getDecodeContext | _, .launch _ | _, .forgetDecodeBuffer | _, .releaseDecodeContext _
  | _, .releaseReferenceFrame _ | _, .releaseDecodeBuffer _ | _, .addReference _
  | _, .getMarkerBuffer _ => isTrue trivial

theorem foldl_contexts {α : Type*} {f : ReferenceState → α → ReferenceState}
    (hf : ∀ s a, (f s a).contexts = s.contexts) (l : List α) (s : ReferenceState) :
    (l.foldl f s).contexts = s.contexts := by
  induction l generalizing s with
  | nil => rfl
  | cons a rest ih => exact (ih _).trans (hf s a)

theorem dropFrameReferences_contexts (count : ℕ) (s : ReferenceState) (i : Word) :
    (dropFrameReferences count s i).contexts = s.contexts := by
  induction count generalizing s with
  | zero => rfl
  | succ count ih =>
    unfold dropFrameReferences
    split
    · exact (ih _).trans (decrementReferenceCount_frame _ i).1
    · rfl

theorem releaseReferenceFrame_frame (limits : BufferLimits) (s : ReferenceState) (d : Word) :
    (s.releaseReferenceFrame limits d).contexts = s.contexts ∧
      Keeps s (s.releaseReferenceFrame limits d) := by
  unfold releaseReferenceFrame
  split
  · exact ⟨foldl_contexts (fun s i => dropFrameReferences_contexts _ s _) _ s,
      keeps_foldl (fun s i => keeps_dropFrameReferences _ s _) _ s⟩
  · split
    · exact ⟨rfl, Keeps.refl s⟩
    next i hi =>
      split
      · exact ⟨rfl, Keeps.refl s⟩
      · exact ⟨(decrementReferenceCount_frame _ i).1, keeps_dropFrameReference s i⟩

theorem releaseDecodeBuffer_frame (s : ReferenceState) (i : Word) :
    (s.releaseDecodeBuffer i).contexts = s.contexts ∧ ∀ j, (s.bufferState j).present = true →
      ((s.releaseDecodeBuffer i).bufferState j).present = true ∨ (s.releaseDecodeBuffer i).owners j = 0 := by
  have hkeeps := keeps_decrementReferenceCount
    { s with others := Function.update s.others i (s.others i - 1) } i
  unfold releaseDecodeBuffer
  split
  · exact ⟨(decrementReferenceCount_frame _ i).1, fun j => (hkeeps j).1⟩
  · exact ⟨rfl, fun _ => .inl⟩

theorem Referenced.releaseDecodeContext {k : ℕ} {c : DecodeContext} (h : Referenced limits s)
    (hc : s.contexts[k]? = some c) :
    Referenced limits (s.releaseDecodeContext k c) ∧
      ∀ i, (s.releaseDecodeContext k c).owners i + c.taken.count i = s.owners i := by
  have hmem : c ∈ s.contexts := List.mem_of_getElem? hc
  have hpending : Held limits (c.taken ++ []) { s with contexts := s.contexts.eraseIdx k } := by
    apply h.held.recontext
    intro i
    rw [holds_eraseIdx hc i, List.append_nil, List.count_nil]
    omega
  obtain ⟨hheld, howners⟩ := hpending.dropAll
  unfold ReferenceState.releaseDecodeContext
  rw [(h.settled c hmem).applied]
  refine ⟨⟨hheld, ?_⟩, howners⟩
  intro c' hc'
  rw [foldl_contexts fun s i => (decrementReferenceCount_frame s i).1] at hc'
  exact h.settled c' (List.mem_of_mem_eraseIdx hc')

theorem Held.releaseReferenceFrame (d : Word) (h : Held limits [] s) :
    Held limits [] (s.releaseReferenceFrame limits d) := by
  unfold ReferenceState.releaseReferenceFrame
  split
  · generalize List.range limits.decodeBufferCount = indices
    induction indices generalizing s with
    | nil => exact h
    | cons i rest ih => exact ih h.dropFrameReferences
  · split
    · exact h
    next i hi =>
      split
      next => exact h
      next hcount => exact h.dropFrameReference hcount

theorem Held.releaseDecodeBuffer (h : Held limits [] s)
    (hothers : s.others i > (if s.currentDecodeBufferIndex = i then 1 else 0)) :
    Held limits [] (s.releaseDecodeBuffer i) := by
  have hcurrent : s.currentDecodeBufferIndex ≠ invalidIndex →
      0 < Function.update s.others i (s.others i - 1) s.currentDecodeBufferIndex := by
    intro hvalid
    by_cases hi : s.currentDecodeBufferIndex = i
    · rw [if_pos hi] at hothers
      rw [hi, Function.update_self]
      omega
    · rw [Function.update_of_ne hi]
      exact (h.current hvalid).2
  have hpos : 0 < s.others i := Nat.lt_of_le_of_lt (Nat.zero_le _) hothers
  unfold ReferenceState.releaseDecodeBuffer
  split
  next hpresent =>
    apply Held.drop
    apply h.reowned [i] ?_ ?_ h.live hcurrent
    · intro j
      by_cases hj : j = i
      · subst hj
        rw [Function.update_self, List.count_nil, List.count_singleton_self]
        omega
      · have hne : i ≠ j := fun heq => hj heq.symm
        rw [Function.update_of_ne hj, List.count_nil, List.count_singleton, beq_false_of_ne hne]
        rfl
    · intro j hj
      have hij : i = j := by
        by_contra hne
        simp [hne] at hj
      exact hij ▸ hpresent
  next habsent =>
    apply h.reowned [] ?_ ?_ ?_ hcurrent
    · intro j
      have howned := h.owned i
      by_cases hj : j = i
      · subst hj
        simp only [Function.update_self]
        omega
      · simp only [Function.update_of_ne hj]
    · intro j hj
      cases hj
    · intro j hpresent
      have hne : j ≠ i := fun heq => habsent (heq ▸ hpresent)
      rw [Function.update_of_ne hne]
      exact h.live j hpresent

theorem Held.addReference (h : Held limits [] s) (hlive : s.owners i ≠ 0) :
    Held limits [] { s.takeReference i with others := Function.update s.others i (s.others i + 1) } := by
  apply h.reowned []
  · intro j
    by_cases hj : j = i
    · subst hj
      simp only [takeReference, Function.update_self]
      omega
    · simp only [takeReference, Function.update_of_ne hj]
  · intro j hj
    cases hj
  · intro j hpresent
    have hold := h.live j hpresent
    by_cases hj : j = i
    · subst hj
      simp [takeReference]
    · simpa [takeReference, Function.update_of_ne hj] using hold
  · intro hvalid
    have hold := (h.current hvalid).2
    by_cases hj : s.currentDecodeBufferIndex = i
    · rw [hj, Function.update_self]
      omega
    · rwa [Function.update_of_ne hj]

theorem Held.getMarkerBuffer (h : Held limits [] s) (hzero : s.owners i = 0) :
    Held limits [] { s with
      owners := Function.update s.owners i 1
      others := Function.update s.others i 1 } := by
  have howned := h.owned i
  have hne : ∀ {j}, (s.bufferState j).present = true → j ≠ i := by
    rintro j hpresent rfl
    exact absurd hpresent (by simp [h.not_present hzero])
  apply h.reowned []
  · intro j
    by_cases hj : j = i
    · subst hj
      simp only [Function.update_self]
      omega
    · simp only [Function.update_of_ne hj]
  · intro j hj
    cases hj
  · intro j hpresent
    rw [Function.update_of_ne (hne hpresent)]
    exact h.live j hpresent
  · intro hvalid
    obtain ⟨hpresent, hpos⟩ := h.current hvalid
    rwa [Function.update_of_ne (hne hpresent)]

theorem Referenced.translateReferenceFrameLists {k : ℕ} {lists : List (List Word)}
    (firstSlice referenceFrame : Bool) (h : Referenced limits s) (hk : s.contexts[k]? = some .fresh)
    (hcurrent : s.currentDecodeBufferIndex ≠ invalidIndex)
    (hmeant : s.HasFree → EndsInvalid lists.flatten) :
    Referenced limits (s.translateReferenceFrameLists limits k lists firstSlice referenceFrame) ∧
      Keeps s (s.translateReferenceFrameLists limits k lists firstSlice referenceFrame) := by
  have hpresent := (h.held.current hcurrent).1
  unfold ReferenceState.translateReferenceFrameLists
  generalize hheld : (if firstSlice && referenceFrame then s.takeFrameReference s.currentDecodeBufferIndex
    else s) = held
  -- The frame's hold on itself changes neither the map nor the contexts.
  have hself : Held limits [] held ∧ held.contexts = s.contexts ∧
      held.currentDecodeBufferIndex = s.currentDecodeBufferIndex ∧
      held.indexBufferMap = s.indexBufferMap ∧ Keeps s held := by
    rw [← hheld]
    split
    · refine ⟨h.held.takeFrameReference hpresent, rfl, rfl, rfl, ?_⟩
      exact (keeps_takeReference (h.held.live _ hpresent).ne').trans (keeps_setReferenceFrameCount _ _ _)
    · exact ⟨h.held, rfl, rfl, rfl, Keeps.refl s⟩
  obtain ⟨hheld', hcontexts, hsame, hmap, hkeeps⟩ := hself
  obtain ⟨left, hflat, htranslates⟩ := hheld'.translateLists lists (hsame ▸ hcurrent)
  have hframe := htranslates.frame
  have htaken := htranslates.held
  have happlied := htranslates.applied fun hfree => hmeant (by rwa [HasFree, ← hmap])
  simp only
  generalize held.translateLists limits lists = translation at *
  have htcontexts : translation.1.contexts = s.contexts := by
    rw [hframe]
    exact hcontexts
  refine ⟨⟨?_, ?_⟩, hkeeps.trans htranslates.keeps⟩
  · apply htaken.recontext
    intro i
    have hset := holds_set ⟨s.currentDecodeBufferIndex, false, translation.2.1, translation.2.2⟩ hk i
    rw [htcontexts, List.append_nil, List.count_nil]
    exact hset
  · intro c hc
    simp only [htcontexts] at hc
    rcases List.mem_or_eq_of_mem_set hc with hold | rfl
    · exact h.settled c hold
    · constructor
      case applied =>
        change translation.2.1.flatten.filter (· ≠ invalidIndex) = translation.2.2
        rw [hflat]
        exact happlied
      case within => exact htranslates.within
      case bufferIndex => exact fun _ => h.held.pool _ hpresent
      case launched => exact fun hlaunched => by cases hlaunched

theorem Held.keeps_getDecodeBuffer (h : Held limits [] s) (hzero : s.owners i = 0) (j : Word)
    (hpresent : (s.bufferState j).present = true) :
    ((s.getDecodeBuffer d i).bufferState j).present = true := by
  have hne : j ≠ i := by
    rintro rfl
    exact absurd hpresent (by simp [h.not_present hzero])
  unfold ReferenceState.getDecodeBuffer
  simp only [mapBufferToDecodeIndex]
  split
  next => exact hpresent
  next t ht =>
    rw [Option.map_eq_some_iff] at ht
    obtain ⟨entries, -, rfl⟩ := ht
    simpa [Function.update_of_ne hne] using hpresent

variable {label : Label} {t : ReferenceState}

/-- A step keeps the holds balanced, and the codec loses a buffer only with its last reference. -/
theorem referenced_step (h : Referenced limits s)
    (hlabel : ReferencesMeant s label) (hstep : s.step limits label = some t) :
    Referenced limits t ∧
      ∀ i, (s.bufferState i).present = true → (t.bufferState i).present = true ∨ t.owners i = 0 := by
  cases label with
  | getDecodeContext =>
    cases hstep
    refine ⟨⟨h.held.recontext fun i => ?_, ?_⟩, fun _ => .inl⟩
    · simp [DecodeContext.fresh]
    · intro c hc
      rcases List.mem_append.mp hc with hold | hnew
      · exact h.settled c hold
      · rw [List.mem_singleton.mp hnew]
        exact settled_fresh
  | getDecodeBuffer d i =>
    rw [step, Option.ite_none_right_eq_some] at hstep
    obtain ⟨⟨hzero, hpool, -⟩, heq⟩ := hstep
    cases heq
    refine ⟨⟨h.held.getDecodeBuffer hzero hpool hlabel.1 hlabel.2, ?_⟩,
      fun j hj => .inl (h.held.keeps_getDecodeBuffer hzero j hj)⟩
    have hcontexts : (s.getDecodeBuffer d i).contexts = s.contexts := by
      unfold ReferenceState.getDecodeBuffer
      simp only [mapBufferToDecodeIndex]
      split
      next => rfl
      next t ht =>
        rw [Option.map_eq_some_iff] at ht
        obtain ⟨entries, -, rfl⟩ := ht
        rfl
    rw [hcontexts]
    exact h.settled
  | mapSecondField d =>
    rw [step, Option.ite_none_left_eq_some] at hstep
    obtain ⟨hcurrent, heq⟩ := hstep
    cases heq
    have hframe : (s.mapSecondField d).contexts = s.contexts ∧
        (s.mapSecondField d).bufferState = s.bufferState := by
      unfold ReferenceState.mapSecondField
      simp only [mapBufferToDecodeIndex]
      cases mapEntry d s.currentDecodeBufferIndex s.indexBufferMap with
      | none => exact ⟨rfl, rfl⟩
      | some entries => exact ⟨rfl, rfl⟩
    refine ⟨⟨h.held.mapSecondField hlabel hcurrent, ?_⟩, fun i hi => .inl ?_⟩
    · rw [hframe.1]
      exact h.settled
    · rw [hframe.2]
      exact hi
  | translateReferenceFrameLists k lists firstSlice referenceFrame =>
    rw [step, Option.ite_none_right_eq_some] at hstep
    obtain ⟨⟨hk, hcurrent⟩, heq⟩ := hstep
    cases heq
    obtain ⟨hnext, hkeeps⟩ :=
      h.translateReferenceFrameLists firstSlice referenceFrame hk hcurrent hlabel
    exact ⟨hnext, fun i => (hkeeps i).1⟩
  | launch k =>
    rw [step] at hstep
    split at hstep
    next => cases hstep
    next c hc =>
      rw [Option.ite_none_left_eq_some] at hstep
      obtain ⟨hvalid, heq⟩ := hstep
      cases heq
      refine ⟨⟨h.held.recontext fun i => ?_, ?_⟩, fun _ => .inl⟩
      · have hset := holds_set { c with decodeInProgress := true } hc i
        simp only at hset
        omega
      · intro c' hc'
        rcases List.mem_or_eq_of_mem_set hc' with hold | rfl
        · exact h.settled c' hold
        · have hsettled := h.settled c (List.mem_of_getElem? hc)
          exact ⟨hsettled.applied, hsettled.within, hsettled.bufferIndex, fun _ => hvalid⟩
  | forgetDecodeBuffer =>
    cases hstep
    have hheld := h.held
    exact ⟨⟨⟨hheld.owned, hheld.counted, hheld.live, hheld.pool, hheld.mapped, hheld.free,
      fun hvalid => absurd rfl hvalid⟩, h.settled⟩, fun _ => .inl⟩
  | releaseDecodeContext k =>
    rw [step] at hstep
    split at hstep
    next => cases hstep
    next c hc =>
      cases hstep
      refine ⟨(h.releaseDecodeContext hc).1, fun i => ?_⟩
      have hkeeps := keeps_foldl keeps_decrementReferenceCount c.applied
        { s with contexts := s.contexts.eraseIdx k } i
      exact hkeeps.1
  | releaseReferenceFrame d =>
    cases hstep
    have hframe := s.releaseReferenceFrame_frame limits d
    refine ⟨⟨h.held.releaseReferenceFrame d, ?_⟩, fun i => (hframe.2 i).1⟩
    rw [hframe.1]
    exact h.settled
  | releaseDecodeBuffer i =>
    rw [step, Option.ite_none_right_eq_some] at hstep
    obtain ⟨hothers, heq⟩ := hstep
    cases heq
    have hframe := s.releaseDecodeBuffer_frame i
    refine ⟨⟨h.held.releaseDecodeBuffer hothers, ?_⟩, hframe.2⟩
    rw [hframe.1]
    exact h.settled
  | addReference i =>
    rw [step, Option.ite_none_left_eq_some] at hstep
    obtain ⟨howners, heq⟩ := hstep
    cases heq
    exact ⟨⟨h.held.addReference howners, h.settled⟩, fun _ => .inl⟩
  | getMarkerBuffer i =>
    rw [step, Option.ite_none_right_eq_some] at hstep
    obtain ⟨⟨hzero, hpool⟩, heq⟩ := hstep
    cases heq
    exact ⟨⟨h.held.getMarkerBuffer hzero, h.settled⟩, fun _ => .inl⟩

theorem start_referenced (limits : BufferLimits) : Referenced limits (start limits) where
  held := by
    constructor
    case owned => exact fun _ => rfl
    case counted => exact fun _ hpos => absurd hpos (lt_irrefl 0)
    case live => exact fun _ hpresent => by cases hpresent
    case pool => exact fun _ hpresent => by cases hpresent
    case mapped =>
      intro i hi
      refine iff_of_false ?_ Bool.false_ne_true
      rintro ⟨e, hmem, he⟩
      rw [List.eq_of_mem_replicate hmem] at he
      exact hi he.symm
    case free =>
      intro e hmem
      rw [List.eq_of_mem_replicate hmem]
      exact iff_of_true rfl rfl
    case current => exact fun hvalid => absurd rfl hvalid
  settled _ hc := (List.not_mem_nil hc).elim

/-- Every reference on a buffer has a holder; `ReleaseDecodeContext` applies to buffers exactly the
references taken for the context, and these are below the bound; and no decode index leads to a buffer
that is free. -/
structure Balanced (limits : BufferLimits) (s : ReferenceState) : Prop where
  owned : ∀ i, s.owners i = s.others i + (s.bufferState i).referenceFrameCount + holds s.contexts i
  applied : ∀ c ∈ s.contexts, c.applied = c.taken
  within : ∀ c ∈ s.contexts, ∀ i ∈ c.applied, i.toNat < limits.maxDecodeBuffers
  bufferIndex : ∀ c ∈ s.contexts, c.decodeInProgress = true →
    c.bufferIndex.toNat < limits.maxDecodeBuffers
  live : ∀ d i, s.translateDecodeIndex d = some i → i ≠ invalidIndex → 0 < s.owners i

theorem Referenced.balanced (h : Referenced limits s) : Balanced limits s where
  owned := h.held.owned
  applied c hc := (h.settled c hc).applied
  within c hc i hi := by
    have hsettled := h.settled c hc
    exact (hsettled.within i (hsettled.applied ▸ hi)).2
  bufferIndex c hc hlaunched := by
    have hsettled := h.settled c hc
    exact (hsettled.bufferIndex (hsettled.launched hlaunched)).2
  live d i hlookup hi := by
    unfold translateDecodeIndex at hlookup
    rw [Option.map_eq_some_iff] at hlookup
    obtain ⟨e, hfind, rfl⟩ := hlookup
    exact h.held.live _ ((h.held.mapped _ hi).mp ⟨e, List.mem_of_find?_eq_some hfind, rfl⟩)

/-- In a call a buffer leaves the map exactly when its last reference is dropped, and the release of a
context drops what was taken for it, each once. -/
structure Drops (s : ReferenceState) (label : Label) (t : ReferenceState) : Prop where
  unmapped : ∀ i, i ≠ invalidIndex → s.Mapped i → (¬ t.Mapped i ↔ t.owners i = 0)
  released : ∀ k c, label = .releaseDecodeContext k → s.contexts[k]? = some c →
    ∀ i, t.owners i + c.taken.count i = s.owners i

theorem Referenced.drops (h : Referenced limits s)
    (hlabel : ReferencesMeant s label) (hstep : s.step limits label = some t) : Drops s label t where
  unmapped i hi hmapped := by
    obtain ⟨hnext, hkept⟩ := referenced_step h hlabel hstep
    have hpresent := (h.held.mapped i hi).mp hmapped
    rw [hnext.held.mapped i hi]
    constructor
    · exact (hkept i hpresent).resolve_left
    · intro hzero hstill
      exact absurd (hnext.held.live i hstill) (Nat.not_lt.mpr (Nat.le_of_eq hzero))
  released k c hk hc i := by
    subst hk
    rw [step, hc] at hstep
    cases hstep
    exact (h.releaseDecodeContext hc).2 i

/-- **Balanced holds**: in every run in which `INVALID_INDEX` only ends the reference frame lists, and
the map is not full when a buffer is obtained, every reference has a holder, those taken for a decode
context are dropped once, by its release, and a buffer is in the map until its last reference is dropped. -/
theorem run_balanced (limits : BufferLimits) {labels : List Label} {s : ReferenceState}
    (hlabels : Lts.Along (step limits) ReferencesMeant (start limits) labels)
    (h : Lts.run (step limits) (start limits) labels = some s) :
    Balanced limits s ∧ ∀ label t, ReferencesMeant s label → s.step limits label = some t →
      Drops s label t := by
  have hreferenced : Referenced limits s :=
    Lts.run_invariant_along (I := Referenced limits)
      (fun _ _ _ ht hlabel hstep => (referenced_step ht hlabel hstep).1)
      (start_referenced limits) hlabels h
  exact ⟨hreferenced.balanced, fun _ _ hlabel hstep => hreferenced.drops hlabel hstep⟩

/-- Two buffers. -/
def twoBuffers : BufferLimits := ⟨32, 2, 2, .inr rfl⟩

/-- A reference frame, and a frame that refers to it and to one that is not known. -/
def knownAndUnknown : List Label :=
  [.getDecodeContext, .getDecodeBuffer 0 0, .translateReferenceFrameLists 0 [] true true, .launch 0,
    .forgetDecodeBuffer, .getDecodeContext, .getDecodeBuffer 1 1,
    .translateReferenceFrameLists 1 [[0, 7]] true false, .releaseDecodeContext 0]

/-- `run_balanced` over a frame with references. -/
theorem run_balanced_knownAndUnknown : ∃ s,
    Lts.run (step twoBuffers) (start twoBuffers) knownAndUnknown = some s ∧
      s.owners 0 = 3 ∧ Balanced twoBuffers s := by
  have hlabels : Lts.Along (step twoBuffers) ReferencesMeant (start twoBuffers) knownAndUnknown := by
    decide +kernel
  exact ⟨_, rfl, rfl, (run_balanced twoBuffers hlabels rfl).1⟩

/-- A frame whose list has an entry after `INVALID_INDEX`. -/
def entryAfterInvalid : List Label :=
  [.getDecodeContext, .getDecodeBuffer 0 0,
    .translateReferenceFrameLists 0 [[invalidIndex, 40]] true false]

/-- What follows an entry that is not translated is taken for a buffer. -/
theorem not_run_balanced_entryAfterInvalid :
    ¬ ∀ (limits : BufferLimits) (labels : List Label) (s : ReferenceState),
      Lts.run (step limits) (start limits) labels = some s → Balanced limits s := by
  intro hall
  have hbalanced := hall twoBuffers entryAfterInvalid _ rfl
  have hwithin := hbalanced.within _ List.mem_cons_self 40 (by decide +kernel)
  exact absurd hwithin (by decide)

end

end ReferenceState

end Player2.Codec

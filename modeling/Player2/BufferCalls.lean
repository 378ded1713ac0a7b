import Player2.BufferPool

/-! # What the calls on buffers do

One inversion lemma per call: what must have held before it, and the system after it.  Every
invariant of the pools is proved from these, without looking at the calls again. -/

namespace Player2

/-! ### The parameter check of `GetBuffer` -/

variable {d : BufferDataDescriptor}

theorem BufferPool.checkMemoryParameters_error {n size : ℕ}
    {ar mp am pn : Bool} {e : BufferStatus} (h : checkMemoryParameters d n ar size mp am pn = .error e) :
    e = .error := by
  unfold checkMemoryParameters at h
  grind

/-- With the pool's address array as memory pool only a supplied block passes the check, and
the size is the fixed one when there is one. -/
theorem BufferPool.checkMemoryParameters_getBuffer {n size itemSize : ℕ}
    (h : checkMemoryParameters d n false size true false false = .ok itemSize) :
    d.allocationSource = .allocateFromSuppliedBlock ∧
      itemSize = if d.hasFixedSize then d.fixedSize else size := by
  unfold checkMemoryParameters at h
  cases hs : d.allocationSource <;> cases hf : d.hasFixedSize <;> simp [hs, hf] at h ⊢
  · split_ifs at h
    exact (Except.ok.inj h).symm
  · split_ifs at h
    exact (Except.ok.inj h).symm

namespace System
variable {s s' : System} {b : ℕ} {st : BufferStatus}

/-! ### References -/

variable {owner c n p leave : ℕ}

theorem incrementReferenceCount_some (h : s.incrementReferenceCount b owner = some (st, s')) :
    (s.buffers b).referenceCount ≠ 0 ∧ ∃ owners, s' =
      (s.modifyPool (s.buffers b).pool fun pool =>
        { pool with referenceCount := u32 (pool.referenceCount + 1) }).modifyBuffer b fun buf =>
        { buf with referenceCount := u32 (buf.referenceCount + 1), ownerIdentifier := owners } := by
  unfold incrementReferenceCount at h
  dsimp only at h
  split at h
  · cases h
  · rename_i hb
    obtain ⟨-, rfl⟩ := Prod.mk.inj (Option.some.inj h)
    exact ⟨hb, _, rfl⟩

/-- The system with one reference on `b` less. -/
def dropReference (s : System) (b : ℕ) (owners : List ℕ) : System :=
  (s.modifyPool (s.buffers b).pool fun pool =>
    { pool with referenceCount := sub32 pool.referenceCount 1 }).modifyBuffer b fun buf =>
    { buf with referenceCount := buf.referenceCount - 1, ownerIdentifier := owners }

theorem decrementReferenceCount_some (h : s.decrementReferenceCount b owner = some (st, s')) :
    (s.buffers b).referenceCount ≠ 0 ∧ ∃ owners,
      ((s.buffers b).referenceCount = 1 ∧
        s' = { s.dropReference b owners with releasing := ⟨b, 0⟩ :: s.releasing }) ∨
      (1 < (s.buffers b).referenceCount ∧ s' = s.dropReference b owners) := by
  unfold decrementReferenceCount at h
  dsimp only at h
  split at h
  · cases h
  · rename_i hb
    split at h
    · obtain ⟨-, rfl⟩ := Prod.mk.inj (Option.some.inj h)
      exact ⟨hb, _, .inl ⟨by omega, rfl⟩⟩
    · obtain ⟨-, rfl⟩ := Prod.mk.inj (Option.some.inj h)
      exact ⟨hb, _, .inr ⟨by omega, rfl⟩⟩

theorem attachBuffer_some (h : s.attachBuffer b c = some (st, s')) :
    (s.buffers b).referenceCount ≠ 0 ∧ (s' = s ∨ ∃ attached,
      (s.modifyBuffer b fun buf => { buf with attachedBuffers := attached }).incrementReferenceCount c
        notSpecified = some (st, s')) := by
  unfold attachBuffer at h
  dsimp only at h
  split at h
  · cases h
  · rename_i hb
    split at h
    · exact ⟨hb, .inl (Prod.mk.inj (Option.some.inj h)).2.symm⟩
    · exact ⟨hb, .inr ⟨_, h⟩⟩

theorem detachBuffer_some (h : s.detachBuffer b c = some (st, s')) :
    (s.buffers b).referenceCount ≠ 0 ∧ (s' = s ∨ ∃ attached,
      (s.modifyBuffer b fun buf => { buf with attachedBuffers := attached }).decrementReferenceCount c
        identifierAttachedToOtherBuffer = some (st, s')) := by
  unfold detachBuffer at h
  dsimp only at h
  split at h
  · cases h
  · rename_i hb
    split at h
    · exact ⟨hb, .inl (Prod.mk.inj (Option.some.inj h)).2.symm⟩
    · exact ⟨hb, .inr ⟨_, h⟩⟩

theorem transferOwnership_some {owner0 owner1 : ℕ}
    (h : s.transferOwnership b owner0 owner1 = some (st, s')) :
    (s.buffers b).referenceCount ≠ 0 ∧
      ∃ owners : Buffer → List ℕ, s' = s.modifyBuffer b fun buf =>
        { buf with ownerIdentifier := owners buf } := by
  unfold transferOwnership at h
  split at h
  · cases h
  · rename_i hb
    obtain ⟨-, rfl⟩ := Prod.mk.inj (Option.some.inj h)
    exact ⟨hb, _, rfl⟩

/-! ### Sizes -/

theorem setUsedDataSize_some (h : s.setUsedDataSize b n = some (st, s')) :
    (s.buffers b).referenceCount ≠ 0 ∧ (s' = s ∨ (n ≤ (s.buffers b).bufferBlock.size ∧
      s' = (s.modifyPool (s.buffers b).pool fun pool => { pool with
        totalUsedMemory := u32 (sub32 pool.totalUsedMemory (s.buffers b).dataSize + n) }).modifyBuffer
        b fun buf => { buf with dataSize := n })) := by
  unfold setUsedDataSize at h
  dsimp only at h
  split at h
  · cases h
  · rename_i hb
    split at h
    · exact ⟨hb, .inl (Prod.mk.inj (Option.some.inj h)).2.symm⟩
    · exact ⟨hb, .inr ⟨by omega, (Prod.mk.inj (Option.some.inj h)).2.symm⟩⟩

theorem registerDataReference_some (h : s.registerDataReference b n = some (st, s')) :
    (s.buffers b).referenceCount ≠ 0 ∧ (s' = s ∨
      ((s.poolOf b).descriptor.allocationSource = .noAllocation ∧ s' = s.modifyBuffer b fun buf =>
        { buf with bufferBlock := { buf.bufferBlock with size := u32 n }, dataSize := 0 })) := by
  unfold registerDataReference at h
  split at h
  · cases h
  · rename_i hb
    split at h
    · exact ⟨hb, .inl (Prod.mk.inj (Option.some.inj h)).2.symm⟩
    · rename_i hs
      exact ⟨hb, .inr ⟨not_not.mp hs, (Prod.mk.inj (Option.some.inj h)).2.symm⟩⟩

/-- The block of buffer `b` replaced, together with the allocator of its pool. -/
def resize (s : System) (b : ℕ) (block : BlockDescriptor) (a : AllocatorSimple) : System :=
  (s.modifyBuffer b fun buf => { buf with bufferBlock := block }).modifyPool (s.buffers b).pool
    fun pool => { pool with memoryPoolAllocator := some a }

theorem replaceBlock_same : (s.replaceBlock b (st, (s.buffers b).bufferBlock, s.poolOf b)).2 = s := by
  simp [replaceBlock, modifyBuffer, modifyPool, poolOf]

/-- `ShrinkBuffer` leaves everything alone, or the block of a supplied-block pool gets the new
size rounded up; what lies beyond goes back when the block got smaller. -/
theorem shrinkBuffer_some (h : s.shrinkBuffer b n = some (st, s')) :
    (s.buffers b).referenceCount ≠ 0 ∧ (s' = s ∨
      ((s.poolOf b).descriptor.allocateOnPoolCreation = false ∧
        (s.poolOf b).descriptor.allocationSource = .allocateFromSuppliedBlock ∧
        (s.buffers b).dataSize ≤ n ∧ n < (s.buffers b).bufferBlock.size ∧
        ∃ m, m = (s.poolOf b).descriptor.roundToUnit n ∧
          ((m < (s.buffers b).bufferBlock.size ∧ ∃ a, (s.poolOf b).memoryPoolAllocator = some a ∧
            s' = s.resize b { (s.buffers b).bufferBlock with size := m }
              (a.free ((s.buffers b).bufferBlock.size - m)
                ((s.buffers b).bufferBlock.poolAllocatedOffset + m)).2) ∨
          ((s.buffers b).bufferBlock.size ≤ m ∧ s' = s.modifyBuffer b fun buf =>
            { buf with bufferBlock := { buf.bufferBlock with size := m } })))) := by
  have same : ∀ st', some (s.replaceBlock b (st', (s.buffers b).bufferBlock, s.poolOf b)) = some (st, s') →
      s' = s := fun st' hr => (congrArg Prod.snd (Option.some.inj hr)).symm.trans replaceBlock_same
  unfold shrinkBuffer BufferPool.shrinkMemoryBlock at h
  dsimp only at h
  split at h
  · cases h
  rename_i hb
  refine ⟨hb, ?_⟩
  split at h
  · exact .inl (Prod.mk.inj (Option.some.inj h)).2.symm
  split at h
  · exact .inl (same _ h)
  rename_i hc
  split at h
  · exact .inl (same _ h)
  split at h
  · exact .inl (same _ h)
  split at h
  · exact .inl (same _ h)
  · rename_i hs
    refine .inr ⟨by simpa using hc, hs, by omega, by omega, _, rfl, ?_⟩
    split at h
    · rename_i hm
      simp only [Option.map_map, Option.map_eq_some_iff] at h
      obtain ⟨a, ha, he⟩ := h
      refine .inl ⟨hm, a, ha, ?_⟩
      exact (congrArg Prod.snd he).symm
    · refine .inr ⟨by omega, (congrArg Prod.snd (Option.some.inj h)).symm.trans ?_⟩
      simp [replaceBlock, modifyBuffer, modifyPool, poolOf]
  · exact .inl (same _ h)

theorem extendBuffer_some {up : Bool} (h : s.extendBuffer b up = some (st, s')) :
    (s.buffers b).referenceCount ≠ 0 ∧ (s' = s ∨
      ((s.poolOf b).descriptor.allocateOnPoolCreation = false ∧
        (s.poolOf b).descriptor.allocationSource = .allocateFromSuppliedBlock ∧
        ∃ a r a', (s.poolOf b).memoryPoolAllocator = some a ∧
          a.extendToLargest (s.buffers b).bufferBlock.span up = .ok (r, a') ∧
          s' = s.resize b ⟨r.size, r.base⟩ a')) := by
  have same : some (s.replaceBlock b (.error, (s.buffers b).bufferBlock, s.poolOf b)) = some (st, s') →
      s' = s := fun hr => (congrArg Prod.snd (Option.some.inj hr)).symm.trans replaceBlock_same
  unfold extendBuffer BufferPool.extendMemoryBlock at h
  dsimp only at h
  split at h
  · cases h
  rename_i hb
  refine ⟨hb, ?_⟩
  split at h
  · exact .inl (same h)
  rename_i hc
  split at h
  · rename_i hs
    simp only [Option.map_map, Option.map_eq_some_iff] at h
    obtain ⟨a, ha, he⟩ := h
    simp only [Function.comp_apply] at he
    cases hx : a.extendToLargest (s.buffers b).bufferBlock.span up with
    | error e => rw [hx] at he; exact .inl (same (congrArg some he))
    | ok p =>
      rw [hx] at he
      exact .inr ⟨by simpa using hc, hs, a, p.1, p.2, ha, hx, (congrArg Prod.snd he).symm⟩
  · exact .inl (same h)

/-! ### `GetBuffer` -/

variable {nb lb : Bool} {env : Environment}

theorem takeRecord_some (h : s.takeRecord p nb env = some (.ok (b, s'))) :
    ((s.pools p).numberOfBuffers = notSpecified ∧ b = s.bufferCount ∧ s' =
      { s.modifyPool p (fun pool => { pool with countOfBuffers := u32 (pool.countOfBuffers + 1) }) with
        buffers := Function.update s.buffers s.bufferCount (.create p)
        bufferCount := s.bufferCount + 1 }) ∨
    ((s.pools p).numberOfBuffers ≠ notSpecified ∧ ∃ rest, (s.pools p).freeBuffer = b :: rest ∧
      s' = s.modifyPool p fun pool => { pool with freeBuffer := rest }) := by
  unfold takeRecord at h
  dsimp only at h
  split at h
  · rename_i hN
    split at h
    · obtain ⟨rfl, rfl⟩ := Prod.mk.inj (Except.ok.inj (Option.some.inj h))
      exact .inl ⟨hN, rfl, rfl⟩
    · cases h
  · rename_i hN
    split at h
    · rename_i b' rest hr
      obtain ⟨rfl, rfl⟩ := Prod.mk.inj (Except.ok.inj (Option.some.inj h))
      exact .inr ⟨hN, rest, hr, rfl⟩
    · split at h <;> cases h

/-- The memory a taken record of a supplied-block pool is given: none for a size of zero, else a
grant of the allocator, or the bare size when the pool has no block. -/
def Obtains (s s' : System) (p b n : ℕ) (lowerBound : Bool) : Prop :=
  (n = 0 ∧ s' = s.modifyBuffer b fun buf =>
    { buf with bufferBlock := { buf.bufferBlock with size := 0 } }) ∨
  (n ≠ 0 ∧ ∃ block alloc, s' = (s.modifyBuffer b fun buf => { buf with bufferBlock := block }).modifyPool p
      (fun pool => { pool with
        totalAllocatedMemory := u32 (pool.totalAllocatedMemory + block.size)
        memoryPoolAllocator := alloc }) ∧
    (((s.pools p).memoryPoolAllocator = none ∧ alloc = none ∧ block = ⟨n, 0⟩) ∨
      ∃ a r a', (s.pools p).memoryPoolAllocator = some a ∧ alloc = some a' ∧
        (if lowerBound then a.allocateLargest ((s.pools p).descriptor.roundToUnit n) = .ok (r, a') ∧
            block = ⟨r.size, r.base⟩
          else a.allocate ((s.pools p).descriptor.roundToUnit n) = .ok (r, a') ∧
            block = ⟨(s.pools p).descriptor.roundToUnit n, r.base⟩)))

/-- In a supplied-block pool a record that has been taken gets its memory, or the call waits. -/
theorem allocateRecord_some
    (hs : (s.pools p).descriptor.allocationSource = .allocateFromSuppliedBlock)
    (h : s.allocateRecord p b n lb env = some (st, s')) :
    st = .noError ∧ s.Obtains s' p b (u32 n) lb := by
  unfold allocateRecord BufferPool.allocateMemoryBlock at h
  simp only [modifyBuffer_pools, modifyBuffer_buffers_self, hs] at h
  generalize u32 n = n at *
  by_cases hn : n = 0
  · subst hn
    obtain ⟨rfl, rfl⟩ := Prod.mk.inj (Option.some.inj h)
    refine ⟨rfl, .inl ⟨rfl, ?_⟩⟩
    simp [modifyBuffer, modifyPool]
  · simp only [if_neg hn] at h
    cases ha : (s.pools p).memoryPoolAllocator with
    | none =>
      simp only [ha] at h
      obtain ⟨rfl, rfl⟩ := Prod.mk.inj (Option.some.inj h)
      refine ⟨rfl, .inr ⟨hn, ⟨n, 0⟩, none, ?_, .inl ⟨ha, rfl, rfl⟩⟩⟩
      simp [modifyBuffer, modifyPool]
    | some a =>
      simp only [ha] at h
      cases lb with
      | true =>
        cases hx : a.allocateLargest ((s.pools p).descriptor.roundToUnit n) with
        | error e => rw [hx] at h; cases h
        | ok r =>
          rw [hx] at h
          obtain ⟨rfl, rfl⟩ := Prod.mk.inj (Option.some.inj h)
          refine ⟨rfl, .inr ⟨hn, ⟨r.1.size, r.1.base⟩, some r.2, ?_,
            .inr ⟨a, r.1, r.2, ha, rfl, by rw [if_pos rfl]; exact ⟨hx, rfl⟩⟩⟩⟩
          simp [modifyBuffer, modifyPool]
      | false =>
        cases hx : a.allocate ((s.pools p).descriptor.roundToUnit n) with
        | error e => rw [hx] at h; cases h
        | ok r =>
          rw [hx] at h
          obtain ⟨rfl, rfl⟩ := Prod.mk.inj (Option.some.inj h)
          refine ⟨rfl, .inr ⟨hn, ⟨(s.pools p).descriptor.roundToUnit n, r.1.base⟩, some r.2, ?_,
            .inr ⟨a, r.1, r.2, ha, rfl, by rw [if_neg Bool.false_ne_true]; exact ⟨hx, rfl⟩⟩⟩⟩
          simp [modifyBuffer, modifyPool]

theorem takeRecord_descriptor (h : s.takeRecord p nb env = some (.ok (b, s'))) :
    (s'.pools p).descriptor = (s.pools p).descriptor := by
  rcases takeRecord_some h with ⟨-, -, rfl⟩ | ⟨-, rest, -, rfl⟩
  · simp [modifyPool]
  · rw [modifyPool_pools_self]

/-- `GetBuffer` fails and changes nothing, or hands out a record that it has taken and given its
memory. -/
theorem getBuffer_some {r : Option ℕ}
    (h : s.getBuffer p owner n nb lb env = some (st, r, s')) :
    (st ≠ .noError ∧ r = none ∧ s' = s) ∨
    (st = .noError ∧ ∃ b t u, r = some b ∧ s.takeRecord p nb env = some (.ok (b, t)) ∧
      (if (s.pools p).descriptor.perBuffer then
          (s.pools p).descriptor.allocationSource = .allocateFromSuppliedBlock ∧
          t.Obtains u p b (u32 (if (s.pools p).descriptor.hasFixedSize then
            (s.pools p).descriptor.fixedSize else n)) lb
        else u = t) ∧
      s' = u.handOut p b owner) := by
  -- a status of `takeRecord` is an error
  have htake : ∀ {e}, s.takeRecord p nb env = some (.error e) → e ≠ .noError := by
    intro e he
    unfold takeRecord at he
    dsimp only at he
    split at he
    · split at he
      · cases he
      · rw [← Except.error.inj (Option.some.inj he)]; decide
    · split at he
      · cases he
      · split at he
        · rw [← Except.error.inj (Option.some.inj he)]; decide
        · cases he
  unfold getBuffer at h
  dsimp only at h
  split at h
  · rename_i hper
    cases hc : BufferPool.checkMemoryParameters (s.pools p).descriptor (s.pools p).numberOfBuffers
      false n true false false with
    | error e =>
      rw [hc] at h
      obtain ⟨rfl, h2⟩ := Prod.mk.inj (Option.some.inj h)
      obtain ⟨rfl, rfl⟩ := Prod.mk.inj h2
      refine .inl ⟨?_, rfl, rfl⟩
      rw [BufferPool.checkMemoryParameters_error hc]
      decide
    | ok itemSize =>
      rw [hc] at h
      obtain ⟨hs, rfl⟩ := BufferPool.checkMemoryParameters_getBuffer hc
      unfold getRecord at h
      cases ht : s.takeRecord p nb env with
      | none => rw [ht] at h; cases h
      | some x =>
        rw [ht] at h
        cases x with
        | error e =>
          obtain ⟨rfl, h2⟩ := Prod.mk.inj (Option.some.inj h)
          obtain ⟨rfl, rfl⟩ := Prod.mk.inj h2
          exact .inl ⟨htake ht, rfl, rfl⟩
        | ok x =>
          obtain ⟨b, t⟩ := x
          dsimp only at h
          split at h
          · cases h
          · rename_i u hu
            obtain ⟨-, ho⟩ := allocateRecord_some (by rw [takeRecord_descriptor ht]; exact hs) hu
            obtain ⟨rfl, h2⟩ := Prod.mk.inj (Option.some.inj h)
            obtain ⟨rfl, rfl⟩ := Prod.mk.inj h2
            exact .inr ⟨rfl, b, t, u, rfl, rfl, by rw [if_pos hper]; exact ⟨hs, ho⟩, rfl⟩
          · rename_i e u hne hu
            obtain ⟨rfl, -⟩ := allocateRecord_some (by rw [takeRecord_descriptor ht]; exact hs) hu
            exact absurd rfl hne
  · rename_i hper
    unfold getRecord at h
    cases ht : s.takeRecord p nb env with
    | none => rw [ht] at h; cases h
    | some x =>
      rw [ht] at h
      cases x with
      | error e =>
        obtain ⟨rfl, h2⟩ := Prod.mk.inj (Option.some.inj h)
        obtain ⟨rfl, rfl⟩ := Prod.mk.inj h2
        exact .inl ⟨htake ht, rfl, rfl⟩
      | ok x =>
        obtain ⟨b, t⟩ := x
        obtain ⟨rfl, h2⟩ := Prod.mk.inj (Option.some.inj h)
        obtain ⟨rfl, rfl⟩ := Prod.mk.inj h2
        exact .inr ⟨rfl, b, t, t, rfl, rfl, by rw [if_neg hper], rfl⟩

theorem partitionBlock_some (h : s.partitionBlock b leave owner nb env = some (st, s')) :
    s' = s ∨ ∃ c t, s.getBuffer (s.buffers b).pool owner 0 nb false env = some (.noError, some c, t) ∧
      s' = t.splitBlock b c leave := by
  unfold partitionBlock at h
  cases hg : s.getBuffer (s.buffers b).pool owner 0 nb false env with
  | none => rw [hg] at h; cases h
  | some x =>
    obtain ⟨e, r, t⟩ := x
    rw [hg] at h
    rcases getBuffer_some hg with ⟨he, rfl, rfl⟩ | ⟨rfl, c, t', u, rfl, -⟩
    · cases e <;> first
        | exact absurd rfl he
        | exact .inl (Prod.mk.inj (Option.some.inj h)).2.symm
    · exact .inr ⟨c, t, rfl, (Prod.mk.inj (Option.some.inj h)).2.symm⟩

theorem partitionBuffer_some (h : s.partitionBuffer b leave owner nb env = some (st, s')) :
    (s.buffers b).referenceCount ≠ 0 ∧ (s' = s ∨ ∃ c t,
      (s.poolOf b).descriptor.allocateOnPoolCreation = false ∧
      ((s.poolOf b).descriptor.allocationSource = .allocateFromSuppliedBlock ∨
        (s.poolOf b).descriptor.allocationSource = .noAllocation) ∧
      s.getBuffer (s.buffers b).pool owner 0 nb false env = some (.noError, some c, t) ∧
      s' = t.splitBlock b c leave) := by
  unfold partitionBuffer at h
  split at h
  · cases h
  rename_i hb
  refine ⟨hb, ?_⟩
  split at h
  · exact .inl (Prod.mk.inj (Option.some.inj h)).2.symm
  rename_i hc
  split at h
  · rename_i hs
    rcases partitionBlock_some h with rfl | ⟨c, t, hg, rfl⟩
    · exact .inl rfl
    · exact .inr ⟨c, t, by simpa using hc, .inl hs, hg, rfl⟩
  · rename_i hs
    rcases partitionBlock_some h with rfl | ⟨c, t, hg, rfl⟩
    · exact .inl rfl
    · exact .inr ⟨c, t, by simpa using hc, .inr hs, hg, rfl⟩
  · exact .inl (Prod.mk.inj (Option.some.inj h)).2.symm

/-! ### `ReleaseBuffer` -/

/-- The pool after the memory of buffer `b` has gone back. -/
def releasedPool (s : System) (b : ℕ) : BufferPool :=
  if (s.poolOf b).descriptor.perBuffer then
    ((s.poolOf b).deAllocateMemoryBlock (s.buffers b).bufferBlock).2
  else s.poolOf b

theorem deAllocateMemoryBlock_block (pool : BufferPool) (block : BlockDescriptor) :
    (pool.deAllocateMemoryBlock block).1 = { block with size := 0 } := by
  unfold BufferPool.deAllocateMemoryBlock
  split
  · rename_i h; rw [← h]
  · rfl

theorem releasedPool_eq (s : System) (b : ℕ) : s.releasedPool b = { s.poolOf b with
    totalAllocatedMemory := (s.releasedPool b).totalAllocatedMemory
    memoryPoolAllocator := (s.releasedPool b).memoryPoolAllocator } := by
  unfold releasedPool BufferPool.deAllocateMemoryBlock
  split_ifs <;> rfl

/-- What the end of `ReleaseBuffer` does to a record that its pool knows. -/
structure Finishes (s s' : System) (b : ℕ) : Prop where
  poolCount : s'.poolCount = s.poolCount
  bufferCount : s'.bufferCount = s.bufferCount
  releasing : s'.releasing = s.releasing
  buffers : ∀ c, c ≠ b → s'.buffers c = s.buffers c
  pools : ∀ q, q ≠ (s.buffers b).pool → s'.pools q = s.pools q
  buffer : s'.buffers b = { s.buffers b with
    listed := decide ((s.poolOf b).numberOfBuffers ≠ notSpecified)
    bufferBlock := if (s.poolOf b).descriptor.perBuffer then { (s.buffers b).bufferBlock with size := 0 }
      else (s.buffers b).bufferBlock
    dataSize := 0 }
  pool : ∃ count, s'.pools (s.buffers b).pool = { s.poolOf b with
    countOfBuffers := count
    countOfReferencedBuffers := sub32 (s.poolOf b).countOfReferencedBuffers 1
    totalAllocatedMemory := (s.releasedPool b).totalAllocatedMemory
    totalUsedMemory := sub32 (s.poolOf b).totalUsedMemory (s.buffers b).dataSize
    freeBuffer := if (s.poolOf b).numberOfBuffers = notSpecified ∨
        (s.poolOf b).freeBuffer.length = (s.poolOf b).numberOfBuffers then (s.poolOf b).freeBuffer
      else (s.poolOf b).freeBuffer ++ [b]
    memoryPoolAllocator := (s.releasedPool b).memoryPoolAllocator }

theorem finishRelease_finishes (hl : (s.buffers b).listed = true) :
    Finishes s (s.finishRelease b).2 b := by
  have hblock : (if (s.poolOf b).descriptor.perBuffer = true then
        (s.poolOf b).deAllocateMemoryBlock (s.buffers b).bufferBlock
      else ((s.buffers b).bufferBlock, s.poolOf b)) =
      ((if (s.poolOf b).descriptor.perBuffer then { (s.buffers b).bufferBlock with size := 0 }
        else (s.buffers b).bufferBlock), s.releasedPool b) := by
    unfold releasedPool
    split
    · rw [← deAllocateMemoryBlock_block]
    · rfl
  unfold finishRelease
  dsimp only
  rw [hblock]
  have hrel := releasedPool_eq s b
  obtain ⟨pool, hpool⟩ : ∃ pool, s.releasedPool b = pool := ⟨_, rfl⟩
  rw [hrel]
  by_cases hN : (s.poolOf b).numberOfBuffers = notSpecified
  · rw [if_neg (not_not.mpr hN), if_pos hl]
    refine ⟨rfl, rfl, rfl, ?_, ?_, ?_, ?_⟩
    · intro c hc; simp [hc]
    · intro q hq; simp [hq]
    · simp [hN]
    · exact ⟨sub32 (s.poolOf b).countOfBuffers 1, by simp [hN, hpool]⟩
  · rw [if_pos hN]
    refine ⟨rfl, rfl, rfl, ?_, ?_, ?_, ?_⟩
    · intro c hc; simp [hc]
    · intro q hq; simp [hq]
    · simp [hN, hl]
    · refine ⟨(s.poolOf b).countOfBuffers, ?_⟩
      simp only [modifyPool_pools_self, BufferPool.insertFreeBuffer]
      by_cases hlen : (s.poolOf b).freeBuffer.length = (s.poolOf b).numberOfBuffers
      · simp [hlen, hpool]
      · simp [hlen, hN, hpool]

end System
end Player2

import Player2.BufferMemory

/-! # Runs of a supplied-block pool

The kind of a pool never changes (`SamePools`), so what holds of the memory of a supplied-block
pool when it is created holds after every run whose calls meet the conditions of `SizeSafe` and
`SlotSafe`: blocks and free records partition the memory (`run_memoryPartition`). -/

namespace Player2

open Tiling AllocatorSimple

namespace System

/-! ### What never changes about a pool -/

/-- The pools are the same and of the same kind. -/
structure SamePools (s s' : System) : Prop where
  poolCount : s'.poolCount = s.poolCount
  pools : ∀ p, (s'.pools p).descriptor = (s.pools p).descriptor ∧ (s'.pools p).size = (s.pools p).size ∧
    (s'.pools p).numberOfBuffers = (s.pools p).numberOfBuffers ∧
    (s'.pools p).memoryPoolAllocator.isSome = (s.pools p).memoryPoolAllocator.isSome

namespace SamePools

theorem refl (s : System) : SamePools s s := ⟨rfl, fun _ => ⟨rfl, rfl, rfl, rfl⟩⟩

theorem trans {s t u : System} (h : SamePools s t) (h' : SamePools t u) : SamePools s u := by
  refine ⟨h'.poolCount.trans h.poolCount, fun p => ?_⟩
  obtain ⟨a1, a2, a3, a4⟩ := h.pools p
  obtain ⟨b1, b2, b3, b4⟩ := h'.pools p
  exact ⟨b1.trans a1, b2.trans a2, b3.trans a3, b4.trans a4⟩

theorem modifyBuffer (s : System) (b : ℕ) (f : Buffer → Buffer) : SamePools s (s.modifyBuffer b f) :=
  ⟨rfl, fun _ => ⟨rfl, rfl, rfl, rfl⟩⟩

theorem modifyPool (s : System) (q : ℕ) (f : BufferPool → BufferPool)
    (hf : (f (s.pools q)).descriptor = (s.pools q).descriptor ∧ (f (s.pools q)).size = (s.pools q).size ∧
      (f (s.pools q)).numberOfBuffers = (s.pools q).numberOfBuffers ∧
      (f (s.pools q)).memoryPoolAllocator.isSome = (s.pools q).memoryPoolAllocator.isSome) :
    SamePools s (s.modifyPool q f) := by
  refine ⟨rfl, fun p => ?_⟩
  by_cases hp : p = q
  · subst hp; simpa using hf
  · simp [hp]

theorem supplied {s s' : System} (h : SamePools s s') (p : ℕ) :
    (s'.pools p).Supplied ↔ (s.pools p).Supplied := by
  obtain ⟨e1, -, -, e3⟩ := h.pools p
  unfold BufferPool.Supplied
  rw [e1, e3]

end SamePools

section
variable {s s' : System} {b : ℕ} {st : BufferStatus}

variable {q n owner : ℕ}

theorem Obtains.samePools {lb : Bool} (h : s.Obtains s' q b n lb) : SamePools s s' := by
  rcases h with ⟨-, rfl⟩ | ⟨-, block, alloc, rfl, hcase⟩
  · exact .modifyBuffer ..
  · refine (SamePools.modifyBuffer s b _).trans (.modifyPool _ _ _ ⟨rfl, rfl, rfl, ?_⟩)
    rcases hcase with ⟨hnone, rfl, -⟩ | ⟨a, r, a', ha, rfl, -⟩
    · show none.isSome = (s.pools q).memoryPoolAllocator.isSome
      rw [hnone]
    · show (some a').isSome = (s.pools q).memoryPoolAllocator.isSome
      rw [ha]
      rfl

theorem getBuffer_samePools {nb lb : Bool} {env : Environment} {r : Option ℕ}
    (hg : s.getBuffer q owner n nb lb env = some (st, r, s')) : SamePools s s' := by
  rcases getBuffer_some hg with ⟨-, -, rfl⟩ | ⟨-, c, t, u, -, ht, hu, rfl⟩
  · exact .refl s'
  have h1 : SamePools s t := by
    rcases takeRecord_some ht with ⟨-, -, rfl⟩ | ⟨-, rest, -, rfl⟩
    · have := SamePools.modifyPool s q (fun pool => { pool with countOfBuffers := u32 (pool.countOfBuffers + 1) })
        ⟨rfl, rfl, rfl, rfl⟩
      exact ⟨this.poolCount, this.pools⟩
    · exact .modifyPool _ _ _ ⟨rfl, rfl, rfl, rfl⟩
  have h2 : SamePools t u := by
    split at hu
    · exact hu.2.samePools
    · exact hu ▸ .refl t
  exact (h1.trans h2).trans ((SamePools.modifyBuffer ..).trans (.modifyPool _ _ _ ⟨rfl, rfl, rfl, rfl⟩))

theorem resize_samePools {block : BlockDescriptor} {a : AllocatorSimple}
    (h : (s.poolOf b).memoryPoolAllocator.isSome = true) : SamePools s (s.resize b block a) :=
  (SamePools.modifyBuffer ..).trans (.modifyPool _ _ _ ⟨rfl, rfl, rfl, h.symm⟩)

theorem incrementReferenceCount_samePools
    (he : s.incrementReferenceCount b owner = some (st, s')) : SamePools s s' := by
  obtain ⟨-, owners, rfl⟩ := incrementReferenceCount_some he
  exact (SamePools.modifyPool _ _ _ ⟨rfl, rfl, rfl, rfl⟩).trans (.modifyBuffer ..)

theorem decrementReferenceCount_samePools
    (he : s.decrementReferenceCount b owner = some (st, s')) : SamePools s s' := by
  obtain ⟨-, owners, hcase⟩ := decrementReferenceCount_some he
  have h1 : SamePools s (s.dropReference b owners) :=
    (SamePools.modifyPool _ _ _ ⟨rfl, rfl, rfl, rfl⟩).trans (.modifyBuffer ..)
  rcases hcase with ⟨-, rfl⟩ | ⟨-, rfl⟩
  · exact ⟨h1.poolCount, h1.pools⟩
  · exact h1

/-- Every call except the creation of a pool leaves the pools as they are. -/
theorem perform_samePools {c : Call} (hnew : ∀ q m, c ≠ .createPool q m)
    (he : s.perform c = some (st, s')) : SamePools s s' := by
  cases c with
  | createPool q m => exact absurd rfl (hnew q m)
  | getBuffer p owner n nb lb env =>
    simp only [System.perform] at he
    split_ifs at he with hp
    obtain ⟨r, hr, e⟩ := Option.map_eq_some_iff.mp he
    rw [← (Prod.mk.inj e).2]
    exact getBuffer_samePools hr
  | setUsedDataSize b n =>
    obtain ⟨-, rfl | ⟨-, rfl⟩⟩ := setUsedDataSize_some he
    · exact .refl s'
    · exact (SamePools.modifyPool _ _ _ ⟨rfl, rfl, rfl, rfl⟩).trans (.modifyBuffer ..)
  | shrinkBuffer b n =>
    obtain ⟨-, rfl | ⟨-, -, -, -, m, -, ⟨-, a, ha, rfl⟩ | ⟨-, rfl⟩⟩⟩ := shrinkBuffer_some he
    · exact .refl s'
    · exact resize_samePools (by rw [ha]; rfl)
    · exact .modifyBuffer ..
  | extendBuffer b up =>
    obtain ⟨-, rfl | ⟨-, -, a, r, a', ha, -, rfl⟩⟩ := extendBuffer_some he
    · exact .refl s'
    · exact resize_samePools (by rw [ha]; rfl)
  | partitionBuffer b leave owner nb env =>
    obtain ⟨-, rfl | ⟨c, t, -, -, hg, rfl⟩⟩ := partitionBuffer_some he
    · exact .refl s'
    · have hsplit : SamePools t (t.splitBlock b c leave) := ⟨rfl, fun _ => ⟨rfl, rfl, rfl, rfl⟩⟩
      exact (getBuffer_samePools hg).trans hsplit
  | registerDataReference b n =>
    obtain ⟨-, rfl | ⟨-, rfl⟩⟩ := registerDataReference_some he
    · exact .refl s'
    · exact .modifyBuffer ..
  | transferOwnership b owner0 owner1 =>
    obtain ⟨-, owners, rfl⟩ := transferOwnership_some he
    exact .modifyBuffer ..
  | incrementReferenceCount b owner => exact incrementReferenceCount_samePools he
  | decrementReferenceCount b owner => exact decrementReferenceCount_samePools he
  | attachBuffer b c =>
    obtain ⟨-, rfl | ⟨attached, hi⟩⟩ := attachBuffer_some he
    · exact .refl s'
    · exact (SamePools.modifyBuffer ..).trans (incrementReferenceCount_samePools hi)
  | detachBuffer b c =>
    obtain ⟨-, rfl | ⟨attached, hd⟩⟩ := detachBuffer_some he
    · exact .refl s'
    · exact (SamePools.modifyBuffer ..).trans (decrementReferenceCount_samePools hd)
  | resume => cases he

theorem finishRelease_samePools (hl : (s.buffers b).listed = true) :
    SamePools s (s.finishRelease b).2 := by
  have hfin := finishRelease_finishes hl
  obtain ⟨count, hpool⟩ := hfin.pool
  refine ⟨hfin.poolCount, fun p => ?_⟩
  by_cases hp : p = (s.buffers b).pool
  · subst hp
    rw [hpool]
    refine ⟨rfl, rfl, rfl, ?_⟩
    show (s.releasedPool b).memoryPoolAllocator.isSome = (s.poolOf b).memoryPoolAllocator.isSome
    unfold releasedPool BufferPool.deAllocateMemoryBlock
    split_ifs <;> simp
  · rw [hfin.pools p hp]
    exact ⟨rfl, rfl, rfl, rfl⟩

theorem resume_samePools (hc : s.Counted) (he : s.resume = some (st, s')) : SamePools s s' := by
  obtain ⟨f, rest, hf, ⟨-, -, rfl⟩ | ⟨-, c, -, hd⟩ | ⟨-, rfl⟩⟩ := resume_some he
  · exact ⟨rfl, fun _ => ⟨rfl, rfl, rfl, rfl⟩⟩
  · have h1 : SamePools s (System.modifyBuffer { s with releasing := ⟨f.buffer, f.slot + 1⟩ :: rest }
        f.buffer fun buf => { buf with attachedBuffers := buf.attachedBuffers.set f.slot none }) :=
      ⟨rfl, fun _ => ⟨rfl, rfl, rfl, rfl⟩⟩
    exact h1.trans (decrementReferenceCount_samePools hd)
  · have hl : (s.buffers f.buffer).listed = true := hc.listed_of_mem_stack (by simp [stack, hf])
    have := finishRelease_samePools (s := { s with releasing := rest }) hl
    exact ⟨this.poolCount, this.pools⟩

end

/-! ### Every call -/

section
variable {R : ℕ → ℕ → Prop} (hR : ∀ m n, R m n → m ≤ n) {s s' : System} {p : ℕ} {st : BufferStatus}
include hR

theorem Tiled.perform (h : Tiled R s p) (hc : s.Counted) (hp : p < s.poolCount)
    (hs : (s.pools p).Supplied) (hr : s.releasing = []) {c : Call} (hroom : s.RoomToCount c)
    (hsafe : s.SizeSafe p c) (hslot : s.SlotSafe p c ∨ ∀ m n k, m ≤ n → R n k → R m k) (he : s.perform c = some (st, s')) :
    Tiled R s' p := by
  cases c with
  | createPool q m =>
    simp only [System.perform] at he
    split_ifs at he
    have e : (s.createPool q m).2 = s' := congrArg Prod.snd (Option.some.inj he)
    exact e ▸ h.createPool hc hp q m
  | getBuffer q owner n nb lb env =>
    simp only [System.perform] at he
    split_ifs at he with hq
    obtain ⟨r, hget, e⟩ := Option.map_eq_some_iff.mp he
    rw [← (Prod.mk.inj e).2]
    exact h.getBuffer hc hq hs hget
  | setUsedDataSize b n =>
    obtain ⟨-, rfl | ⟨-, rfl⟩⟩ := setUsedDataSize_some he
    · exact h
    · have hP : SameCounts s _ := .modifyPool s (s.buffers b).pool (fun pool => { pool with
        totalUsedMemory := u32 (sub32 pool.totalUsedMemory (s.buffers b).dataSize + n) })
        ⟨rfl, rfl, rfl, rfl⟩
      exact (h.modifyPool hc _ ⟨rfl, rfl⟩).modifyBuffer (hc.congr hP) _ ⟨rfl, rfl, rfl, fun _ => rfl⟩
  | shrinkBuffer b n => exact h.shrinkBuffer hR hc hs hsafe hslot he
  | extendBuffer b up => exact h.extendBuffer hc he
  | partitionBuffer b leave owner nb env => exact h.partitionBuffer hR hc hr hroom hs hsafe he
  | registerDataReference b n =>
    obtain ⟨-, rfl | ⟨hsrc, rfl⟩⟩ := registerDataReference_some he
    · exact h
    · refine h.modifyBuffer hc _ ⟨rfl, rfl, rfl, fun hbp => ?_⟩
      rw [poolOf, hbp, hs.1] at hsrc
      cases hsrc
  | transferOwnership b owner0 owner1 =>
    obtain ⟨-, owners, rfl⟩ := transferOwnership_some he
    exact h.modifyBuffer hc _ ⟨rfl, rfl, rfl, fun _ => rfl⟩
  | incrementReferenceCount b owner => exact h.incrementReferenceCount hc hroom he
  | decrementReferenceCount b owner => exact h.decrementReferenceCount hc he
  | attachBuffer b c =>
    obtain ⟨-, rfl | ⟨attached, hi⟩⟩ := attachBuffer_some he
    · exact h
    · exact (h.modifyBuffer hc _ ⟨rfl, rfl, rfl, fun _ => rfl⟩).incrementReferenceCount
        (hc.congr (.modifyBuffer _ _ _ ⟨rfl, rfl, rfl⟩))
        (by rw [poolOf_modifyBuffer s rfl]; exact hroom) hi
  | detachBuffer b c =>
    obtain ⟨-, rfl | ⟨attached, hd⟩⟩ := detachBuffer_some he
    · exact h
    · exact (h.modifyBuffer hc _ ⟨rfl, rfl, rfl, fun _ => rfl⟩).decrementReferenceCount
        (hc.congr (.modifyBuffer _ _ _ ⟨rfl, rfl, rfl⟩)) hd
  | resume => cases he

theorem Tiled.resume (h : Tiled R s p) (hc : s.Counted) (hs : (s.pools p).Supplied)
    (hslot : s.SlotSafe p .resume ∨ ∀ m n k, m ≤ n → R n k → R m k) (he : s.resume = some (st, s')) :
    Tiled R s' p := by
  obtain ⟨f, rest, hf, hcase⟩ := resume_some he
  have hstack : stack { s with releasing := ⟨f.buffer, f.slot + 1⟩ :: rest } = s.stack := by
    simp [stack, hf]
  have hnext : Counted { s with releasing := ⟨f.buffer, f.slot + 1⟩ :: rest } :=
    hc.congr ⟨rfl, rfl, hstack, fun _ => ⟨rfl, rfl, rfl, rfl⟩, fun _ => ⟨rfl, rfl, rfl⟩⟩
  have hT : Tiled R { s with releasing := ⟨f.buffer, f.slot + 1⟩ :: rest } p :=
    h.same hc.bounded le_rfl ⟨rfl, rfl⟩ (fun _ => Iff.rfl) fun c _ =>
      ⟨rfl, fun h1 h2 => ⟨h1, hstack ▸ h2⟩⟩
  rcases hcase with ⟨-, -, rfl⟩ | ⟨-, c, -, hd⟩ | ⟨hslots, rfl⟩
  · exact hT
  · exact (hT.modifyBuffer hnext _ ⟨rfl, rfl, rfl, fun _ => rfl⟩).decrementReferenceCount
      (hnext.congr (.modifyBuffer _ _ _ ⟨rfl, rfl, rfl⟩)) hd
  · refine h.finish hR hc hs hf (hslot.imp (fun hsl hbp hne => ?_) id)
    exact hsl f (by rw [hf]; rfl) hbp hslots hne

end

variable {R : ℕ → ℕ → Prop} {s s' : System}

theorem tiled_new (hrefl : ∀ n, R n n) (hc : s.Counted)
    {q : PoolParameters} (hq : q.size < 2 ^ 32) {m : Bool}
    (hs : ((s.createPool q m).2.pools s.poolCount).Supplied)
    (hnew : s.poolCount < (s.createPool q m).2.poolCount) : Tiled R (s.createPool q m).2 s.poolCount := by
  unfold createPool at hs hnew ⊢
  cases hi : q.itemSize m with
  | error e => rw [hi] at hnew; exact absurd hnew (Nat.lt_irrefl _)
  | ok itemSize =>
    rw [hi] at hs
    dsimp only at hs ⊢
    rw [Function.update_self] at hs
    obtain ⟨-, hcr, halloc⟩ := hs
    have hcr' : q.descriptor.allocateOnPoolCreation = false := hcr
    have hzero : itemSize = 0 := by
      unfold PoolParameters.itemSize at hi
      rw [hcr', if_neg (by simp)] at hi
      exact (Except.ok.inj hi).symm
    simp only [PoolParameters.pool, hcr', Bool.false_eq_true, if_false, Option.isSome_map] at halloc
    obtain ⟨pa, hpa⟩ := Option.isSome_iff_exists.mp halloc
    obtain ⟨hI, hN, hseg, hE⟩ := create_spec hq 1 pa
    have hold : ∀ b, (s.buffers b).listed = true → (s.buffers b).pool ≠ s.poolCount := fun b hb => by
      have := (hc.listed b hb).2
      omega
    refine ⟨fun b hl hp _ _ => ?_, ?_, create q.size 1 pa, ?_, hI, hN, hseg, fun x => ?_⟩
    · dsimp only at hl hp ⊢
      split at hl
      · rename_i hb; rw [if_pos hb]; exact hzero
      · rename_i hb; rw [if_neg hb] at hp; exact absurd hp (hold b hl)
    · dsimp only
      rw [Function.update_self]
      exact hq
    · dsimp only
      simp [PoolParameters.pool, hcr', hpa]
    · have hblocks : ∀ b, spanIn s.poolCount x (if s.bufferCount ≤ b ∧ b < s.bufferCount + q.records then
          { Buffer.create s.poolCount with bufferBlock := ⟨itemSize, 0⟩ } else s.buffers b) = 0 := by
        intro b
        split
        · unfold spanIn
          split
          · exact Span.hits_empty hzero x
          · rfl
        · exact if_neg fun hh => hold b hh.1 hh.2
      have hsum : ∀ t : System, (∀ b, spanIn s.poolCount x (t.buffers b) = 0) →
          t.blocksAt s.poolCount x = 0 := fun t ht => total_eq_zero fun b _ => ht b
      rw [hsum _ hblocks, Nat.add_zero, hE x]
      simp only [Function.update_self]
      exact hrefl _

variable {p : ℕ}

theorem createPool_pools (q : PoolParameters) (m : Bool) (hp : p < s.poolCount) :
    (s.createPool q m).2.pools p = s.pools p := by
  unfold createPool
  cases q.itemSize m with
  | error e => rfl
  | ok itemSize => exact Function.update_of_ne (by omega) _ _

theorem createPool_poolCount (q : PoolParameters) (m : Bool)
    (hp : p < (s.createPool q m).2.poolCount) : p < s.poolCount ∨ p = s.poolCount := by
  unfold createPool at hp
  cases hi : q.itemSize m with
  | error e => rw [hi] at hp; exact .inl hp
  | ok itemSize => rw [hi] at hp; exact Nat.lt_succ_iff_lt_or_eq.mp hp

theorem step_pools {c : Call} (hc : s.Counted) (hstep : s.step c = some s') :
    SamePools s s' ∨ ∃ q m, c = .createPool q m ∧ q.size < 2 ^ 32 ∧ s' = (s.createPool q m).2 := by
  obtain ⟨st, ⟨-, hperf⟩ | ⟨-, rfl, hres⟩⟩ := step_some hstep
  · by_cases hnew : ∀ q m, c ≠ .createPool q m
    · exact .inl (perform_samePools hnew hperf)
    · push Not at hnew
      obtain ⟨q, m, rfl⟩ := hnew
      simp only [System.perform] at hperf
      split_ifs at hperf with hq
      exact .inr ⟨q, m, rfl, hq, (congrArg Prod.snd (Option.some.inj hperf)).symm⟩
  · exact .inl (resume_samePools hc hres)

theorem step_tiled (hrefl : ∀ n, R n n) (hR : ∀ m n, R m n → m ≤ n)
    {c : Call} (hc : s.Counted) (hroom : s.RoomToCount c)
    (hT : p < s.poolCount → (s.pools p).Supplied → Tiled R s p)
    (hsafe : (s.pools p).Supplied → s.SizeSafe p c ∧
      (s.SlotSafe p c ∨ ∀ m n k, m ≤ n → R n k → R m k))
    (hstep : s.step c = some s') (hp : p < s'.poolCount) (hs : (s'.pools p).Supplied) :
    Tiled R s' p := by
  rcases step_pools hc hstep with hsame | ⟨q, m, rfl, hq, rfl⟩
  · have hs' := (hsame.supplied p).mp hs
    have hp' : p < s.poolCount := hsame.poolCount ▸ hp
    obtain ⟨h1, h2⟩ := hsafe hs'
    obtain ⟨st, ⟨hr, hperf⟩ | ⟨-, rfl, hres⟩⟩ := step_some hstep
    · exact (hT hp' hs').perform hR hc hp' hs' hr hroom h1 h2 hperf
    · exact (hT hp' hs').resume hR hc hs' h2 hres
  · rcases createPool_poolCount q m hp with hp' | rfl
    · rw [createPool_pools q m hp'] at hs
      exact (hT hp' hs).createPool hc hp' q m
    · exact tiled_new hrefl hc hq hs hp

/-! ### The partition -/

/-- The blocks of the referenced buffers of pool `p` and the free records of its allocator are a
partition of `[0, Size)`: every address of the pool is in exactly one of them, and none of them
reaches outside. -/
def MemoryPartition (s : System) (p : ℕ) : Prop :=
  ∃ a, (s.pools p).memoryPoolAllocator = some a ∧
    Exact (s.pools p).size fun x => a.coverage x + total s.bufferCount (fun buf =>
      if (buf.listed ∧ buf.pool = p) ∧ buf.referenceCount ≠ 0 then buf.bufferBlock.span.hits x else 0)
      s.buffers

theorem Tiled.memoryPartition (h : Tiled Eq s p) (hr : s.releasing = []) :
    s.MemoryPartition p := by
  obtain ⟨a, ha, -, -, -, hx⟩ := h.tiles
  refine ⟨a, ha, fun x => ?_⟩
  rw [← hx x]
  refine congrArg (a.coverage x + ·) (total_congr fun b _ => ?_)
  unfold spanIn
  by_cases h1 : (s.buffers b).listed = true ∧ (s.buffers b).pool = p
  · by_cases h2 : (s.buffers b).referenceCount = 0
    · have hz := h.idle b h1.1 h1.2 h2 (by simp [stack, hr])
      rw [if_neg fun hh => hh.2 h2, if_pos h1, BlockDescriptor.span, hz, Span.hits_empty rfl]
    · rw [if_pos ⟨h1, h2⟩, if_pos h1]
  · rw [if_neg fun hh => h1 hh.1, if_neg h1]

/-- **Memory partition.**  In every run whose calls on pool `p` do not round a block up beyond its
size, do not leave more than there is in a partition or partition a buffer of fixed size, and
find a record for what they give back, and that counts no more than `2 ^ 32 - 1` references, the
blocks of the referenced buffers and the free records
partition the memory of the pool whenever no release is in progress. -/
theorem run_memoryPartition {p : ℕ} {calls : List Call} {s : System}
    (hsafe : Lts.Along step (MemorySafe p) start calls) (hroom : Lts.Along step RoomToCount start calls)
    (h : Lts.run step start calls = some s) (hr : s.releasing = []) (hp : p < s.poolCount) (hs : (s.pools p).Supplied) :
    s.MemoryPartition p := by
  have hI := Lts.run_invariant_along
    (I := fun s => s.Counted ∧ (p < s.poolCount → (s.pools p).Supplied → Tiled Eq s p))
    (fun s c s' hI hm hstep => ⟨step_counted hI.1 hm.2 hstep, step_tiled (fun _ => rfl)
      (fun _ _ e => e.le) hI.1 hm.2 hI.2 (fun hsup => ⟨(hm.1 hsup).1, .inl (hm.1 hsup).2⟩) hstep⟩)
    ⟨start_counted, fun hp => absurd hp (Nat.not_lt_zero p)⟩ (Lts.along_and.mpr ⟨hsafe, hroom⟩) h
  exact (hI.2 hp hs).memoryPartition hr

/-- A pool of 4 KB in units of 64 bytes: a buffer is cut in two, shrunk and released. -/
theorem run_memoryPartition_4KB : ∃ s, Lts.run step start
    [.createPool ⟨⟨.allocateFromSuppliedBlock, 64, false, false, 0⟩, 3, 0x1000, some 0, false, false⟩ true,
      .getBuffer 0 1 256 true false ⟨false, true, true⟩, .setUsedDataSize 0 128,
      .partitionBuffer 0 128 2 true ⟨false, true, true⟩, .shrinkBuffer 1 64,
      .decrementReferenceCount 0 1, .resume, .resume, .resume, .resume, .resume] = some s ∧
    s.releasing = [] ∧ 0 < s.poolCount ∧ (s.pools 0).Supplied ∧ s.MemoryPartition 0 := by
  obtain ⟨calls, hcalls⟩ : ∃ calls : List Call, calls =
    [.createPool ⟨⟨.allocateFromSuppliedBlock, 64, false, false, 0⟩, 3, 0x1000, some 0, false, false⟩ true,
      .getBuffer 0 1 256 true false ⟨false, true, true⟩, .setUsedDataSize 0 128,
      .partitionBuffer 0 128 2 true ⟨false, true, true⟩, .shrinkBuffer 1 64,
      .decrementReferenceCount 0 1, .resume, .resume, .resume, .resume, .resume] := ⟨_, rfl⟩
  have hsafe : Lts.Along step (MemorySafe 0) start calls := by rw [hcalls]; decide +kernel
  have hroom : Lts.Along step RoomToCount start calls := by rw [hcalls]; decide +kernel
  have hend : ((Lts.run step start calls).map fun s => decide (s.releasing = [] ∧ 0 < s.poolCount ∧
      (s.pools 0).Supplied)) = some true := by rw [hcalls]; decide +kernel
  obtain ⟨s, hs, hd⟩ := Option.map_eq_some_iff.mp hend
  obtain ⟨h1, h2, h3⟩ := of_decide_eq_true hd
  exact ⟨s, hcalls ▸ hs, h1, h2, h3, run_memoryPartition hsafe hroom hs h1 h2 h3⟩

/-- A buffer is partitioned at a size that is not a whole number of units; shrinking the first
part rounds it up into the second. -/
theorem not_memoryPartition_shrink_up :
    ¬ ∀ (p : ℕ) (calls : List Call) (s : System), Lts.run step start calls = some s → s.releasing = [] →
      p < s.poolCount → (s.pools p).Supplied → s.MemoryPartition p := by
  intro hall
  obtain ⟨calls, hcalls⟩ : ∃ calls : List Call, calls =
    [.createPool ⟨⟨.allocateFromSuppliedBlock, 64, false, false, 0⟩, 3, 0x1000, some 0, false, false⟩ true,
      .getBuffer 0 1 256 true false ⟨false, true, true⟩, .setUsedDataSize 0 256,
      .partitionBuffer 0 100 2 true ⟨false, true, true⟩, .setUsedDataSize 0 50, .shrinkBuffer 0 90] :=
    ⟨_, rfl⟩
  have hend : ((Lts.run step start calls).map fun s => decide (s.releasing = [] ∧ 0 < s.poolCount ∧
      (s.pools 0).Supplied ∧ 2 ≤ total s.bufferCount (fun buf =>
        if (buf.listed ∧ buf.pool = 0) ∧ buf.referenceCount ≠ 0 then buf.bufferBlock.span.hits 100 else 0)
        s.buffers)) = some true := by rw [hcalls]; decide +kernel
  obtain ⟨s, hs, hd⟩ := Option.map_eq_some_iff.mp hend
  obtain ⟨h1, h2, h3, h4⟩ := of_decide_eq_true hd
  obtain ⟨a, -, hx⟩ := hall 0 calls s hs h1 h2 h3
  have := hx.le_one 100
  omega

end System
end Player2

import Player2.AllocatorFreeList
import Player2.BufferReferences

/-! # The memory of a supplied-block pool

The blocks of the buffers of a supplied-block pool and the free records of its allocator share
the memory of the pool.  `Tiled R s p` relates, by `R`, the number of blocks and free records
that contain an address to `1` inside the pool's memory and to `0` outside: with `=` they are a
partition of it, with `≤` some of it may have been lost but none is used twice.

Every call keeps `Tiled` under two conditions on the state it is made in.  `SizeSafe` keeps
blocks apart: shrinking does not round a block up beyond its size, a partition leaves no more
than there is, and the buffer a partition gets has no memory of its own.  `SlotSafe` says that
what goes back to the allocator finds a record there; without it memory can only be lost. -/

namespace Player2

open Tiling AllocatorSimple

/-- Memory is allocated buffer by buffer from a block the pool was given. -/
def BufferPool.Supplied (pool : BufferPool) : Prop :=
  pool.descriptor.allocationSource = .allocateFromSuppliedBlock ∧
    pool.descriptor.allocateOnPoolCreation = false ∧ pool.memoryPoolAllocator.isSome = true

instance (pool : BufferPool) : Decidable pool.Supplied := by
  unfold BufferPool.Supplied; infer_instance

/-- The allocator has a record for a span that goes back to it. -/
def BufferPool.CanFree (pool : BufferPool) (r : Span) : Prop :=
  match pool.memoryPoolAllocator with
  | none => True
  | some a => a.SlotAvailable r.size r.base (a.highestUsedBlockIndex + 1)

instance (pool : BufferPool) (r : Span) : Decidable (pool.CanFree r) := by
  unfold BufferPool.CanFree
  cases pool.memoryPoolAllocator <;> infer_instance

theorem BufferPool.Supplied.perBuffer {pool : BufferPool} (h : pool.Supplied) :
    pool.descriptor.perBuffer = true := by
  simp [BufferDataDescriptor.perBuffer, h.1, h.2.1]

namespace System

/-- `1` on the addresses of a record's block in pool `p`. -/
def spanIn (p x : ℕ) (buf : Buffer) : ℕ :=
  if buf.listed ∧ buf.pool = p then buf.bufferBlock.span.hits x else 0

/-- How many blocks of the records of pool `p` contain an address. -/
def blocksAt (s : System) (p x : ℕ) : ℕ := total s.bufferCount (spanIn p x) s.buffers

/-- Blocks and free records of pool `p` against its memory. -/
structure Tiled (R : ℕ → ℕ → Prop) (s : System) (p : ℕ) : Prop where
  idle : ∀ b, (s.buffers b).listed = true → (s.buffers b).pool = p → (s.buffers b).referenceCount = 0 →
    b ∉ s.stack → (s.buffers b).bufferBlock.size = 0
  size_lt : (s.pools p).size < 2 ^ 32
  tiles : ∃ a, (s.pools p).memoryPoolAllocator = some a ∧ a.Indexed ∧ a.NonEmpty ∧ a.segmentSize = 1 ∧
    ∀ x, R (a.coverage x + s.blocksAt p x) (if x < (s.pools p).size then 1 else 0)

/-- The call does not make two blocks of pool `p` overlap. -/
def SizeSafe (p : ℕ) (s : System) : Call → Prop
  | .shrinkBuffer b n => (s.buffers b).pool = p → (s.buffers b).dataSize ≤ n →
      n < (s.buffers b).bufferBlock.size →
      (s.pools p).descriptor.roundToUnit n ≤ (s.buffers b).bufferBlock.size
  | .partitionBuffer b leave _ _ _ => (s.buffers b).pool = p →
      leave ≤ (s.buffers b).bufferBlock.size ∧
        ((s.pools p).descriptor.hasFixedSize = true → (s.pools p).descriptor.fixedSize = 0)
  | _ => True

/-- What the call gives back to the allocator of pool `p` finds a record there. -/
def SlotSafe (p : ℕ) (s : System) : Call → Prop
  | .shrinkBuffer b n => (s.buffers b).pool = p → (s.buffers b).dataSize ≤ n →
      n < (s.buffers b).bufferBlock.size →
      (s.pools p).descriptor.roundToUnit n < (s.buffers b).bufferBlock.size →
      (s.pools p).CanFree ⟨(s.buffers b).bufferBlock.poolAllocatedOffset +
          (s.pools p).descriptor.roundToUnit n,
        (s.buffers b).bufferBlock.size - (s.pools p).descriptor.roundToUnit n⟩
  | .resume => ∀ f ∈ s.releasing.head?, (s.buffers f.buffer).pool = p → maxAttachedBuffers ≤ f.slot →
      (s.buffers f.buffer).bufferBlock.size ≠ 0 →
      (s.pools p).CanFree (s.buffers f.buffer).bufferBlock.span
  | _ => True

/-- The conditions under which a call keeps the memory of pool `p` partitioned. -/
def MemorySafe (p : ℕ) (s : System) (c : Call) : Prop :=
  (s.pools p).Supplied → s.SizeSafe p c ∧ s.SlotSafe p c

instance (p : ℕ) (s : System) (c : Call) : Decidable (s.SizeSafe p c) := by
  cases c <;> unfold SizeSafe <;> infer_instance

instance (p : ℕ) (s : System) (c : Call) : Decidable (s.SlotSafe p c) := by
  cases c <;> unfold SlotSafe <;> infer_instance

instance (p : ℕ) (s : System) (c : Call) : Decidable (s.MemorySafe p c) := by
  unfold MemorySafe; infer_instance

/-! ### Changing one block -/

/-- The record belongs to pool `p`. -/
def InPool (s : System) (p b : ℕ) : Prop := (s.buffers b).listed = true ∧ (s.buffers b).pool = p

variable {s : System} {p b : ℕ}

theorem spanIn_of_inPool (h : s.InPool p b) (x : ℕ) :
    spanIn p x (s.buffers b) = (s.buffers b).bufferBlock.span.hits x := if_pos h

theorem spanIn_of_not_inPool (h : ¬ s.InPool p b) (x : ℕ) :
    spanIn p x (s.buffers b) = 0 := if_neg h

/-- No record is numbered beyond the count. -/
def Bounded (s : System) : Prop := ∀ b, (s.buffers b).listed = true → b < s.bufferCount

theorem Counted.bounded (h : s.Counted) : s.Bounded := fun b hb => (h.listed b hb).1

theorem Bounded.blocksAt_of_le (h : s.Bounded) {n : ℕ} (hn : s.bufferCount ≤ n) (p x : ℕ) :
    total n (spanIn p x) s.buffers = s.blocksAt p x :=
  total_of_le hn fun b hb => if_neg fun hl => by
    have := h b hl.1
    omega

section
variable {R : ℕ → ℕ → Prop} {s s' : System} {p b : ℕ}

theorem Tiled.same (h : Tiled R s p) (hc : s.Bounded) (hcount : s.bufferCount ≤ s'.bufferCount)
    (hpool : (s'.pools p).memoryPoolAllocator = (s.pools p).memoryPoolAllocator ∧
      (s'.pools p).size = (s.pools p).size)
    (hin : ∀ c, s'.InPool p c ↔ s.InPool p c)
    (hbuf : ∀ c, s.InPool p c → (s'.buffers c).bufferBlock = (s.buffers c).bufferBlock ∧
      ((s'.buffers c).referenceCount = 0 → c ∉ s'.stack →
        (s.buffers c).referenceCount = 0 ∧ c ∉ s.stack)) : Tiled R s' p := by
  have hspan : ∀ x c, spanIn p x (s'.buffers c) = spanIn p x (s.buffers c) := by
    intro x c
    by_cases hs : s.InPool p c
    · have hs' := (hin c).mpr hs
      rw [spanIn_of_inPool hs, spanIn_of_inPool hs', (hbuf c hs).1]
    · have hs' : ¬ s'.InPool p c := fun h' => hs ((hin c).mp h')
      rw [spanIn_of_not_inPool hs, spanIn_of_not_inPool hs']
  have hblocks : ∀ x, s'.blocksAt p x = s.blocksAt p x := fun x => by
    rw [← hc.blocksAt_of_le hcount]
    exact total_congr fun c _ => hspan x c
  refine ⟨fun c hl hp hr hst => ?_, hpool.2 ▸ h.size_lt, ?_⟩
  · have hs := (hin c).mp ⟨hl, hp⟩
    obtain ⟨e, hidle⟩ := hbuf c hs
    obtain ⟨h1, h2⟩ := hidle hr hst
    rw [e]
    exact h.idle c hs.1 hs.2 h1 h2
  · obtain ⟨a, ha, hI, hN, hseg, hx⟩ := h.tiles
    refine ⟨a, hpool.1.trans ha, hI, hN, hseg, fun x => ?_⟩
    rw [hblocks, hpool.2]
    exact hx x

theorem Tiled.change (h : Tiled R s p) (hc : s.Bounded)
    (hcount : s.bufferCount ≤ s'.bufferCount ∧ b < s'.bufferCount)
    (hsize : (s'.pools p).size = (s.pools p).size)
    (hbuf : ∀ c, c ≠ b → s'.buffers c = s.buffers c)
    (hst : ∀ c, c ≠ b → c ∉ s'.stack → c ∉ s.stack)
    (hidle : (s'.buffers b).listed = true → (s'.buffers b).pool = p → (s'.buffers b).referenceCount = 0 →
      b ∉ s'.stack → (s'.buffers b).bufferBlock.size = 0)
    (htiles : ∀ a, (s.pools p).memoryPoolAllocator = some a → a.Indexed → a.NonEmpty → a.segmentSize = 1 →
      (∀ x, R (a.coverage x + s.blocksAt p x) (if x < (s.pools p).size then 1 else 0)) →
      ∃ a', (s'.pools p).memoryPoolAllocator = some a' ∧ a'.Indexed ∧ a'.NonEmpty ∧ a'.segmentSize = 1 ∧
        ((∀ x, a'.coverage x + spanIn p x (s'.buffers b) = a.coverage x + spanIn p x (s.buffers b)) ∨
          ((∀ m n k, m ≤ n → R n k → R m k) ∧
            ∀ x, a'.coverage x + spanIn p x (s'.buffers b) ≤ a.coverage x + spanIn p x (s.buffers b)))) :
    Tiled R s' p := by
  refine ⟨fun c hl hp hr hs => ?_, hsize ▸ h.size_lt, ?_⟩
  · by_cases hcb : c = b
    · subst hcb
      exact hidle hl hp hr hs
    · rw [hbuf c hcb] at hl hp hr ⊢
      exact h.idle c hl hp hr (hst c hcb hs)
  · obtain ⟨a, ha, hI, hN, hseg, hx⟩ := h.tiles
    obtain ⟨a', ha', hI', hN', hseg', hsum⟩ := htiles a ha hI hN hseg hx
    refine ⟨a', ha', hI', hN', hseg', fun x => ?_⟩
    have hblocks : s'.blocksAt p x + spanIn p x (s.buffers b) =
        s.blocksAt p x + spanIn p x (s'.buffers b) := by
      rw [← hc.blocksAt_of_le hcount.1]
      exact total_change hcount.2 fun c hcb => by rw [hbuf c hcb]
    have hR := hx x
    rw [hsize]
    rcases hsum with heq | ⟨hmono, hle⟩
    · have := heq x
      have e : a'.coverage x + s'.blocksAt p x = a.coverage x + s.blocksAt p x := by omega
      rw [e]
      exact hR
    · have := hle x
      exact hmono _ _ _ (by omega) hR

end

/-! ### Blocks inside the pool -/

variable {R : ℕ → ℕ → Prop} {a : AllocatorSimple}

theorem Tiled.le_one (h : Tiled R s p)
    (hR : ∀ m n, R m n → m ≤ n) (ha : (s.pools p).memoryPoolAllocator = some a)
    (x : ℕ) : a.coverage x + s.blocksAt p x ≤ if x < (s.pools p).size then 1 else 0 := by
  obtain ⟨a', ha', -, -, -, hx⟩ := h.tiles
  obtain rfl : a' = a := Option.some.inj (ha'.symm.trans ha)
  exact hR _ _ (hx x)

theorem Tiled.stop_le (h : Tiled R s p) (hc : s.Bounded)
    (hR : ∀ m n, R m n → m ≤ n) (hb : s.InPool p b) (hpos : (s.buffers b).bufferBlock.size ≠ 0) :
    (s.buffers b).bufferBlock.poolAllocatedOffset + (s.buffers b).bufferBlock.size ≤ (s.pools p).size := by
  obtain ⟨a, ha, -⟩ := h.tiles
  by_contra hne
  have h1 := h.le_one hR ha ((s.buffers b).bufferBlock.poolAllocatedOffset +
    (s.buffers b).bufferBlock.size - 1)
  have h2 := le_total (hc b hb.1) (spanIn p ((s.buffers b).bufferBlock.poolAllocatedOffset +
    (s.buffers b).bufferBlock.size - 1)) s.buffers
  rw [spanIn_of_inPool hb, Span.hits_eq_one.mpr (by simp only [BlockDescriptor.span]; omega)] at h2
  rw [if_neg (by omega)] at h1
  unfold blocksAt at h1
  omega

/-! ### Handing out a record -/

section
variable {R : ℕ → ℕ → Prop} {s t u : System} {p q b n owner : ℕ} {nb lb : Bool} {env : Environment}

theorem Tiled.frame (h : Tiled R s p) (hc : s.Bounded) (hcount : s.bufferCount ≤ t.bufferCount)
    (hpool : t.pools p = s.pools p) (hbuf : ∀ c, c ≠ b → t.buffers c = s.buffers c)
    (hstack : ∀ c, c ≠ b → c ∉ t.stack → c ∉ s.stack) (hb : ¬ s.InPool p b) (hb' : ¬ t.InPool p b) :
    Tiled R t p := by
  refine h.same hc hcount (by rw [hpool]; exact ⟨rfl, rfl⟩) (fun c => ?_) fun c hin => ?_
  · by_cases hcb : c = b
    · subst hcb; exact ⟨fun hh => absurd hh hb', fun hh => absurd hh hb⟩
    · unfold InPool; rw [hbuf c hcb]
  · have hcb : c ≠ b := fun e => hb (e ▸ hin)
    rw [hbuf c hcb]
    exact ⟨rfl, fun h1 h2 => ⟨h1, hstack c hcb h2⟩⟩

theorem Counted.take_inPool (hc : s.Counted) (hq : q < s.poolCount)
    (ht : s.takeRecord q nb env = some (.ok (b, t))) : t.Bounded ∧ t.InPool q b := by
  rcases takeRecord_some ht with ⟨-, rfl, rfl⟩ | ⟨-, rest, hring, rfl⟩
  · refine ⟨fun c hl => ?_, by simp [InPool, Buffer.create]⟩
    by_cases hcb : c = s.bufferCount
    · subst hcb; exact Nat.lt_succ_self _
    · dsimp only at hl
      rw [Function.update_of_ne hcb] at hl
      exact Nat.lt_succ_of_lt (hc.listed c hl).1
  · exact ⟨hc.bounded, hc.ring q hq b (by simp [hring])⟩

/-- A record that has been taken still has no block in a supplied-block pool. -/
theorem Tiled.take (h : Tiled R s p) (hc : s.Counted) (hq : q < s.poolCount)
    (ht : s.takeRecord q nb env = some (.ok (b, t))) :
    Tiled R t p ∧ (q = p → (t.buffers b).bufferBlock.size = 0) := by
  rcases takeRecord_some ht with ⟨hN, rfl, rfl⟩ | ⟨hN, rest, hring, rfl⟩
  · have hnew : (s.buffers s.bufferCount).listed = false := by
      by_contra hne
      have := (hc.listed _ (by simpa using hne)).1
      omega
    have hpool : ∀ r, ((modifyPool s q fun pool => { pool with countOfBuffers := u32 (pool.countOfBuffers + 1) }).pools
        r).memoryPoolAllocator = (s.pools r).memoryPoolAllocator ∧
        ((modifyPool s q fun pool => { pool with countOfBuffers := u32 (pool.countOfBuffers + 1) }).pools r).size =
          (s.pools r).size := by
      intro r
      by_cases hr : r = q
      · subst hr; simp
      · simp [hr]
    refine ⟨h.change (b := s.bufferCount) hc.bounded ⟨Nat.le_succ _, Nat.lt_succ_self _⟩ (hpool p).2 ?_ ?_ ?_ ?_,
      ?_⟩
    · intro c hcb; exact Function.update_of_ne hcb _ _
    · intro c _ hst; exact hst
    · intro _ _ _ _; simp [Buffer.create]
    · intro a ha hI hN' hseg _
      refine ⟨a, (hpool p).1.trans ha, hI, hN', hseg, .inl fun x => ?_⟩
      have h1 : spanIn p x (s.buffers s.bufferCount) = 0 := if_neg fun hh => by
        rw [hnew] at hh; cases hh.1
      have h2 : spanIn p x (Buffer.create q) = 0 := by
        unfold spanIn
        split
        · exact Span.hits_empty rfl x
        · rfl
      simp [h1, h2]
    · intro _; simp [Buffer.create]
  · have hmem : b ∈ (s.pools q).freeBuffer := by simp [hring]
    have hin := hc.ring q hq b hmem
    have hpool : ∀ r, ((modifyPool s q fun pool => { pool with freeBuffer := rest }).pools
        r).memoryPoolAllocator = (s.pools r).memoryPoolAllocator ∧
        ((modifyPool s q fun pool => { pool with freeBuffer := rest }).pools r).size = (s.pools r).size := by
      intro r
      by_cases hr : r = q
      · subst hr; simp
      · simp [hr]
    have hplace := hc.place b hin.1
    rw [poolOf, hin.2, hring, List.count_cons_self] at hplace
    have hst : b ∉ s.stack := List.count_eq_zero.mp (by omega)
    have hrc := hc.unreferenced (.inl (hin.2.symm ▸ hmem))
    refine ⟨h.same hc.bounded le_rfl (hpool p) (fun _ => Iff.rfl)
      fun c _ => ⟨rfl, fun h1 h2 => ⟨h1, h2⟩⟩, ?_⟩
    rintro rfl
    exact h.idle b hin.1 hin.2 hrc hst

theorem obtains_others (hin : t.InPool q b) (ho : t.Obtains u q b n lb) (hqp : q ≠ p) (owner : ℕ) :
    t.bufferCount ≤ (u.handOut q b owner).bufferCount ∧ (u.handOut q b owner).pools p = t.pools p ∧
      (∀ c, c ≠ b → (u.handOut q b owner).buffers c = t.buffers c) ∧
      (u.handOut q b owner).stack = t.stack ∧ ¬ (u.handOut q b owner).InPool p b := by
  have hpq : p ≠ q := hqp.symm
  rcases ho with ⟨-, rfl⟩ | ⟨-, block, alloc, rfl, -⟩
  · refine ⟨le_rfl, by simp [handOut, hpq], fun c hcb => by simp [handOut, hcb], rfl, fun hh => hqp ?_⟩
    simpa [InPool, handOut, hin.1, hin.2] using hh
  · refine ⟨le_rfl, by simp [handOut, hpq], fun c hcb => by simp [handOut, hcb], rfl, fun hh => hqp ?_⟩
    simpa [InPool, handOut, hin.1, hin.2] using hh

/-- The memory a record is given comes out of the free records. -/
theorem Tiled.obtain (h : Tiled R t p) (hb : t.Bounded) (hin : t.InPool q b)
    (hzero : q = p → (t.buffers b).bufferBlock.size = 0) (ho : t.Obtains u q b n lb) (owner : ℕ) :
    Tiled R (u.handOut q b owner) p := by
  have hlt := hb b hin.1
  by_cases hqp : q = p
  · subst hqp
    have hold : ∀ x, spanIn q x (t.buffers b) = 0 := fun x => by
      rw [spanIn_of_inPool hin]
      exact Span.hits_empty (hzero rfl) x
    rcases ho with ⟨-, rfl⟩ | ⟨-, block, alloc, rfl, hcase⟩
    · refine h.change (b := b) hb ⟨le_rfl, hlt⟩ (by simp [handOut]) (fun c hcb => by simp [handOut, hcb])
        (fun c _ hst => hst) (fun _ _ hr => by simp [handOut] at hr) fun a ha hI hN hseg _ =>
          ⟨a, by simpa [handOut] using ha, hI, hN, hseg, .inl fun x => ?_⟩
      rw [hold]
      simp only [handOut, modifyBuffer_buffers_self, modifyPool_buffers, spanIn]
      split
      · rw [BlockDescriptor.span, Span.hits_empty rfl]
      · rfl
    · refine h.change (b := b) hb ⟨le_rfl, hlt⟩ (by simp [handOut]) (fun c hcb => by simp [handOut, hcb])
        (fun c _ hst => hst) (fun _ _ hr => by simp [handOut] at hr) fun a ha hI hN hseg _ => ?_
      rcases hcase with ⟨hnone, -⟩ | ⟨a0, r, a', ha0, rfl, hgrant⟩
      · rw [ha] at hnone; cases hnone
      · obtain rfl : a0 = a := Option.some.inj (ha0.symm.trans ha)
        have hg : ∃ i, Grants a0 a' i ⟨block.poolAllocatedOffset, block.size⟩ := by
          split at hgrant
          · obtain ⟨-, i, -, hg⟩ := allocateLargest_ok hgrant.1
            rw [hgrant.2]
            exact ⟨i, hg⟩
          · obtain ⟨hsize, i, hg⟩ := allocate_ok hgrant.1
            have hround : a0.roundToSegment ((t.pools q).descriptor.roundToUnit n) =
                (t.pools q).descriptor.roundToUnit n := by
              have hsmall : (t.pools q).descriptor.roundToUnit n < 2 ^ 32 :=
                lt_of_le_of_lt (Nat.div_mul_le_self _ _) (Nat.mod_lt _ (by norm_num))
              unfold roundToSegment
              rw [hseg, Nat.add_sub_cancel, u32_of_lt hsmall, Nat.div_one, Nat.mul_one]
            rw [hgrant.2]
            rw [hround] at hsize
            refine ⟨i, ?_⟩
            rw [← hsize]
            exact hg
        obtain ⟨i, hg⟩ := hg
        refine ⟨a', by simp [handOut], hg.indexed hI, hg.nonEmpty hN, hg.fields.2.1.trans hseg,
          .inl fun x => ?_⟩
        have h1 := hg.coverage hI x
        have h2 : spanIn q x (((((t.modifyBuffer b fun buf => { buf with bufferBlock := block }).modifyPool q
            fun pool => { pool with
              totalAllocatedMemory := u32 (pool.totalAllocatedMemory + block.size)
              memoryPoolAllocator := some a' }).handOut q b owner)).buffers b) =
            Span.hits ⟨block.poolAllocatedOffset, block.size⟩ x := by
          simp [handOut, spanIn, hin.1, hin.2, BlockDescriptor.span]
        rw [hold, h2]
        omega
  · have hb1 : ¬ t.InPool p b := fun hh => hqp (hin.2.symm.trans hh.2)
    obtain ⟨hcount, hpool, hothers, hstack, hb2⟩ := obtains_others hin ho hqp owner
    exact h.frame hb hcount hpool hothers (fun c _ hst => hstack ▸ hst) hb1 hb2

theorem Tiled.getBuffer {r : Option ℕ} {s' : System} {st : BufferStatus} (h : Tiled R s p)
    (hc : s.Counted) (hq : q < s.poolCount) (hp : (s.pools p).Supplied)
    (hg : s.getBuffer q owner n nb lb env = some (st, r, s')) : Tiled R s' p := by
  rcases getBuffer_some hg with ⟨-, -, rfl⟩ | ⟨-, b, t, u, -, ht, hu, rfl⟩
  · exact h
  · obtain ⟨hT, hzero⟩ := h.take hc hq ht
    obtain ⟨hB, hin⟩ := hc.take_inPool hq ht
    split at hu
    · exact hT.obtain hB hin hzero hu.2 owner
    · rename_i hper
      subst hu
      have hqp : q ≠ p := fun e => hper (e ▸ hp.perBuffer)
      have hpq : p ≠ q := hqp.symm
      exact hT.frame (b := b) hB le_rfl (by simp [handOut, hpq]) (fun c hcb => by simp [handOut, hcb])
        (fun c _ hst => hst) (fun hh => hqp (hin.2.symm.trans hh.2)) fun hh => hqp (by
          simpa [InPool, handOut, hin.1, hin.2] using hh)

end

/-! ### Giving memory back -/

/-- `Free` with segments of one byte: the span goes back when there is a record for it, and is
lost otherwise. -/
theorem free_back (hI : a.Indexed) (hN : a.NonEmpty) (hseg : a.segmentSize = 1)
    {r : Span} (hpos : 0 < r.size) (hlt : r.size < 2 ^ 32) (hone : ∀ x, a.coverage x + r.hits x ≤ 1) :
    (a.free r.size r.base).2.Indexed ∧ (a.free r.size r.base).2.NonEmpty ∧
      (a.free r.size r.base).2.segmentSize = 1 ∧
      (∀ x, (a.free r.size r.base).2.coverage x ≤ a.coverage x + r.hits x) ∧
      (a.SlotAvailable r.size r.base (a.highestUsedBlockIndex + 1) →
        ∀ x, (a.free r.size r.base).2.coverage x = a.coverage x + r.hits x) := by
  have hround : a.roundToSegment r.size = r.size := by
    unfold roundToSegment
    rw [hseg, Nat.add_sub_cancel, u32_of_lt hlt, Nat.div_one, Nat.mul_one]
  unfold AllocatorSimple.free
  rw [hround]
  by_cases hslot : a.SlotAvailable r.size r.base (a.highestUsedBlockIndex + 1)
  · obtain ⟨a', he, hI', hN', ⟨-, f2, -⟩, hcov⟩ := freeLocked_ok hI hN hpos hone hslot
    rw [he]
    exact ⟨hI', hN', f2.trans hseg, fun x => (hcov x).le, fun _ => hcov⟩
  · obtain ⟨he, -⟩ := freeLocked_error hI hslot
    rw [he]
    exact ⟨hI, hN, hseg, fun x => Nat.le_add_right _ _, fun h => absurd h hslot⟩

section
variable {R : ℕ → ℕ → Prop} {s s' : System} {p b n : ℕ} {st : BufferStatus}
  (hR : ∀ m n, R m n → m ≤ n)
include hR

theorem Tiled.part_le_one (h : Tiled R s p) (hc : s.Bounded) (hin : s.InPool p b) {a : AllocatorSimple}
    (ha : (s.pools p).memoryPoolAllocator = some a) {r : Span}
    (hr : ∀ x, r.hits x ≤ (s.buffers b).bufferBlock.span.hits x) (x : ℕ) : a.coverage x + r.hits x ≤ 1 := by
  have h1 := h.le_one hR ha x
  have h2 := le_total (hc b hin.1) (spanIn p x) s.buffers
  rw [spanIn_of_inPool hin] at h2
  have h3 := hr x
  unfold blocksAt at h1
  split at h1 <;> omega

theorem Tiled.finish (h : Tiled R s p) (hc : s.Counted) (hp : (s.pools p).Supplied) {f : Frame}
    {rest : List Frame} (hf : s.releasing = f :: rest)
    (hslot : ((s.buffers f.buffer).pool = p → (s.buffers f.buffer).bufferBlock.size ≠ 0 →
      (s.pools p).CanFree (s.buffers f.buffer).bufferBlock.span) ∨ ∀ m n k, m ≤ n → R n k → R m k) :
    Tiled R (finishRelease { s with releasing := rest } f.buffer).2 p := by
  have hmem : f.buffer ∈ s.stack := by simp [stack, hf]
  have hl := hc.listed_of_mem_stack hmem
  have hlt := hc.bounded _ hl
  have hfin := finishRelease_finishes (s := { s with releasing := rest }) (b := f.buffer) hl
  obtain ⟨count, hpool⟩ := hfin.pool
  have hbuf := hfin.buffer
  have hrel : System.releasedPool { s with releasing := rest } f.buffer = s.releasedPool f.buffer := rfl
  generalize (finishRelease { s with releasing := rest } f.buffer).2 = s' at *
  rw [hrel] at hpool
  have hcount : s'.bufferCount = s.bufferCount := hfin.bufferCount
  have hstack : ∀ c, c ≠ f.buffer → c ∉ s'.stack → c ∉ s.stack := by
    intro c hcb hst
    rw [stack, hfin.releasing] at hst
    simpa [stack, hf, hcb] using hst
  by_cases hbp : (s.buffers f.buffer).pool = p
  · have hin : s.InPool p f.buffer := ⟨hl, hbp⟩
    have hper : (s.poolOf f.buffer).descriptor.perBuffer = true := by
      rw [poolOf, hbp]; exact hp.perBuffer
    have hzero : (s'.buffers f.buffer).bufferBlock.size = 0 := by
      rw [hbuf]
      show (if (s.poolOf f.buffer).descriptor.perBuffer = true then _ else _ : BlockDescriptor).size = 0
      rw [if_pos hper]
    have hnew : ∀ x, spanIn p x (s'.buffers f.buffer) = 0 := fun x => by
      unfold spanIn
      split
      · exact Span.hits_empty hzero x
      · rfl
    refine h.change (b := f.buffer) hc.bounded ⟨hcount.ge, hcount ▸ hlt⟩ ?_ hfin.buffers hstack
      (fun _ _ _ _ => hzero) fun a ha hI hN hseg _ => ?_
    · have hpool' := hpool
      rw [hbp] at hpool'
      rw [hpool']
      rw [poolOf, hbp]
    · have halloc : (s'.pools p).memoryPoolAllocator = (s.releasedPool f.buffer).memoryPoolAllocator := by
        have hpool' := hpool
        rw [hbp] at hpool'
        rw [hpool']
      have hpoolOf : s.poolOf f.buffer = s.pools p := by rw [poolOf, hbp]
      rw [halloc, releasedPool, if_pos hper, hpoolOf]
      unfold BufferPool.deAllocateMemoryBlock
      by_cases hsize : (s.buffers f.buffer).bufferBlock.size = 0
      · rw [if_pos hsize]
        refine ⟨a, ha, hI, hN, hseg, .inl fun x => ?_⟩
        rw [hnew, spanIn_of_inPool hin, Span.hits_empty hsize]
      · rw [if_neg hsize, if_pos hp.1]
        have hstop := h.stop_le hc.bounded hR hin hsize
        have hsz := h.size_lt
        obtain ⟨hI', hN', hseg', hle, heq⟩ := free_back (r := (s.buffers f.buffer).bufferBlock.span) hI hN hseg
          (Nat.pos_of_ne_zero hsize) (by show (s.buffers f.buffer).bufferBlock.size < _; omega)
          (h.part_le_one hR hc.bounded hin ha fun _ => le_rfl)
        obtain ⟨a', ha'⟩ : ∃ a', a' = (a.free (s.buffers f.buffer).bufferBlock.size
          (s.buffers f.buffer).bufferBlock.poolAllocatedOffset).2 := ⟨_, rfl⟩
        simp only [BlockDescriptor.span] at hI' hN' hseg' hle heq
        rw [← ha'] at hI' hN' hseg' hle heq
        refine ⟨a', by simp only [ha, Option.map_some, ha'], hI', hN', hseg', ?_⟩
        rcases hslot with hslot | hmono
        · have hcan := hslot hbp hsize
          simp only [BufferPool.CanFree, ha, BlockDescriptor.span] at hcan
          refine .inl fun x => ?_
          rw [hnew, spanIn_of_inPool hin, Nat.add_zero, BlockDescriptor.span]
          exact heq hcan x
        · refine .inr ⟨hmono, fun x => ?_⟩
          rw [hnew, spanIn_of_inPool hin, Nat.add_zero, BlockDescriptor.span]
          exact hle x
  · refine h.frame (b := f.buffer) hc.bounded hcount.ge (hfin.pools p fun e => hbp e.symm) hfin.buffers hstack
      (fun hh => hbp hh.2) fun hh => hbp ?_
    have := hh.2
    rw [hbuf] at this
    exact this

theorem Tiled.shrinkBuffer (h : Tiled R s p) (hc : s.Counted) (hp : (s.pools p).Supplied)
    (hsafe : s.SizeSafe p (.shrinkBuffer b n))
    (hslot : s.SlotSafe p (.shrinkBuffer b n) ∨ ∀ m n k, m ≤ n → R n k → R m k)
    (he : s.shrinkBuffer b n = some (st, s')) : Tiled R s' p := by
  obtain ⟨hb, rfl | ⟨hcr, hsrc, hd, hn, m, hm, hcase⟩⟩ := shrinkBuffer_some he
  · exact h
  have hl := hc.listed_of_ne_zero hb
  have hlt := hc.bounded b hl
  by_cases hbp : (s.buffers b).pool = p
  · have hin : s.InPool p b := ⟨hl, hbp⟩
    have hpoolOf : s.poolOf b = s.pools p := by rw [poolOf, hbp]
    rw [hpoolOf] at hm hcase
    have hle := hsafe hbp hd hn
    rw [← hm] at hle
    have hcut : ∀ x, (s.buffers b).bufferBlock.span.hits x =
        Span.hits ⟨(s.buffers b).bufferBlock.poolAllocatedOffset, m⟩ x +
        Span.hits ⟨(s.buffers b).bufferBlock.poolAllocatedOffset + m, (s.buffers b).bufferBlock.size - m⟩ x := by
      intro x
      have := Span.hits_cut (s.buffers b).bufferBlock.poolAllocatedOffset m
        ((s.buffers b).bufferBlock.size - m) x
      rw [Nat.add_sub_cancel' hle] at this
      exact this
    rcases hcase with ⟨hlt', a0, ha0, rfl⟩ | ⟨hge, rfl⟩
    · have hstop := h.stop_le hc.bounded hR hin (by omega)
      have hsz := h.size_lt
      obtain ⟨r, hr⟩ : ∃ r : Span, r = ⟨(s.buffers b).bufferBlock.poolAllocatedOffset + m,
        (s.buffers b).bufferBlock.size - m⟩ := ⟨_, rfl⟩
      refine h.change (b := b) hc.bounded ⟨le_rfl, hlt⟩ (by simp [resize, hbp])
        (fun c hcb => by simp [resize, hcb]) (fun c _ hst => hst)
        (fun _ _ hrc => absurd (by simpa [resize] using hrc) hb) fun a ha hI hN hseg _ => ?_
      obtain rfl : a0 = a := Option.some.inj (ha0.symm.trans ha)
      obtain ⟨hI', hN', hseg', hle', heq⟩ := free_back (r := r) hI hN hseg (by rw [hr]; dsimp only; omega)
        (by rw [hr]; dsimp only; omega)
        (h.part_le_one hR hc.bounded hin ha fun x => by rw [hcut x, hr]; exact Nat.le_add_left _ _)
      rw [hr] at hI' hN' hseg' hle' heq
      dsimp only at hI' hN' hseg' hle' heq
      refine ⟨(a0.free ((s.buffers b).bufferBlock.size - m)
        ((s.buffers b).bufferBlock.poolAllocatedOffset + m)).2, by simp [resize, hbp], hI', hN', hseg', ?_⟩
      have hnew : ∀ x, spanIn p x ((s.resize b { (s.buffers b).bufferBlock with size := m }
          (a0.free ((s.buffers b).bufferBlock.size - m)
            ((s.buffers b).bufferBlock.poolAllocatedOffset + m)).2).buffers b) =
          Span.hits ⟨(s.buffers b).bufferBlock.poolAllocatedOffset, m⟩ x := fun x => by
        simp [spanIn, resize, hl, hbp, BlockDescriptor.span]
      rcases hslot with hslot | hmono
      · have hcan := hslot hbp hd hn (by rw [← hm]; exact hlt')
        simp only [BufferPool.CanFree, ha, ← hm] at hcan
        refine .inl fun x => ?_
        rw [hnew, spanIn_of_inPool hin, heq hcan x, hcut x]
        omega
      · refine .inr ⟨hmono, fun x => ?_⟩
        rw [hnew, spanIn_of_inPool hin, hcut x]
        have := hle' x
        omega
    · have hsame : m = (s.buffers b).bufferBlock.size := by omega
      refine h.same hc.bounded le_rfl ⟨rfl, rfl⟩ (fun c => ?_) fun c _ => ?_
      · by_cases hcb : c = b
        · subst hcb; simp [InPool]
        · simp [InPool, hcb]
      · by_cases hcb : c = b
        · subst hcb; exact ⟨by simp [hsame], fun h1 h2 => ⟨by simpa using h1, h2⟩⟩
        · rw [modifyBuffer_buffers_of_ne _ _ hcb]; exact ⟨rfl, fun h1 h2 => ⟨h1, h2⟩⟩
  · have hpb : p ≠ (s.buffers b).pool := fun e => hbp e.symm
    rcases hcase with ⟨-, a0, -, rfl⟩ | ⟨-, rfl⟩
    · exact h.frame (b := b) hc.bounded le_rfl (by simp [resize, hpb]) (fun c hcb => by simp [resize, hcb])
        (fun c _ hst => hst) (fun hh => hbp hh.2) fun hh => hbp (by simpa [resize] using hh.2)
    · exact h.frame (b := b) hc.bounded le_rfl rfl (fun c hcb => by simp [hcb])
        (fun c _ hst => hst) (fun hh => hbp hh.2) fun hh => hbp (by simpa using hh.2)

omit hR in
theorem Tiled.extendBuffer (h : Tiled R s p) (hc : s.Counted) {up : Bool}
    (he : s.extendBuffer b up = some (st, s')) : Tiled R s' p := by
  obtain ⟨hb, rfl | ⟨-, -, a0, r, a', ha0, hx, rfl⟩⟩ := extendBuffer_some he
  · exact h
  have hl := hc.listed_of_ne_zero hb
  have hlt := hc.bounded b hl
  by_cases hbp : (s.buffers b).pool = p
  · have hin : s.InPool p b := ⟨hl, hbp⟩
    refine h.change (b := b) hc.bounded ⟨le_rfl, hlt⟩ (by simp [resize, hbp])
      (fun c hcb => by simp [resize, hcb]) (fun c _ hst => hst)
      (fun _ _ hrc => absurd (by simpa [resize] using hrc) hb) fun a ha hI hN hseg _ => ?_
    rw [poolOf, hbp] at ha0
    obtain rfl : a0 = a := Option.some.inj (ha0.symm.trans ha)
    obtain ⟨i, hg, hhits⟩ := extendToLargest_hits hx
    refine ⟨a', by simp [resize, hbp], hg.indexed hI, hg.nonEmpty hN, hg.fields.2.1.trans hseg,
      .inl fun x => ?_⟩
    have hnew : spanIn p x ((s.resize b ⟨r.size, r.base⟩ a').buffers b) = r.hits x := by
      simp [spanIn, resize, hl, hbp, BlockDescriptor.span]
    have h1 := hg.coverage hI x
    have h2 := hhits x
    rw [hnew, spanIn_of_inPool hin]
    omega
  · have hpb : p ≠ (s.buffers b).pool := fun e => hbp e.symm
    exact h.frame (b := b) hc.bounded le_rfl (by simp [resize, hpb]) (fun c hcb => by simp [resize, hcb])
      (fun c _ hst => hst) (fun hh => hbp hh.2) fun hh => hbp (by simpa [resize] using hh.2)

variable {c leave q owner : ℕ}

omit hR in
theorem Tiled.splitBlock (h : Tiled R s p) (hc : s.Counted) (hbc : b ≠ c)
    (hb : (s.buffers b).referenceCount ≠ 0) (hcr : (s.buffers c).referenceCount ≠ 0)
    (hpool : (s.buffers c).pool = (s.buffers b).pool)
    (hsafe : (s.buffers b).pool = p → leave ≤ (s.buffers b).bufferBlock.size ∧
      (s.buffers b).bufferBlock.size < 2 ^ 32 ∧
      (leave < (s.buffers b).bufferBlock.size →
        (s.buffers b).bufferBlock.poolAllocatedOffset + leave < 2 ^ 32) ∧
      (s.buffers c).bufferBlock.size = 0) :
    Tiled R (s.splitBlock b c leave) p := by
  have hlb := hc.listed_of_ne_zero hb
  have hlc := hc.listed_of_ne_zero hcr
  -- first the new buffer gets the second part, then the old one is cut
  obtain ⟨t, ht⟩ : ∃ t, t = s.modifyBuffer c fun new => { new with
    bufferBlock := ⟨sub32 (s.buffers b).bufferBlock.size leave,
      u32 ((s.buffers b).bufferBlock.poolAllocatedOffset + leave)⟩
    dataSize := sub32 (s.buffers b).dataSize leave } := ⟨_, rfl⟩
  have hbuf : ∀ d, d ≠ b → d ≠ c → (s.splitBlock b c leave).buffers d = s.buffers d := by
    intro d h1 h2
    simp [System.splitBlock, h1, h2]
  by_cases hbp : (s.buffers b).pool = p
  · obtain ⟨hle, hlt, hoff, hzero⟩ := hsafe hbp
    have hsub : sub32 (s.buffers b).bufferBlock.size leave = (s.buffers b).bufferBlock.size - leave := by
      unfold sub32 u32; omega
    have hspan : ∀ x, spanIn p x ((s.splitBlock b c leave).buffers b) +
        spanIn p x ((s.splitBlock b c leave).buffers c) =
        spanIn p x (s.buffers b) + spanIn p x (s.buffers c) := by
      intro x
      have h1 : spanIn p x ((s.splitBlock b c leave).buffers b) =
          Span.hits ⟨(s.buffers b).bufferBlock.poolAllocatedOffset, leave⟩ x := by
        simp [System.splitBlock, spanIn, hbc, hlb, hbp, BlockDescriptor.span]
      have h2 : spanIn p x ((s.splitBlock b c leave).buffers c) =
          Span.hits ⟨(s.buffers b).bufferBlock.poolAllocatedOffset + leave,
            (s.buffers b).bufferBlock.size - leave⟩ x := by
        simp only [System.splitBlock, spanIn, modifyBuffer_buffers_of_ne _ _ hbc.symm,
          modifyBuffer_buffers_self, hlc, hpool, hbp, BlockDescriptor.span, hsub, and_self, if_true]
        by_cases heq : leave < (s.buffers b).bufferBlock.size
        · rw [u32_of_lt (hoff heq)]
        · have hempty : (s.buffers b).bufferBlock.size - leave = 0 := by omega
          rw [Span.hits_empty hempty, Span.hits_empty hempty]
      have h3 : spanIn p x (s.buffers c) = 0 := by
        rw [spanIn_of_inPool ⟨hlc, hpool.trans hbp⟩]
        exact Span.hits_empty hzero x
      have h4 := Span.hits_cut (s.buffers b).bufferBlock.poolAllocatedOffset leave
        ((s.buffers b).bufferBlock.size - leave) x
      rw [Nat.add_sub_cancel' hle] at h4
      rw [h1, h2, h3, spanIn_of_inPool ⟨hlb, hbp⟩]
      exact h4.symm
    have hblocks : ∀ x, (s.splitBlock b c leave).blocksAt p x = s.blocksAt p x := by
      intro x
      have h1 := total_change (hc.bounded c hlc) (w := spanIn p x) (f := s.buffers) (v := spanIn p x)
        (g := t.buffers) fun d hd => by rw [ht, modifyBuffer_buffers_of_ne _ _ hd]
      have h2 := total_change (hc.bounded b hlb) (w := spanIn p x) (f := t.buffers) (v := spanIn p x)
        (g := (s.splitBlock b c leave).buffers) fun d hd => by
          rw [ht]; simp [System.splitBlock, hd]
      have h3 : spanIn p x (t.buffers c) = spanIn p x ((s.splitBlock b c leave).buffers c) := by
        rw [ht]; simp [System.splitBlock, hbc.symm]
      have h4 : spanIn p x (t.buffers b) = spanIn p x (s.buffers b) := by
        rw [ht]; simp [hbc]
      have h5 := hspan x
      unfold blocksAt
      show total s.bufferCount _ _ = _
      omega
    refine ⟨fun d hl hp hr hst => ?_, h.size_lt, ?_⟩
    · by_cases hdb : d = b
      · subst hdb; exact absurd (by simpa [System.splitBlock, hbc] using hr) hb
      · by_cases hdc : d = c
        · subst hdc; exact absurd (by simpa [System.splitBlock, hdb] using hr) hcr
        · rw [hbuf d hdb hdc] at hl hp hr ⊢
          exact h.idle d hl hp hr hst
    · obtain ⟨a, ha, hI, hN, hseg, hx⟩ := h.tiles
      refine ⟨a, ha, hI, hN, hseg, fun x => ?_⟩
      rw [hblocks]
      exact hx x
  · refine h.same hc.bounded le_rfl ⟨rfl, rfl⟩ (fun d => ?_) fun d hin => ?_
    · by_cases hdb : d = b
      · subst hdb; simp [InPool, System.splitBlock, hbc]
      · by_cases hdc : d = c
        · subst hdc; simp [InPool, System.splitBlock, hdb]
        · simp [InPool, hbuf d hdb hdc]
    · have hdb : d ≠ b := fun e => hbp (e ▸ hin.2)
      have hdc : d ≠ c := fun e => hbp (hpool.symm.trans (e ▸ hin.2))
      rw [hbuf d hdb hdc]
      exact ⟨rfl, fun h1 h2 => ⟨h1, h2⟩⟩

variable {nb lb : Bool} {env : Environment}

omit hR in
/-- Where `GetBuffer` acts: on one record, which had no reference, and on its pool. -/
theorem getBuffer_frame (hc : s.Counted)
    (hq : q < s.poolCount) (hg : s.getBuffer q owner n nb lb env = some (.noError, some c, s')) :
    (∀ d, d ≠ c → s'.buffers d = s.buffers d) ∧ (∀ r, r ≠ q → s'.pools r = s.pools r) ∧
      (s'.buffers c).pool = q ∧ (s'.buffers c).referenceCount = 1 ∧ (s.buffers c).referenceCount = 0 ∧
      (s'.pools q).descriptor = (s.pools q).descriptor ∧ (s'.pools q).size = (s.pools q).size := by
  rcases getBuffer_some hg with ⟨he, -⟩ | ⟨-, b, t, u, hr, ht, hu, rfl⟩
  · exact absurd rfl he
  obtain rfl : b = c := (Option.some.inj hr).symm
  have htake : (∀ d, d ≠ b → t.buffers d = s.buffers d) ∧ (∀ r, r ≠ q → t.pools r = s.pools r) ∧
      (t.buffers b).pool = q ∧ (s.buffers b).referenceCount = 0 ∧
      (t.pools q).descriptor = (s.pools q).descriptor ∧ (t.pools q).size = (s.pools q).size := by
    rcases takeRecord_some ht with ⟨-, rfl, rfl⟩ | ⟨-, rest, hring, rfl⟩
    · refine ⟨fun d hd => Function.update_of_ne hd _ _, fun r hr => by simp [modifyPool, hr], ?_, ?_, ?_, ?_⟩
      · simp [Buffer.create]
      · refine (hc.unlisted _ ?_).1
        by_contra hne
        have := (hc.listed _ (by simpa using hne)).1
        omega
      · simp [modifyPool]
      · simp [modifyPool]
    · have hin := hc.ring q hq b (by simp [hring])
      have hplace := hc.place b hin.1
      rw [poolOf, hin.2, hring, List.count_cons_self] at hplace
      refine ⟨fun d _ => rfl, fun r hr => modifyPool_pools_of_ne s _ hr, hin.2, ?_, by simp, by simp⟩
      by_contra hne
      rw [if_neg hne] at hplace
      omega
  obtain ⟨t1, t2, t3, t4, t5, t6⟩ := htake
  have hmem : (∀ d, d ≠ b → u.buffers d = t.buffers d) ∧ (∀ r, r ≠ q → u.pools r = t.pools r) ∧
      (u.buffers b).pool = (t.buffers b).pool ∧
      (u.pools q).descriptor = (t.pools q).descriptor ∧ (u.pools q).size = (t.pools q).size := by
    split at hu
    · rcases hu.2 with ⟨-, rfl⟩ | ⟨-, block, alloc, rfl, -⟩
      · exact ⟨fun d hd => by simp [hd], fun r _ => rfl, by simp, rfl, rfl⟩
      · exact ⟨fun d hd => by simp [hd], fun r hr => by simp [hr], by simp, by simp, by simp⟩
    · subst hu
      exact ⟨fun _ _ => rfl, fun _ _ => rfl, rfl, rfl, rfl⟩
  obtain ⟨u1, u2, u3, u5, u6⟩ := hmem
  refine ⟨fun d hd => ?_, fun r hr => ?_, ?_, by simp [handOut], t4, ?_, ?_⟩
  · simp [handOut, hd, u1 d hd, t1 d hd]
  · simp [handOut, hr, u2 r hr, t2 r hr]
  · simp [handOut, u3, t3]
  · simp [handOut, u5, t5]
  · simp [handOut, u6, t6]

omit hR in
theorem getBuffer_zero (hg : s.getBuffer q owner 0 nb lb env = some (.noError, some c, s'))
    (hper : (s.pools q).descriptor.perBuffer = true)
    (hfix : (s.pools q).descriptor.hasFixedSize = true → (s.pools q).descriptor.fixedSize = 0) :
    (s'.buffers c).bufferBlock.size = 0 := by
  rcases getBuffer_some hg with ⟨hne, -⟩ | ⟨-, c', t', u, hr, ht, hu, rfl⟩
  · exact absurd rfl hne
  obtain rfl : c' = c := (Option.some.inj hr).symm
  rw [if_pos hper] at hu
  have hn : u32 (if (s.pools q).descriptor.hasFixedSize = true then (s.pools q).descriptor.fixedSize
      else 0) = 0 := by
    split
    · rename_i hf; rw [hfix hf]; rfl
    · rfl
  rw [hn] at hu
  rcases hu.2 with ⟨-, rfl⟩ | ⟨hne, -⟩
  · simp [handOut]
  · exact absurd rfl hne

theorem Tiled.partitionBuffer (h : Tiled R s p) (hc : s.Counted) (hr : s.releasing = [])
    (hroom : (s.poolOf b).referenceCount + 1 < 2 ^ 32) (hp : (s.pools p).Supplied)
    (hsafe : s.SizeSafe p (.partitionBuffer b leave owner nb env))
    (he : s.partitionBuffer b leave owner nb env = some (st, s')) : Tiled R s' p := by
  obtain ⟨hb, rfl | ⟨c, t, -, -, hg, rfl⟩⟩ := partitionBuffer_some he
  · exact h
  have hq := (hc.listed b (hc.listed_of_ne_zero hb)).2
  obtain ⟨f1, f2, f3, f4, f5, f6, f7⟩ := getBuffer_frame hc hq hg
  have hbc : b ≠ c := fun e => hb (e ▸ f5)
  have hT := h.getBuffer hc hq hp hg
  have hC := hc.getBuffer hq hr hroom hg
  have hbuf := f1 b hbc
  refine hT.splitBlock hC hbc (by rw [hbuf]; exact hb) (by rw [f4]; exact Nat.one_ne_zero)
    (by rw [f3, hbuf]) fun hbp => ?_
  rw [hbuf] at hbp ⊢
  obtain ⟨hle, hfix⟩ := hsafe hbp
  have hin : s.InPool p b := ⟨hc.listed_of_ne_zero hb, hbp⟩
  have hsz := h.size_lt
  have hstop := h.stop_le hc.bounded hR hin
  refine ⟨hle, ?_, fun hlt => ?_, ?_⟩
  · by_cases hz : (s.buffers b).bufferBlock.size = 0
    · rw [hz]; norm_num
    · have := hstop hz
      omega
  · have := hstop (by omega)
    omega
  · exact getBuffer_zero hg (hbp ▸ hp.perBuffer) (hbp ▸ hfix)

omit hR in
theorem Tiled.incrementReferenceCount (h : Tiled R s p) (hc : s.Counted)
    (hroom : (s.poolOf b).referenceCount + 1 < 2 ^ 32)
    (he : s.incrementReferenceCount b owner = some (st, s')) : Tiled R s' p := by
  obtain ⟨hb, owners, rfl⟩ := incrementReferenceCount_some he
  refine h.same hc.bounded le_rfl ?_ (fun c => ?_) fun c _ => ?_
  · by_cases hbp : p = (s.buffers b).pool
    · subst hbp; simp
    · simp [hbp]
  · by_cases hcb : c = b
    · subst hcb; simp [InPool]
    · simp [InPool, hcb]
  · by_cases hcb : c = b
    · subst hcb
      simp [hc.increment_eq hb hroom]
    · simp only [modifyPool_buffers, modifyBuffer_buffers_of_ne _ _ hcb]
      exact ⟨trivial, fun h1 h2 => ⟨h1, h2⟩⟩

omit hR in
theorem dropReference_inPool (s : System) (b p c : ℕ) (owners : List ℕ) :
    (s.dropReference b owners).InPool p c ↔ s.InPool p c := by
  by_cases hcb : c = b
  · subst hcb; simp [InPool, dropReference]
  · simp [InPool, dropReference, hcb]

omit hR in
theorem dropReference_sizes (s : System) (b c : ℕ) (owners : List ℕ) :
    ((s.dropReference b owners).buffers c).dataSize = (s.buffers c).dataSize ∧
      ((s.dropReference b owners).buffers c).bufferBlock = (s.buffers c).bufferBlock := by
  by_cases hcb : c = b
  · subst hcb; simp [dropReference]
  · simp [dropReference, hcb]

omit hR in
theorem dropReference_of_ne (s : System) {b c : ℕ} (owners : List ℕ) (hcb : c ≠ b) :
    ((s.dropReference b owners).buffers c).referenceCount = (s.buffers c).referenceCount := by
  simp [dropReference, hcb]

omit hR in
theorem Tiled.decrementReferenceCount (h : Tiled R s p) (hc : s.Counted)
    (he : s.decrementReferenceCount b owner = some (st, s')) : Tiled R s' p := by
  obtain ⟨hb, owners, hcase⟩ := decrementReferenceCount_some he
  have hpools : ((s.dropReference b owners).pools p).memoryPoolAllocator =
      (s.pools p).memoryPoolAllocator ∧ ((s.dropReference b owners).pools p).size = (s.pools p).size := by
    by_cases hbp : p = (s.buffers b).pool
    · subst hbp; simp [dropReference]
    · simp [dropReference, hbp]
  have hin := fun c => s.dropReference_inPool b p c owners
  have hblock := fun c => (s.dropReference_sizes b c owners).2
  have hother := fun c => s.dropReference_of_ne (b := b) (c := c) owners
  rcases hcase with ⟨-, rfl⟩ | ⟨hgt, rfl⟩
  · refine h.same hc.bounded le_rfl hpools hin fun c _ => ⟨hblock c, fun h1 h2 => ?_⟩
    by_cases hcb : c = b
    · subst hcb; exact absurd (by simp [stack]) h2
    · exact ⟨(hother c hcb).symm.trans h1, fun hm => h2 (by simpa [stack, hcb] using hm)⟩
  · refine h.same hc.bounded le_rfl hpools hin fun c _ => ⟨hblock c, fun h1 h2 => ?_⟩
    by_cases hcb : c = b
    · subst hcb
      simp only [dropReference, modifyBuffer_buffers_self, modifyPool_buffers] at h1
      omega
    · exact ⟨(hother c hcb).symm.trans h1, h2⟩

omit hR in
theorem Tiled.modifyBuffer (h : Tiled R s p) (hc : s.Counted) (f : Buffer → Buffer)
    (hf : (f (s.buffers b)).pool = (s.buffers b).pool ∧ (f (s.buffers b)).listed = (s.buffers b).listed ∧
      (f (s.buffers b)).referenceCount = (s.buffers b).referenceCount ∧
      ((s.buffers b).pool = p → (f (s.buffers b)).bufferBlock = (s.buffers b).bufferBlock)) :
    Tiled R (s.modifyBuffer b f) p := by
  refine h.same hc.bounded le_rfl ⟨rfl, rfl⟩ (fun c => ?_) fun c hin => ?_
  · by_cases hcb : c = b
    · subst hcb; simp [InPool, hf.1, hf.2.1]
    · simp [InPool, hcb]
  · by_cases hcb : c = b
    · subst hcb
      rw [modifyBuffer_buffers_self]
      exact ⟨hf.2.2.2 hin.2, fun h1 h2 => ⟨hf.2.2.1 ▸ h1, h2⟩⟩
    · rw [modifyBuffer_buffers_of_ne _ _ hcb]
      exact ⟨rfl, fun h1 h2 => ⟨h1, h2⟩⟩

omit hR in
theorem Tiled.modifyPool (h : Tiled R s p) (hc : s.Counted) (f : BufferPool → BufferPool)
    (hf : (f (s.pools q)).memoryPoolAllocator = (s.pools q).memoryPoolAllocator ∧
      (f (s.pools q)).size = (s.pools q).size) : Tiled R (s.modifyPool q f) p := by
  refine h.same hc.bounded le_rfl ?_ (fun c => Iff.rfl) fun c _ => ⟨rfl, fun h1 h2 => ⟨h1, h2⟩⟩
  by_cases hq : p = q
  · subst hq; simpa using hf
  · simp [hq]

omit hR in
theorem Tiled.createPool (h : Tiled R s p) (hc : s.Counted) (hp : p < s.poolCount) (q : PoolParameters)
    (systemMemory : Bool) : Tiled R (s.createPool q systemMemory).2 p := by
  unfold System.createPool
  cases hq : q.itemSize systemMemory with
  | error e => exact h
  | ok itemSize =>
    have hin : ∀ c, (¬ (s.bufferCount ≤ c ∧ c < s.bufferCount + q.records)) ∨ ¬ s.InPool p c := by
      intro c
      by_cases hcc : s.bufferCount ≤ c ∧ c < s.bufferCount + q.records
      · refine .inr fun hh => ?_
        have := hc.bounded c hh.1
        omega
      · exact .inl hcc
    refine h.same hc.bounded (Nat.le_add_right _ _) ?_ (fun c => ?_) fun c hh => ?_
    · dsimp only
      rw [Function.update_of_ne (by omega)]
      exact ⟨rfl, rfl⟩
    · unfold InPool
      dsimp only
      by_cases hcc : s.bufferCount ≤ c ∧ c < s.bufferCount + q.records
      · rw [if_pos hcc]
        refine ⟨fun hh => absurd hh.2 (by simp only [Buffer.create]; omega), fun hh => ?_⟩
        have := hc.bounded c hh.1
        omega
      · rw [if_neg hcc]
    · have hcc : ¬ (s.bufferCount ≤ c ∧ c < s.bufferCount + q.records) := by
        rcases hin c with h' | h'
        · exact h'
        · exact absurd hh h'
      dsimp only
      rw [if_neg hcc]
      exact ⟨rfl, fun h1 h2 => ⟨h1, h2⟩⟩

end

end System
end Player2

import Player2.AllocatorFreeList
import Player2.Run

/-! # Threads that share a simple allocator

`Free(Size, Block)` rounds its size and reads `HighestUsedBlockIndex` before it takes the lock,
so it is two steps: `beginFree` records what was read, `endFree` is the locked section run with
that record.  The other calls are their locked sections.  Any number of threads interleave, and
a thread between its two steps issues no other call.

`Threads.Inv` counts the blocks being freed with the free records and the outstanding spans.
It is kept by every step except an `endFree` that finds no record it may write
(`Threads.HasSlot`): the index read before the lock may by then be another thread's record. -/

namespace Player2

open Tiling AllocatorSimple

/-- A thread between the two steps of `Free`, with its local variables. -/
structure Freeing where
  thread : ℕ
  size : ℕ
  block : ℕ
  lowestFreeBlock : ℕ
deriving DecidableEq, Repr

/-- The block being freed. -/
def Freeing.span (f : Freeing) : Span := ⟨f.block, f.size⟩

/-- The shared allocator, the spans its callers hold, and the threads inside `Free`. -/
structure Threads where
  allocator : AllocatorSimple
  outstanding : List Span
  freeing : List Freeing

/-- The steps of the threads. -/
inductive Action where
  | allocate (thread size : ℕ)
  | allocateLargest (thread size : ℕ)
  | extendToLargest (thread : ℕ) (r : Span) (extendUpwards : Bool)
  | beginFree (thread : ℕ) (r : Span) (size block : ℕ)
  | endFree (thread : ℕ)
deriving DecidableEq, Repr

namespace Threads

def start (bufferSize segmentSize physicalAddress : ℕ) : Threads :=
  ⟨create bufferSize segmentSize physicalAddress, [], []⟩

/-- The thread is not inside `Free`. -/
def Idle (s : Threads) (t : ℕ) : Prop := ∀ f ∈ s.freeing, f.thread ≠ t

instance (s : Threads) (t : ℕ) : Decidable (s.Idle t) := by unfold Idle; infer_instance

/-- The whole segments of `[block, block + size)` are part of an outstanding span. -/
def MayFree (s : Threads) (r : Span) (size block : ℕ) : Prop :=
  r ∈ s.outstanding ∧ 0 < s.allocator.roundToSegment size ∧ r.base ≤ block ∧
    block + s.allocator.roundToSegment size ≤ r.stop

instance (s : Threads) (r : Span) (size block : ℕ) : Decidable (s.MayFree r size block) := by
  unfold MayFree; infer_instance

def grant (s : Threads) : Except AllocatorStatus (Span × AllocatorSimple) → Threads
  | .ok (r, a) => { s with allocator := a, outstanding := r :: s.outstanding }
  | .error _ => s

/-- One step of one thread; `none` when the thread cannot take it. -/
def step (s : Threads) : Action → Option Threads
  | .allocate t size => if s.Idle t then some (s.grant (s.allocator.allocate size)) else none
  | .allocateLargest t size =>
    if s.Idle t then some (s.grant (s.allocator.allocateLargest size)) else none
  | .extendToLargest t r up =>
    if s.Idle t ∧ r ∈ s.outstanding then
      match s.allocator.extendToLargest r up with
      | .ok (r', a) => some { s with allocator := a, outstanding := r' :: s.outstanding.erase r }
      | .error _ => some s
    else none
  | .beginFree t r size block =>
    if s.Idle t ∧ s.MayFree r size block then
      let size := s.allocator.roundToSegment size
      some { s with
        outstanding := ⟨r.base, block - r.base⟩ ::
          ⟨block + size, r.stop - (block + size)⟩ :: s.outstanding.erase r
        freeing := ⟨t, size, block, s.allocator.highestUsedBlockIndex + 1⟩ :: s.freeing }
    else none
  | .endFree t =>
    match s.freeing.find? (fun f => f.thread = t) with
    | none => none
    | some f => some { s with
        allocator := (s.allocator.freeLocked f.size f.block f.lowestFreeBlock).2
        freeing := s.freeing.erase f }

/-- A `Free` that takes the lock finds a record that it may write: an unused or adjoining one
not above the index it read, or that index itself while it is still above the used records. -/
def HasSlot (s : Threads) : Action → Prop
  | .endFree t =>
    match s.freeing.find? (fun f => f.thread = t) with
    | none => True
    | some f => s.allocator.SlotAvailable f.size f.block f.lowestFreeBlock
  | _ => True

instance (s : Threads) (c : Action) : Decidable (s.HasSlot c) := by
  unfold HasSlot
  split
  · split <;> infer_instance
  · infer_instance

/-- The spans of the threads inside `Free`. -/
def freeingSpans (s : Threads) : List Span := s.freeing.map Freeing.span

/-- How often an address is free, outstanding or being freed. -/
def count (s : Threads) (x : ℕ) : ℕ :=
  s.allocator.coverage x + cover s.outstanding x + cover s.freeingSpans x

/-- Every address is accounted for exactly once. -/
structure Inv (bufferSize : ℕ) (s : Threads) : Prop where
  indexed : s.allocator.Indexed
  nonEmpty : s.allocator.NonEmpty
  freeing_pos : ∀ f ∈ s.freeing, 0 < f.size
  exact : Exact bufferSize s.count

theorem cover_freeing_erase {l : List Freeing} {f : Freeing} (h : f ∈ l) (x : ℕ) :
    cover (l.map Freeing.span) x = cover ((l.erase f).map Freeing.span) x + f.span.hits x := by
  have hp := ((List.perm_cons_erase h).map Freeing.span)
  unfold cover
  rw [(hp.map _).sum_eq]
  simp only [List.map_cons, List.sum_cons]
  omega

namespace Inv
variable {n : ℕ} {s : Threads} (h : s.Inv n)
include h

theorem grant {a : AllocatorSimple} {i : ℕ} {r : Span} (hg : Grants s.allocator a i r) :
    Inv n { s with allocator := a, outstanding := r :: s.outstanding } := by
  refine ⟨hg.indexed h.indexed, hg.nonEmpty h.nonEmpty, h.freeing_pos, fun x => ?_⟩
  have h1 := hg.coverage h.indexed x
  have h2 := h.exact x
  simp only [count, freeingSpans, cover_cons] at h2 ⊢
  omega

theorem extend {a : AllocatorSimple} {r r' : Span} {up : Bool} (hr : r ∈ s.outstanding)
    (he : s.allocator.extendToLargest r up = .ok (r', a)) :
    Inv n { s with allocator := a, outstanding := r' :: s.outstanding.erase r } := by
  obtain ⟨i, hg, hhits⟩ := extendToLargest_hits he
  refine ⟨hg.indexed h.indexed, hg.nonEmpty h.nonEmpty, h.freeing_pos, fun x => ?_⟩
  have h1 := hg.coverage h.indexed x
  have h2 := h.exact x
  have h3 := hhits x
  rw [count, cover_erase hr] at h2
  simp only [count, freeingSpans, cover_cons] at h2 ⊢
  omega

theorem endFree {f : Freeing} (hf : f ∈ s.freeing)
    (hslot : s.allocator.SlotAvailable f.size f.block f.lowestFreeBlock) :
    Inv n { s with
      allocator := (s.allocator.freeLocked f.size f.block f.lowestFreeBlock).2
      freeing := s.freeing.erase f } := by
  have hcut := cover_freeing_erase hf
  have hone : ∀ x, s.allocator.coverage x + Span.hits ⟨f.block, f.size⟩ x ≤ 1 := by
    intro x
    have h1 := h.exact.le_one x
    have h2 := hcut x
    simp only [count, freeingSpans, Freeing.span] at h1 h2
    omega
  obtain ⟨a, he, hI, hN, -, hcov⟩ :=
    freeLocked_ok h.indexed h.nonEmpty (h.freeing_pos f hf) hone hslot
  rw [he]
  refine ⟨hI, hN, fun f' hf' => h.freeing_pos f' (List.mem_of_mem_erase hf'), fun x => ?_⟩
  have h1 := h.exact x
  have h2 := hcut x
  have h3 := hcov x
  simp only [count, freeingSpans, Freeing.span] at h1 h2 ⊢
  omega

end Inv

/-- One step of any thread, when a `Free` that takes the lock has a slot. -/
theorem step_inv {n : ℕ} {s s' : Threads} {c : Action} (h : s.Inv n) (hslot : s.HasSlot c)
    (hs : s.step c = some s') : s'.Inv n := by
  cases c with
  | allocate t size =>
    simp only [step] at hs
    split_ifs at hs
    rw [← Option.some.inj hs]
    cases he : s.allocator.allocate size with
    | error e => exact h
    | ok p =>
      obtain ⟨-, i, hg⟩ := allocate_ok he
      exact h.grant hg
  | allocateLargest t size =>
    simp only [step] at hs
    split_ifs at hs
    rw [← Option.some.inj hs]
    cases he : s.allocator.allocateLargest size with
    | error e => exact h
    | ok p =>
      obtain ⟨-, i, -, hg⟩ := allocateLargest_ok he
      exact h.grant hg
  | extendToLargest t r up =>
    simp only [step] at hs
    split_ifs at hs with hr
    cases he : s.allocator.extendToLargest r up with
    | error e => rw [he] at hs; rw [← Option.some.inj hs]; exact h
    | ok p => rw [he] at hs; rw [← Option.some.inj hs]; exact h.extend hr.2 he
  | beginFree t r size block =>
    simp only [step] at hs
    split_ifs at hs with hf
    obtain ⟨-, hr, hpos, hb, hle⟩ := hf
    rw [← Option.some.inj hs]
    refine ⟨h.indexed, h.nonEmpty, fun f hf => ?_, fun x => ?_⟩
    · rcases List.mem_cons.mp hf with rfl | hf
      · exact hpos
      · exact h.freeing_pos f hf
    · have h1 := h.exact x
      have h2 := Span.hits_carve hb hle x
      rw [count, cover_erase hr] at h1
      simp only [count, freeingSpans, Freeing.span, List.map_cons, cover_cons] at h1 ⊢
      omega
  | endFree t =>
    simp only [step] at hs
    split at hs
    · cases hs
    · rename_i f hf
      rw [← Option.some.inj hs]
      simp only [HasSlot, hf] at hslot
      exact h.endFree (List.mem_of_find?_eq_some hf) hslot

theorem start_inv {bufferSize : ℕ} (hsize : bufferSize < 2 ^ 32) (segmentSize physicalAddress : ℕ) :
    (start bufferSize segmentSize physicalAddress).Inv bufferSize := by
  obtain ⟨hI, hN, -, hE⟩ := create_spec hsize segmentSize physicalAddress
  refine ⟨hI, hN, fun f hf => absurd hf List.not_mem_nil, fun x => ?_⟩
  have h1 := hE x
  simp only [start, count, freeingSpans, List.map_nil, cover_nil, Nat.add_zero]
  exact h1

/-- The free records and the outstanding spans are a partition of the buffer. -/
def Partitioned (bufferSize : ℕ) (s : Threads) : Prop :=
  Exact bufferSize (fun x => s.allocator.coverage x + cover s.outstanding x)

/-- **No lost and no doubled memory.**  In every interleaving in which each `Free` finds, when
it takes the lock, a record that it may write, the free records and the outstanding spans
partition the buffer whenever no thread is inside `Free`. -/
theorem run_partitioned {bufferSize segmentSize physicalAddress : ℕ} (hsize : bufferSize < 2 ^ 32)
    {acts : List Action} {s : Threads}
    (hslot : Lts.Along step HasSlot (start bufferSize segmentSize physicalAddress) acts)
    (h : Lts.run step (start bufferSize segmentSize physicalAddress) acts = some s)
    (hidle : s.freeing = []) : s.Partitioned bufferSize := by
  have hI := Lts.run_invariant_along (fun _ _ _ h hslot hs => step_inv h hslot hs)
    (start_inv hsize segmentSize physicalAddress) hslot h
  intro x
  have := hI.exact x
  simp only [count, freeingSpans, hidle, List.map_nil, cover_nil, Nat.add_zero] at this
  exact this

/-- Two threads free at the same time, the second to read the index first to take the lock. -/
theorem run_partitioned_two_threads : ∃ s, Lts.run step (start 0x100 1 0)
      [.allocate 0 0x10, .allocate 1 0x20, .allocate 1 0x20, .beginFree 0 ⟨0, 0x10⟩ 0x10 0,
        .beginFree 1 ⟨0x30, 0x20⟩ 0x20 0x30, .endFree 1, .endFree 0] = some s ∧
    s.freeing = [] ∧ s.Partitioned 0x100 := by
  have hr : Lts.run step (start 0x100 1 0)
      [.allocate 0 0x10, .allocate 1 0x20, .allocate 1 0x20, .beginFree 0 ⟨0, 0x10⟩ 0x10 0,
        .beginFree 1 ⟨0x30, 0x20⟩ 0x20 0x30, .endFree 1, .endFree 0] = some _ := rfl
  refine ⟨_, hr, rfl, run_partitioned (by norm_num) (by decide) hr rfl⟩

/-- Two threads read the same index; the first to take the lock writes its record there and the
second overwrites it. -/
theorem not_partitioned_same_index :
    ¬ ∀ (bufferSize segmentSize physicalAddress : ℕ) (acts : List Action) (s : Threads),
      bufferSize < 2 ^ 32 → 0 < segmentSize →
      Lts.run step (start bufferSize segmentSize physicalAddress) acts = some s → s.freeing = [] →
        s.Partitioned bufferSize := by
  intro hall
  have hp := hall 0x100 1 0 [.allocate 0 0x10, .allocate 0 0x10, .allocate 1 0x10, .allocate 1 0x10,
    .beginFree 0 ⟨0, 0x10⟩ 0x10 0, .beginFree 1 ⟨0x20, 0x10⟩ 0x10 0x20, .endFree 1, .endFree 0]
    _ (by norm_num) (by norm_num) rfl rfl
  have := hp 0x20
  revert this
  decide +kernel

end Threads
end Player2

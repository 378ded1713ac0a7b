import Player2.AllocatorFreeList
import Player2.Run

/-! # Sequential runs of the simple allocator

A `Ledger` is the allocator together with what its callers hold: the outstanding spans, and
the spans a failed `Free` could not record.  `Ledger.step` performs one call in the way a
caller may issue it: requests do not exceed the buffer, and only outstanding non-empty spans,
or parts of them cut at segment multiples, are extended or freed.

`Ledger.Sound` is the invariant of every run (`Ledger.run_sound`): the free records are in
order, and together with the outstanding and the lost spans they are exactly the buffer. -/

namespace Player2

open Tiling AllocatorSimple AllocatorSimpleBlock

/-- The allocator and the spans its callers account for. -/
structure Ledger where
  allocator : AllocatorSimple
  outstanding : List Span
  lost : List Span

/-- The calls of one thread. -/
inductive Call where
  | allocate (size : ℕ)
  | allocateLargest (size : ℕ)
  | extendToLargest (r : Span) (extendUpwards : Bool)
  | freeAll
  | free (r : Span) (size block : ℕ)
deriving DecidableEq, Repr

namespace Ledger

/-- A newly constructed allocator. -/
def start (bufferSize segmentSize physicalAddress : ℕ) : Ledger :=
  ⟨create bufferSize segmentSize physicalAddress, [], []⟩

/-- A part of an outstanding span that a caller may free: it starts at a segment of the span. -/
def MayFree (s : Ledger) (r : Span) (size block : ℕ) : Prop :=
  r ∈ s.outstanding ∧ 0 < size ∧ r.base ≤ block ∧ block + size ≤ r.stop ∧
    s.allocator.segmentSize ∣ block - r.base

instance (s : Ledger) (r : Span) (size block : ℕ) : Decidable (s.MayFree r size block) := by
  unfold MayFree; infer_instance

/-- What remains outstanding of `r` once the segments of `[block, block + size)` are freed. -/
def remainder (s : Ledger) (r : Span) (size block : ℕ) : List Span :=
  let stop := block + s.allocator.roundToSegment size
  ⟨r.base, block - r.base⟩ :: ⟨stop, r.stop - stop⟩ :: s.outstanding.erase r

def grant (s : Ledger) : Except AllocatorStatus (Span × AllocatorSimple) → Ledger
  | .ok (r, a) => { s with allocator := a, outstanding := r :: s.outstanding }
  | .error _ => s

/-- One call; `none` when the caller may not issue it. -/
def step (s : Ledger) : Call → Option Ledger
  | .allocate size =>
    if size ≤ s.allocator.bufferSize then some (s.grant (s.allocator.allocate size)) else none
  | .allocateLargest size =>
    if size ≤ s.allocator.bufferSize then some (s.grant (s.allocator.allocateLargest size)) else none
  | .extendToLargest r up =>
    if r ∈ s.outstanding ∧ 0 < r.size then
      match s.allocator.extendToLargest r up with
      | .ok (r', a) => some { s with allocator := a, outstanding := r' :: s.outstanding.erase r }
      | .error _ => some s
    else none
  | .freeAll => some ⟨s.allocator.freeAll, [], []⟩
  | .free r size block =>
    if s.MayFree r size block then
      match s.allocator.free size block with
      | (none, a) => some ⟨a, s.remainder r size block, s.lost⟩
      | (some _, a) => some ⟨a, s.remainder r size block,
          ⟨block, s.allocator.roundToSegment size⟩ :: s.lost⟩
    else none

/-- How often an address is free, outstanding or lost. -/
def count (s : Ledger) (x : ℕ) : ℕ :=
  s.allocator.coverage x + cover s.outstanding x + cover s.lost x

/-- The invariant in the allocator's own terms. -/
structure Sound (s : Ledger) : Prop where
  index_le : ∀ i, (s.allocator.blocks i).inUse = true →
    i ≤ s.allocator.highestUsedBlockIndex ∧ s.allocator.highestUsedBlockIndex < allocatorSimpleMaxBlocks
  nonEmpty : ∀ i, (s.allocator.blocks i).inUse = true → 0 < (s.allocator.blocks i).size
  disjoint : ∀ i j, i ≠ j → (s.allocator.blocks i).inUse = true → (s.allocator.blocks j).inUse = true →
    (s.allocator.blocks i).span.stop ≤ (s.allocator.blocks j).base ∨
      (s.allocator.blocks j).span.stop ≤ (s.allocator.blocks i).base
  inside : ∀ i, (s.allocator.blocks i).inUse = true →
    (s.allocator.blocks i).span.stop ≤ s.allocator.bufferSize
  noSpan : ∀ i, (s.allocator.blocks i).inUse = true → s.allocator.NoSpan (s.allocator.blocks i).span
  notAdjacent : ∀ i j, (s.allocator.blocks i).inUse = true → (s.allocator.blocks j).inUse = true →
    (s.allocator.blocks i).span.stop = (s.allocator.blocks j).base →
      s.allocator.on64MBBoundary (s.allocator.blocks j).base = true
  exact : Exact s.allocator.bufferSize s.count

/-- The inductive invariant. -/
structure Inv (s : Ledger) : Prop where
  placed : s.allocator.Placed
  freeList : s.allocator.FreeList
  spans : ∀ r ∈ s.outstanding, s.allocator.NoSpan r ∧ s.allocator.Aligned r
  exact : Exact s.allocator.bufferSize s.count

namespace Inv
variable {s : Ledger} (h : s.Inv)
include h

theorem coverage_le_one (x : ℕ) : s.allocator.coverage x ≤ 1 := by
  have := h.exact.le_one x
  unfold count at this
  omega

theorem sound : s.Sound where
  index_le i hi := ⟨h.freeList.indexed.index_le i hi, h.freeList.indexed.highest_lt⟩
  nonEmpty := h.freeList.nonEmpty
  disjoint i j hij hi hj := by
    -- an overlap would cover the larger of the two bases twice
    by_contra hne
    have hI := h.freeList.indexed
    set x := max (s.allocator.blocks i).base (s.allocator.blocks j).base with hx
    have h1 := add_le_total (hI.lt (hI.index_le i hi)) (hI.lt (hI.index_le j hj)) hij (hits x)
      s.allocator.blocks
    have h2 := h.coverage_le_one x
    have hn1 := h.freeList.nonEmpty i hi
    have hn2 := h.freeList.nonEmpty j hj
    simp only [Span.stop, AllocatorSimpleBlock.span] at hne
    rw [hits_of_inUse hi, hits_of_inUse hj] at h1
    have e1 : (s.allocator.blocks i).span.hits x = 1 :=
      Span.hits_eq_one.mpr (by simp only [AllocatorSimpleBlock.span]; omega)
    have e2 : (s.allocator.blocks j).span.hits x = 1 :=
      Span.hits_eq_one.mpr (by simp only [AllocatorSimpleBlock.span]; omega)
    unfold AllocatorSimple.coverage at h2
    omega
  inside i hi := by
    refine h.exact.stop_le (h.freeList.nonEmpty i hi) fun x => ?_
    have hI := h.freeList.indexed
    have := le_coverage s.allocator (hI.lt (hI.index_le i hi)) hi x
    unfold count
    omega
  noSpan := h.freeList.noSpan
  notAdjacent := h.freeList.notAdjacent
  exact := h.exact

theorem grant {a : AllocatorSimple} {i : ℕ} {r : Span} (hg : Grants s.allocator a i r)
    (hr : s.allocator.segmentSize ∣ r.size) :
    Inv { s with allocator := a, outstanding := r :: s.outstanding } := by
  obtain ⟨f1, f2, f3⟩ := hg.fields
  have hF := hg.freeList h.freeList h.coverage_le_one hr
  have hal := h.freeList.aligned i hg.inUse
  have hbd : ∀ x, a.on64MBBoundary x = s.allocator.on64MBBoundary x := fun x => by
    unfold on64MBBoundary; rw [f3]
  have hcong : ∀ r', (s.allocator.NoSpan r' ∧ s.allocator.Aligned r') → a.NoSpan r' ∧ a.Aligned r' := by
    intro r' h'
    refine ⟨fun x hx hx' => hbd x ▸ h'.1 x hx hx', ?_⟩
    unfold Aligned
    rw [f2]
    exact h'.2
  refine ⟨by unfold AllocatorSimple.Placed; rw [f1, f2, f3]; exact h.placed, hF, fun r' hr' => hcong r' ?_, fun x => ?_⟩
  · rcases List.mem_cons.mp hr' with rfl | hr'
    · refine ⟨(h.freeList.noSpan i hg.inUse).mono ?_ ?_, ?_, hr⟩
      · rw [hg.base_eq]; rfl
      · have := hg.base_eq
        have := hg.size_le
        simp only [Span.stop, AllocatorSimpleBlock.span]
        omega
      · rw [hg.base_eq]; exact hal.1
    · exact h.spans r' hr'
  · have h1 := hg.coverage h.freeList.indexed x
    have h2 := h.exact x
    simp only [count, cover_cons] at h2 ⊢
    rw [f1]
    omega

theorem extend {a : AllocatorSimple} {r r' : Span} {up : Bool} (hr : r ∈ s.outstanding)
    (he : s.allocator.extendToLargest r up = .ok (r', a)) :
    Inv { s with allocator := a, outstanding := r' :: s.outstanding.erase r } := by
  obtain ⟨i, hg, hsize, hside⟩ := extendToLargest_ok he
  obtain ⟨i', hg', hhits⟩ := extendToLargest_hits he
  have hal := h.freeList.aligned i hg.inUse
  have hns := h.freeList.noSpan i hg.inUse
  obtain ⟨hrs, hra⟩ := h.spans r hr
  obtain ⟨f1, f2, f3⟩ := hg.fields
  have hbd : ∀ x, a.on64MBBoundary x = s.allocator.on64MBBoundary x := fun x => by
    unfold on64MBBoundary; rw [f3]
  have hnew : s.allocator.NoSpan r' ∧ s.allocator.Aligned r' := by
    cases up with
    | true =>
      obtain ⟨hb, hm, hnb⟩ := hside
      have e : r' = ⟨r.base, r.size + (s.allocator.blocks i).size⟩ := by rw [← hb, ← hsize]
      rw [e]
      refine ⟨hrs.join ?_ hnb, hra.1, Nat.dvd_add hra.2 hal.2⟩
      have : (s.allocator.blocks i).span = ⟨r.base + r.size, (s.allocator.blocks i).size⟩ := by
        rw [AllocatorSimpleBlock.span, hm]; rfl
      exact this ▸ hns
    | false =>
      obtain ⟨hb, hm, hnb⟩ := hside
      have e : r' = ⟨(s.allocator.blocks i).base, (s.allocator.blocks i).size + r.size⟩ := by
        rw [← hb, Nat.add_comm, ← hsize]
      rw [e]
      exact ⟨hns.join (hm ▸ hrs) (hm ▸ hnb), hal.1, Nat.dvd_add hal.2 hra.2⟩
  have hF := hg.freeList h.freeList h.coverage_le_one hal.2
  refine ⟨by unfold AllocatorSimple.Placed; rw [f1, f2, f3]; exact h.placed, hF, fun q hq => ?_, fun x => ?_⟩
  · have hq' : s.allocator.NoSpan q ∧ s.allocator.Aligned q := by
      rcases List.mem_cons.mp hq with rfl | hq
      · exact hnew
      · exact h.spans q (List.mem_of_mem_erase hq)
    refine ⟨fun x hx hx' => hbd x ▸ hq'.1 x hx hx', ?_⟩
    unfold Aligned
    rw [f2]
    exact hq'.2
  · have h1 := hg'.coverage h.freeList.indexed x
    have h2 := h.exact x
    have h3 := hhits x
    rw [count, cover_erase hr] at h2
    simp only [count, cover_cons] at h2 ⊢
    rw [f1]
    omega

/-- The segments of a part that may be freed lie inside its span. -/
theorem mayFree {r : Span} {size block : ℕ} (hf : s.MayFree r size block) :
    0 < s.allocator.roundToSegment size ∧ block + s.allocator.roundToSegment size ≤ r.stop ∧
      s.allocator.NoSpan ⟨block, s.allocator.roundToSegment size⟩ ∧
      s.allocator.Aligned ⟨block, s.allocator.roundToSegment size⟩ ∧
      (∀ q ∈ s.remainder r size block, s.allocator.NoSpan q ∧ s.allocator.Aligned q) ∧
      (∀ x, cover s.outstanding x = cover (s.remainder r size block) x +
        Span.hits ⟨block, s.allocator.roundToSegment size⟩ x) := by
  obtain ⟨hr, hpos, hb, hstop, hd⟩ := hf
  obtain ⟨hrs, hra⟩ := h.spans r hr
  have hblock : s.allocator.segmentSize ∣ block := by
    have := Nat.dvd_add hra.1 hd
    rwa [Nat.add_sub_cancel' hb] at this
  have hrest : s.allocator.segmentSize ∣ r.stop - block := by
    have : s.allocator.segmentSize ∣ r.stop := Nat.dvd_add hra.1 hra.2
    exact Nat.dvd_sub this hblock
  have hin : r.stop ≤ s.allocator.bufferSize := by
    refine h.exact.stop_le (by unfold Span.stop at hstop; omega) fun x => ?_
    have := hits_le_cover hr x
    unfold count
    omega
  obtain ⟨h1, h2⟩ := roundToSegment_bounds h.placed hpos (by omega) hrest (by omega)
  have hle : block + s.allocator.roundToSegment size ≤ r.stop := by omega
  have hseg := dvd_roundToSegment s.allocator size
  refine ⟨by omega, hle, hrs.mono hb hle, ⟨hblock, hseg⟩, fun q hq => ?_, fun x => ?_⟩
  · rcases List.mem_cons.mp hq with rfl | hq
    · exact ⟨hrs.mono le_rfl (by simp only [Span.stop]; unfold Span.stop at hle; omega),
        hra.1, hd⟩
    · rcases List.mem_cons.mp hq with rfl | hq
      · refine ⟨hrs.mono (by dsimp only; omega) (by simp only [Span.stop] at hle ⊢; omega), ?_, ?_⟩
        · exact Nat.dvd_add hblock hseg
        · have e : r.stop - (block + s.allocator.roundToSegment size) =
              r.stop - block - s.allocator.roundToSegment size := by omega
          rw [e]
          exact Nat.dvd_sub hrest hseg
      · exact h.spans q (List.mem_of_mem_erase hq)
  · have hcarve := Span.hits_carve hb hle x
    rw [cover_erase hr]
    simp only [remainder, cover_cons]
    omega

/-- A `Free` that has a record to write returns the part to the free list; one that has not
reports an error, leaves the allocator alone and loses the part. -/
theorem free {r : Span} {size block : ℕ} (hf : s.MayFree r size block) :
    (∃ a, s.allocator.free size block = (none, a) ∧ Inv ⟨a, s.remainder r size block, s.lost⟩) ∨
    (s.allocator.free size block = (some .allocatorError, s.allocator) ∧
      (∀ j < allocatorSimpleMaxBlocks, (s.allocator.blocks j).inUse = true ∧
        ¬ s.allocator.Adjoins (s.allocator.roundToSegment size) block j) ∧
      Inv ⟨s.allocator, s.remainder r size block,
        ⟨block, s.allocator.roundToSegment size⟩ :: s.lost⟩) := by
  obtain ⟨hpos, -, hns, hal, hrem, hcover⟩ := h.mayFree hf
  have hone : ∀ x, s.allocator.coverage x +
      Span.hits ⟨block, s.allocator.roundToSegment size⟩ x ≤ 1 := by
    intro x
    have h1 := h.exact.le_one x
    have h2 := hcover x
    unfold count at h1
    omega
  by_cases hslot : s.allocator.SlotAvailable (s.allocator.roundToSegment size) block
      (s.allocator.highestUsedBlockIndex + 1)
  · obtain ⟨a, he, -, -, ⟨f1, f2, f3⟩, hcov⟩ :=
      freeLocked_ok h.freeList.indexed h.freeList.nonEmpty hpos hone hslot
    have hF := freeLocked_freeList h.freeList hpos hone hns hal hslot
    rw [he] at hF
    refine .inl ⟨a, he, by unfold AllocatorSimple.Placed; rw [f1, f2, f3]; exact h.placed, hF, fun q hq => ?_, fun x => ?_⟩
    · obtain ⟨hq1, hq2⟩ := hrem q hq
      refine ⟨fun x hx hx' => ?_, by unfold Aligned; rw [f2]; exact hq2⟩
      have := hq1 x hx hx'
      unfold on64MBBoundary at this ⊢
      rwa [f3]
    · have h1 := h.exact x
      have h2 := hcover x
      have h3 := hcov x
      simp only [count] at h1 ⊢
      rw [f1]
      omega
  · obtain ⟨he, hall⟩ := freeLocked_error h.freeList.indexed hslot
    refine .inr ⟨he, hall, h.placed, h.freeList, hrem, fun x => ?_⟩
    have h1 := h.exact x
    have h2 := hcover x
    simp only [count, cover_cons] at h1 ⊢
    omega

end Inv

theorem start_inv {bufferSize segmentSize physicalAddress : ℕ}
    (hg : Geometry bufferSize segmentSize physicalAddress) :
    (start bufferSize segmentSize physicalAddress).Inv := by
  obtain ⟨hF, hE, f1, f2, f3⟩ := freeAll_spec
    (a := ⟨bufferSize, segmentSize, physicalAddress, 0, fun _ => .zero⟩) hg
  refine ⟨by unfold AllocatorSimple.Placed start create; rw [f1, f2, f3]; exact hg, hF, fun r hr => absurd hr List.not_mem_nil, ?_⟩
  intro x
  have := hE x
  simp only [start, create, count, cover_nil, Nat.add_zero, f1] at this ⊢
  exact this

theorem step_inv {s s' : Ledger} {c : Call} (h : s.Inv) (hs : s.step c = some s') : s'.Inv := by
  cases c with
  | allocate size =>
    simp only [step] at hs
    split_ifs at hs
    rw [← Option.some.inj hs]
    cases he : s.allocator.allocate size with
    | error e => exact h
    | ok p =>
      obtain ⟨hr, i, hg⟩ := allocate_ok he
      exact h.grant hg (hr ▸ dvd_roundToSegment _ _)
  | allocateLargest size =>
    simp only [step] at hs
    split_ifs at hs
    rw [← Option.some.inj hs]
    cases he : s.allocator.allocateLargest size with
    | error e => exact h
    | ok p =>
      obtain ⟨-, i, hr, hg⟩ := allocateLargest_ok he
      exact h.grant hg (hr ▸ (h.freeList.aligned i hg.inUse).2)
  | extendToLargest r up =>
    simp only [step] at hs
    split_ifs at hs with hr
    cases he : s.allocator.extendToLargest r up with
    | error e => rw [he] at hs; rw [← Option.some.inj hs]; exact h
    | ok p => rw [he] at hs; rw [← Option.some.inj hs]; exact h.extend hr.1 he
  | freeAll =>
    rw [← Option.some.inj hs]
    obtain ⟨hF, hE, f1, f2, f3⟩ := freeAll_spec h.placed
    refine ⟨by unfold AllocatorSimple.Placed; rw [f1, f2, f3]; exact h.placed, hF, fun r hr => absurd hr List.not_mem_nil, ?_⟩
    intro x
    have := hE x
    simp only [count, cover_nil, Nat.add_zero, f1]
    exact this
  | free r size block =>
    simp only [step] at hs
    split_ifs at hs with hf
    rcases h.free hf with ⟨a, he, hI⟩ | ⟨he, -, hI⟩
    · rw [he] at hs; rw [← Option.some.inj hs]; exact hI
    · rw [he] at hs; rw [← Option.some.inj hs]; exact hI

end Ledger
end Player2

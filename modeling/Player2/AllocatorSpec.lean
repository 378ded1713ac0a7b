import Player2.AllocatorSimple

/-! # What each allocator call does to the free records

One specification per call of `AllocatorSimple_c`, in terms of the addresses the in-use
records cover (`coverage`): a grant takes exactly the granted span out of the coverage, a
`Free` that finds a record to write puts exactly the freed span back (`freeLocked_coverage`).
Which record `Free` writes is decided by a value read before the lock is taken;
`SlotAvailable` is the condition, on the table as it is when the lock is taken, under which
that record is not in use. -/

namespace Player2.AllocatorSimple

open Tiling AllocatorSimpleBlock

/-- How many in-use records contain the address `x`. -/
def coverage (a : AllocatorSimple) (x : ℕ) : ℕ := total allocatorSimpleMaxBlocks (hits x) a.blocks

/-- The table is never in use above `HighestUsedBlockIndex`. -/
structure Indexed (a : AllocatorSimple) : Prop where
  highest_lt : a.highestUsedBlockIndex < allocatorSimpleMaxBlocks
  index_le : ∀ i, (a.blocks i).inUse = true → i ≤ a.highestUsedBlockIndex

/-- Every in-use record describes at least one address. -/
def NonEmpty (a : AllocatorSimple) : Prop := ∀ i, (a.blocks i).inUse = true → 0 < (a.blocks i).size

variable {a a' : AllocatorSimple} {i size block low k : ℕ}

theorem mem_indices : i ∈ a.indices ↔ i ≤ a.highestUsedBlockIndex := by
  simp [indices]

theorem Indexed.lt (h : a.Indexed) (hi : i ≤ a.highestUsedBlockIndex) :
    i < allocatorSimpleMaxBlocks := lt_of_le_of_lt hi h.highest_lt

theorem coverage_setBlock (a : AllocatorSimple) (hi : i < allocatorSimpleMaxBlocks)
    (b : AllocatorSimpleBlock) (x : ℕ) :
    (a.setBlock i b).coverage x + hits x (a.blocks i) = a.coverage x + hits x b :=
  total_update hi (hits x) a.blocks b

theorem le_coverage (a : AllocatorSimple) (hi : i < allocatorSimpleMaxBlocks)
    (hu : (a.blocks i).inUse = true) (x : ℕ) : (a.blocks i).span.hits x ≤ a.coverage x := by
  rw [← hits_of_inUse hu]
  exact le_total hi (hits x) a.blocks

theorem indexed_setBlock (h : a.Indexed)
    (hi : i ≤ a.highestUsedBlockIndex) (b : AllocatorSimpleBlock) : (a.setBlock i b).Indexed := by
  refine ⟨h.highest_lt, fun j hj => ?_⟩
  by_cases hji : j = i
  · exact hji ▸ hi
  · exact h.index_le j (by simpa [setBlock, Function.update_of_ne hji] using hj)

theorem nonEmpty_setBlock (h : a.NonEmpty) {b : AllocatorSimpleBlock}
    (hb : b.inUse = true → 0 < b.size) : (a.setBlock i b).NonEmpty := by
  intro j hj
  by_cases hji : j = i
  · subst hji
    simp only [setBlock, Function.update_self] at hj ⊢
    exact hb hj
  · simp only [setBlock, Function.update_of_ne hji] at hj ⊢
    exact h j hj

/-! ### Grants -/

/-- A call that grants from record `i` either keeps the front of it or takes all of it; in
both cases the record gives up the span `r` and keeps the rest. -/
structure Grants (a a' : AllocatorSimple) (i : ℕ) (r : Span) : Prop where
  index_le : i ≤ a.highestUsedBlockIndex
  inUse : (a.blocks i).inUse = true
  base_eq : r.base = (a.blocks i).base
  size_le : r.size ≤ (a.blocks i).size
  result : a' = a.setBlock i ⟨decide ((a.blocks i).size - r.size ≠ 0), (a.blocks i).size - r.size,
    (a.blocks i).base + r.size⟩ ∨
    (r.size = (a.blocks i).size ∧ a' = a.setBlock i ⟨false, 0, (a.blocks i).base⟩)

theorem allocate_ok {r : Span}
    (h : a.allocate size = .ok (r, a')) :
    r.size = a.roundToSegment size ∧ ∃ i, Grants a a' i r := by
  unfold allocate at h
  dsimp only at h
  split at h
  · cases h
  · rename_i i hi
    obtain ⟨rfl, rfl⟩ := Prod.mk.inj (Except.ok.inj h)
    have hp := List.find?_some hi
    simp only [Bool.and_eq_true, decide_eq_true_eq] at hp
    exact ⟨rfl, i, mem_indices.mp (List.mem_of_find?_eq_some hi), hp.1, rfl, hp.2, .inl rfl⟩

theorem foldl_selects {α : Type*} {f : Option α → α → Option α} {P : α → Prop}
    (hf : ∀ acc x y, f acc x = some y → (y = x ∧ P x) ∨ acc = some y) (l : List α) (acc : Option α)
    {y : α} (h : l.foldl f acc = some y) : (y ∈ l ∧ P y) ∨ acc = some y := by
  induction l generalizing acc with
  | nil => exact .inr h
  | cons x l ih =>
    rcases ih (f acc x) h with ⟨hy, hp⟩ | hacc
    · exact .inl ⟨List.mem_cons_of_mem _ hy, hp⟩
    · rcases hf acc x y hacc with ⟨rfl, hp⟩ | hacc
      · exact .inl ⟨List.mem_cons_self .., hp⟩
      · exact .inr hacc

theorem largestFreeBlock_some (h : a.largestFreeBlock = some i) :
    i ≤ a.highestUsedBlockIndex ∧ (a.blocks i).inUse = true := by
  refine (foldl_selects (P := fun k => (a.blocks k).inUse = true) ?_ a.indices none h).elim
    (fun hi => ⟨mem_indices.mp hi.1, hi.2⟩) (fun hnone => by cases hnone)
  intro acc m k hk
  split at hk
  next hm =>
    cases acc with
    | none => exact .inl ⟨(Option.some.inj hk).symm, hm⟩
    | some j =>
      dsimp only at hk
      split_ifs at hk
      · exact .inl ⟨(Option.some.inj hk).symm, hm⟩
      · exact .inr hk
  next => exact .inr hk

theorem allocateLargest_ok {r : Span}
    (h : a.allocateLargest size = .ok (r, a')) : size ≤ r.size ∧ ∃ i, r = (a.blocks i).span ∧
      Grants a a' i r := by
  unfold allocateLargest at h
  split at h
  · cases h
  · rename_i i hi
    dsimp only at h
    split_ifs at h with hs
    obtain ⟨rfl, rfl⟩ := Prod.mk.inj (Except.ok.inj h)
    obtain ⟨hle, hu⟩ := largestFreeBlock_some hi
    exact ⟨hs, i, rfl, hle, hu, rfl, le_rfl, .inr ⟨rfl, rfl⟩⟩

variable {up : Bool}

/-- `ExtendToLargest` absorbs record `i`, which adjoins the block on the chosen side, and the
point where they meet is not a 64 MB boundary. -/
theorem extendToLargest_ok {block r : Span}
    (h : a.extendToLargest block up = .ok (r, a')) :
    ∃ i, Grants a a' i (a.blocks i).span ∧ r.size = block.size + (a.blocks i).size ∧
      (if up then r.base = block.base ∧ (a.blocks i).base = block.stop ∧
          a.on64MBBoundary block.stop = false
        else r.base = (a.blocks i).base ∧ (a.blocks i).base + (a.blocks i).size = block.base ∧
          a.on64MBBoundary block.base = false) := by
  unfold extendToLargest at h
  cases up with
  | true =>
    simp only [if_true] at h
    split_ifs at h with hb
    split at h
    · cases h
    · rename_i i hi
      obtain ⟨rfl, rfl⟩ := Prod.mk.inj (Except.ok.inj h)
      have hp := List.find?_some hi
      simp only [Bool.and_eq_true, decide_eq_true_eq] at hp
      refine ⟨i, ⟨mem_indices.mp (List.mem_of_find?_eq_some hi), hp.1, rfl, le_rfl,
        .inr ⟨rfl, rfl⟩⟩, rfl, ?_⟩
      simp only [if_true, Span.stop]
      exact ⟨trivial, hp.2.symm, by simpa using (not_or.mp hb).1⟩
  | false =>
    simp only [Bool.false_eq_true, if_false] at h
    split_ifs at h with hb
    split at h
    · cases h
    · rename_i i hi
      obtain ⟨rfl, rfl⟩ := Prod.mk.inj (Except.ok.inj h)
      have hp := List.find?_some hi
      simp only [Bool.and_eq_true, decide_eq_true_eq] at hp
      refine ⟨i, ⟨mem_indices.mp (List.mem_of_find?_eq_some hi), hp.1, rfl, le_rfl,
        .inr ⟨rfl, rfl⟩⟩, rfl, ?_⟩
      simp only [Bool.false_eq_true, if_false]
      exact ⟨trivial, hp.2.symm, by simpa using (not_or.mp hb).1⟩

namespace Grants
variable {a a' : AllocatorSimple} {i : ℕ} {r : Span}

theorem eq_setBlock (h : Grants a a' i r) : ∃ b : AllocatorSimpleBlock, a' = a.setBlock i b ∧
    (b.inUse = true → 0 < b.size) ∧ ∀ x, hits x b + r.hits x = (a.blocks i).span.hits x := by
  have hcut : ∀ x, (a.blocks i).span.hits x = r.hits x +
      Span.hits ⟨(a.blocks i).base + r.size, (a.blocks i).size - r.size⟩ x := by
    intro x
    have hs : (a.blocks i).size = r.size + ((a.blocks i).size - r.size) := by
      have := h.size_le; omega
    have hr : r = ⟨(a.blocks i).base, r.size⟩ := by rw [← h.base_eq]
    unfold AllocatorSimpleBlock.span
    rw [hs, Span.hits_cut, ← hs, ← hr]
  rcases h.result with hr | ⟨hsz, hr⟩
  · refine ⟨_, hr, fun hu => ?_, fun x => ?_⟩
    · simp only [decide_eq_true_eq] at hu ⊢; omega
    · rw [hcut x]
      by_cases hz : (a.blocks i).size - r.size = 0
      · rw [hits_of_not_inUse (by simp [hz]),
          Span.hits_empty (r := ⟨_, (a.blocks i).size - r.size⟩) hz]
        omega
      · rw [hits_of_inUse (by simp [hz])]
        simp only [AllocatorSimpleBlock.span]; omega
  · refine ⟨_, hr, fun hu => absurd hu (by simp), fun x => ?_⟩
    rw [hcut x, hits_of_not_inUse rfl, Span.hits_empty (r := ⟨_, (a.blocks i).size - r.size⟩) (by simp [hsz])]
    omega

theorem coverage (h : Grants a a' i r) (hI : a.Indexed) (x : ℕ) :
    a'.coverage x + r.hits x = a.coverage x := by
  obtain ⟨b, rfl, -, hb⟩ := h.eq_setBlock
  have h1 := coverage_setBlock a (hI.lt h.index_le) b x
  rw [hits_of_inUse h.inUse, ← hb x] at h1
  omega

theorem indexed (h : Grants a a' i r) (hI : a.Indexed) : a'.Indexed := by
  obtain ⟨b, rfl, -, -⟩ := h.eq_setBlock
  exact indexed_setBlock hI h.index_le b

theorem nonEmpty (h : Grants a a' i r) (hN : a.NonEmpty) : a'.NonEmpty := by
  obtain ⟨b, rfl, hb, -⟩ := h.eq_setBlock
  exact nonEmpty_setBlock hN hb

theorem fields (h : Grants a a' i r) : a'.bufferSize = a.bufferSize ∧
    a'.segmentSize = a.segmentSize ∧ a'.physicalAddress = a.physicalAddress := by
  obtain ⟨b, rfl, -, -⟩ := h.eq_setBlock
  exact ⟨rfl, rfl, rfl⟩

end Grants

theorem extendToLargest_hits {block r : Span}
    (h : a.extendToLargest block up = .ok (r, a')) :
    ∃ i, Grants a a' i (a.blocks i).span ∧ ∀ x, r.hits x = block.hits x + (a.blocks i).span.hits x := by
  obtain ⟨i, hg, hs, hside⟩ := extendToLargest_ok h
  refine ⟨i, hg, fun x => ?_⟩
  cases up with
  | true =>
    obtain ⟨hb, hm, -⟩ := hside
    have hr : r = ⟨block.base, block.size + (a.blocks i).size⟩ := by rw [← hb, ← hs]
    rw [hr, Span.hits_cut]
    simp only [AllocatorSimpleBlock.span, hm, Span.stop]
  | false =>
    obtain ⟨hb, hm, -⟩ := hside
    have hr : r = ⟨(a.blocks i).base, (a.blocks i).size + block.size⟩ := by
      rw [← hb, Nat.add_comm, ← hs]
    rw [hr, Span.hits_cut, hm]
    exact Nat.add_comm _ _

/-! ### The scan of `Free` -/

namespace FreeScan
variable (a : AllocatorSimple) (s : FreeScan) (i : ℕ)

theorem step_cases :
    ((s.blocks i).inUse = false ∧
      s.step a i = { s with lowestFreeBlock := min s.lowestFreeBlock i }) ∨
    ((s.blocks i).inUse = true ∧ s.block + s.size = (s.blocks i).base ∧
      a.on64MBBoundary (s.blocks i).base = false ∧
      s.step a i = ⟨Function.update s.blocks i { s.blocks i with inUse := false },
        s.size + (s.blocks i).size, s.block, min s.lowestFreeBlock i, s.nextHighestUsedBlockIndex⟩) ∨
    ((s.blocks i).inUse = true ∧ s.block = (s.blocks i).base + (s.blocks i).size ∧
      a.on64MBBoundary s.block = false ∧
      s.step a i = ⟨Function.update s.blocks i { s.blocks i with inUse := false },
        s.size + (s.blocks i).size, (s.blocks i).base, min s.lowestFreeBlock i,
        s.nextHighestUsedBlockIndex⟩) ∨
    ((s.blocks i).inUse = true ∧
      (s.block + s.size = (s.blocks i).base → a.on64MBBoundary (s.blocks i).base = true) ∧
      (s.block = (s.blocks i).base + (s.blocks i).size → a.on64MBBoundary s.block = true) ∧
      s.step a i = { s with nextHighestUsedBlockIndex := i }) := by
  unfold step absorb
  by_cases hu : (s.blocks i).inUse = true
  · rw [if_pos hu]
    by_cases h1 : s.block + s.size = (s.blocks i).base ∧ (!a.on64MBBoundary (s.blocks i).base) = true
    · refine .inr (.inl ⟨hu, h1.1, by simpa using h1.2, ?_⟩)
      rw [if_pos h1]
      simp
    · rw [if_neg h1]
      by_cases h2 : s.block = (s.blocks i).base + (s.blocks i).size ∧ (!a.on64MBBoundary s.block) = true
      · refine .inr (.inr (.inl ⟨hu, h2.1, by simpa using h2.2, ?_⟩))
        rw [if_pos h2]
        simp
      · refine .inr (.inr (.inr ⟨hu, fun h => ?_, fun h => ?_, ?_⟩))
        · simpa [h] using h1
        · simpa [← h] using h2
        · rw [if_neg h2]
          simp [hu]
  · exact .inl ⟨by simpa using hu, by simp [hu]⟩

end FreeScan

/-- The state of the scan after the indices below `k`: `size` and `block` are the arguments of
`Free`, `low` the value read before the lock. -/
structure ScanInv (a : AllocatorSimple) (size block low k : ℕ) (s : FreeScan) : Prop where
  cover : ∀ x, total allocatorSimpleMaxBlocks (hits x) s.blocks + Span.hits ⟨s.block, s.size⟩ x =
    a.coverage x + Span.hits ⟨block, size⟩ x
  unseen : ∀ j, k ≤ j → s.blocks j = a.blocks j
  kept : ∀ j, (s.blocks j).inUse = true → s.blocks j = a.blocks j
  next : ∀ j, j < k → (s.blocks j).inUse = true → j ≤ s.nextHighestUsedBlockIndex
  next_lt : s.nextHighestUsedBlockIndex = 0 ∨ s.nextHighestUsedBlockIndex < k
  low_le : s.lowestFreeBlock ≤ low
  low_least : ∀ j, j < k → (s.blocks j).inUse = false → s.lowestFreeBlock ≤ j
  low_free : s.lowestFreeBlock = low ∨ (s.lowestFreeBlock < k ∧ (s.blocks s.lowestFreeBlock).inUse = false)
  grows : s.block ≤ block ∧ block + size ≤ s.block + s.size

theorem ScanInv.init (a : AllocatorSimple) (size block low : ℕ) :
    ScanInv a size block low 0 ⟨a.blocks, size, block, low, 0⟩ where
  cover _ := rfl
  unseen _ _ := rfl
  kept _ _ := rfl
  next _ h := by omega
  next_lt := .inl rfl
  low_le := le_rfl
  low_least _ h := by omega
  low_free := .inl rfl
  grows := ⟨le_rfl, le_rfl⟩

theorem total_clear {f : ℕ → AllocatorSimpleBlock} (hi : i < allocatorSimpleMaxBlocks)
    (hu : (f i).inUse = true) (x : ℕ) :
    total allocatorSimpleMaxBlocks (hits x) (Function.update f i { f i with inUse := false }) +
      (f i).span.hits x = total allocatorSimpleMaxBlocks (hits x) f := by
  have h := total_update hi (hits x) f { f i with inUse := false }
  rw [hits_of_inUse hu, hits_of_not_inUse rfl] at h
  omega

variable {s : FreeScan}

/-- One round in which record `k` is absorbed: the block grows by the record's span. -/
theorem ScanInv.absorbed (h : ScanInv a size block low k s) (hk : k < allocatorSimpleMaxBlocks)
    (hu : (s.blocks k).inUse = true) {size' block' : ℕ}
    (hgrow : ∀ x, Span.hits ⟨block', size'⟩ x = Span.hits ⟨s.block, s.size⟩ x + (s.blocks k).span.hits x)
    (hle : block' ≤ s.block ∧ s.block + s.size ≤ block' + size') :
    ScanInv a size block low (k + 1) ⟨Function.update s.blocks k { s.blocks k with inUse := false },
      size', block', min s.lowestFreeBlock k, s.nextHighestUsedBlockIndex⟩ where
  cover x := by
    have h1 := total_clear hk hu x
    have h2 := h.cover x
    have h3 := hgrow x
    dsimp only at h1 ⊢
    omega
  unseen j hj := by
    dsimp only
    rw [Function.update_of_ne (by omega)]
    exact h.unseen j (by omega)
  kept j hj := by
    dsimp only at hj ⊢
    by_cases hjk : j = k
    · subst hjk; simp at hj
    · rw [Function.update_of_ne hjk] at hj ⊢
      exact h.kept j hj
  next j hj hju := by
    dsimp only at hju ⊢
    by_cases hjk : j = k
    · subst hjk; simp at hju
    · rw [Function.update_of_ne hjk] at hju
      exact h.next j (by omega) hju
  next_lt := by have := h.next_lt; dsimp only; omega
  low_le := by have := h.low_le; dsimp only; omega
  low_least j hj hju := by
    dsimp only at hju ⊢
    by_cases hjk : j = k
    · omega
    · rw [Function.update_of_ne hjk] at hju
      have := h.low_least j (by omega) hju
      omega
  low_free := by
    dsimp only
    by_cases hm : s.lowestFreeBlock < k
    · rw [Nat.min_eq_left hm.le, Function.update_of_ne (by omega)]
      rcases h.low_free with h' | h'
      · exact .inl h'
      · exact .inr ⟨by omega, h'.2⟩
    · rw [Nat.min_eq_right (by omega)]
      exact .inr ⟨by omega, by simp⟩
  grows := by have := h.grows; dsimp only; omega

theorem ScanInv.step (h : ScanInv a size block low k s) (hk : k < allocatorSimpleMaxBlocks) :
    ScanInv a size block low (k + 1) (s.step a k) := by
  rcases FreeScan.step_cases a s k with ⟨hu, he⟩ | ⟨hu, hm, -, he⟩ | ⟨hu, hm, -, he⟩ | ⟨hu, -, -, he⟩
  · rw [he]
    exact {
      cover := h.cover
      unseen := fun j hj => h.unseen j (by omega)
      kept := h.kept
      next := fun j hj hju => by
        by_cases hjk : j = k
        · subst hjk; rw [hu] at hju; cases hju
        · exact h.next j (by omega) hju
      next_lt := by have := h.next_lt; dsimp only; omega
      low_le := by have := h.low_le; dsimp only; omega
      low_least := fun j hj hju => by
        dsimp only
        by_cases hjk : j = k
        · omega
        · have := h.low_least j (by omega) hju; omega
      low_free := by
        dsimp only
        by_cases hm : s.lowestFreeBlock < k
        · rw [Nat.min_eq_left hm.le]
          rcases h.low_free with h' | h'
          · exact .inl h'
          · exact .inr ⟨by omega, h'.2⟩
        · rw [Nat.min_eq_right (by omega)]
          exact .inr ⟨by omega, hu⟩
      grows := h.grows }
  · rw [he]
    refine h.absorbed hk hu (fun x => ?_) ⟨le_rfl, by omega⟩
    rw [Span.hits_cut]
    simp only [AllocatorSimpleBlock.span, hm]
  · rw [he]
    refine h.absorbed hk hu (fun x => ?_) ⟨by omega, by omega⟩
    rw [Nat.add_comm, Span.hits_cut, ← hm]
    simp only [AllocatorSimpleBlock.span]; omega
  · rw [he]
    exact {
      cover := h.cover
      unseen := fun j hj => h.unseen j (by omega)
      kept := h.kept
      next := fun j hj hju => by
        dsimp only
        by_cases hjk : j = k
        · omega
        · rcases h.next_lt with h' | h' <;> omega
      next_lt := .inr (by dsimp only; omega)
      low_le := h.low_le
      low_least := fun j hj hju => by
        by_cases hjk : j = k
        · subst hjk; rw [hu] at hju; cases hju
        · exact h.low_least j (by omega) hju
      low_free := by
        rcases h.low_free with h' | h'
        · exact .inl h'
        · exact .inr ⟨by dsimp only; omega, h'.2⟩
      grows := h.grows }

theorem freeScan_induction {P : ℕ → FreeScan → Prop}
    (h0 : P 0 ⟨a.blocks, size, block, low, 0⟩)
    (hstep : ∀ k s, k ≤ a.highestUsedBlockIndex → P k s → P (k + 1) (s.step a k)) :
    P (a.highestUsedBlockIndex + 1) (a.freeScan size block low) := by
  have main : ∀ k, k ≤ a.highestUsedBlockIndex + 1 →
      P k ((List.range k).foldl (FreeScan.step a) ⟨a.blocks, size, block, low, 0⟩) := by
    intro k
    induction k with
    | zero => intro _; exact h0
    | succ k ih =>
      intro hk
      rw [List.range_succ, List.foldl_append]
      exact hstep k _ (by omega) (ih (by omega))
  exact main _ le_rfl

theorem freeScan_inv (hI : a.Indexed) (size block low : ℕ) :
    ScanInv a size block low (a.highestUsedBlockIndex + 1) (a.freeScan size block low) :=
  freeScan_induction (ScanInv.init a size block low) fun _ _ hk h => h.step (hI.lt hk)

/-! ### The record `Free` writes -/

/-- Record `j` adjoins the block to be freed, away from a 64 MB boundary. -/
def Adjoins (a : AllocatorSimple) (size block j : ℕ) : Prop :=
  (a.blocks j).inUse = true ∧
    ((block + size = (a.blocks j).base ∧ a.on64MBBoundary (a.blocks j).base = false) ∨
      (block = (a.blocks j).base + (a.blocks j).size ∧ a.on64MBBoundary block = false))

instance (a : AllocatorSimple) (size block j : ℕ) : Decidable (a.Adjoins size block j) := by
  unfold Adjoins; infer_instance

/-- `Free` has a record to write: an unused or adjoining one not above the index it read
before the lock, or that index itself, still above the used part of the table. -/
def SlotAvailable (a : AllocatorSimple) (size block low : ℕ) : Prop :=
  (∃ j ≤ a.highestUsedBlockIndex, j ≤ low ∧ ((a.blocks j).inUse = false ∨ a.Adjoins size block j)) ∨
    (a.highestUsedBlockIndex < low ∧ low < allocatorSimpleMaxBlocks)

instance (a : AllocatorSimple) (size block low : ℕ) : Decidable (a.SlotAvailable size block low) := by
  unfold SlotAvailable; infer_instance

/-- A record that adjoins the freed block is absorbed when the scan reaches it: the block can
only have grown away from it, since no address is covered twice. -/
theorem adjoins_absorbed (hI : a.Indexed) (hN : a.NonEmpty)
    {size block low j : ℕ} (hone : ∀ x, a.coverage x + Span.hits ⟨block, size⟩ x ≤ 1)
    (hj : j ≤ a.highestUsedBlockIndex) (hadj : a.Adjoins size block j) :
    ((a.freeScan size block low).blocks j).inUse = false := by
  have main : ScanInv a size block low (a.highestUsedBlockIndex + 1) (a.freeScan size block low) ∧
      (j < a.highestUsedBlockIndex + 1 → ((a.freeScan size block low).blocks j).inUse = false) := by
    refine freeScan_induction (P := fun k s => ScanInv a size block low k s ∧
      (j < k → (s.blocks j).inUse = false)) ⟨ScanInv.init a size block low, fun h => by omega⟩ ?_
    rintro k s hk ⟨hs, hab⟩
    have hkl := hI.lt hk
    refine ⟨hs.step hkl, fun hjk => ?_⟩
    have hcount : ∀ x, (s.blocks k).inUse = true →
        (s.blocks k).span.hits x + Span.hits ⟨s.block, s.size⟩ x ≤ 1 := by
      intro x hu
      have h1 := hs.cover x
      have h2 := hone x
      have h3 := le_total hkl (hits x) s.blocks
      rw [hits_of_inUse hu] at h3
      omega
    rcases FreeScan.step_cases a s k with ⟨hu, he⟩ | ⟨hu, -, -, he⟩ | ⟨hu, -, -, he⟩ | ⟨hu, hn1, hn2, he⟩
    · rw [he]
      rcases Nat.lt_succ_iff_lt_or_eq.mp hjk with hlt | rfl
      · exact hab hlt
      · exact hu
    · rw [he]
      dsimp only
      by_cases hjk' : j = k
      · subst hjk'; simp
      · rw [Function.update_of_ne hjk']; exact hab (by omega)
    · rw [he]
      dsimp only
      by_cases hjk' : j = k
      · subst hjk'; simp
      · rw [Function.update_of_ne hjk']; exact hab (by omega)
    · rcases Nat.lt_succ_iff_lt_or_eq.mp hjk with hlt | rfl
      · rw [he]; exact hab hlt
      · exfalso
        have hb : s.blocks j = a.blocks j := hs.unseen j le_rfl
        rw [hb] at hn1 hn2 hu
        have hpos := hN j hu
        obtain ⟨hg1, hg2⟩ := hs.grows
        rcases hadj.2 with ⟨hm, hnb⟩ | ⟨hm, hnb⟩
        · have htop : s.block + s.size ≠ (a.blocks j).base := fun h => by
            rw [hn1 h] at hnb; cases hnb
          have h1 := hcount (a.blocks j).base (by rw [hb]; exact hu)
          have e1 : (a.blocks j).span.hits (a.blocks j).base = 1 :=
            Span.hits_eq_one.mpr ⟨le_rfl, Nat.lt_add_of_pos_right hpos⟩
          have e2 : Span.hits ⟨s.block, s.size⟩ (a.blocks j).base = 1 :=
            Span.hits_eq_one.mpr ⟨by dsimp only; omega, by dsimp only; omega⟩
          rw [hb, e1, e2] at h1
          omega
        · have hbot : s.block ≠ (a.blocks j).base + (a.blocks j).size := fun h => by
            rw [← hm] at h; rw [h] at hn2; rw [hn2 (h ▸ hm)] at hnb; cases hnb
          have h1 := hcount (block - 1) (by rw [hb]; exact hu)
          have e1 : (a.blocks j).span.hits (block - 1) = 1 :=
            Span.hits_eq_one.mpr (by simp only [AllocatorSimpleBlock.span]; omega)
          have e2 : Span.hits ⟨s.block, s.size⟩ (block - 1) = 1 :=
            Span.hits_eq_one.mpr (by dsimp only; omega)
          rw [hb, e1, e2] at h1
          omega
  exact main.2 (by omega)

theorem SlotAvailable.lowestFreeBlock (hI : a.Indexed) (hN : a.NonEmpty)
    (hone : ∀ x, a.coverage x + Span.hits ⟨block, size⟩ x ≤ 1)
    (h : a.SlotAvailable size block low) :
    (a.freeScan size block low).lowestFreeBlock < allocatorSimpleMaxBlocks ∧
      ((a.freeScan size block low).blocks (a.freeScan size block low).lowestFreeBlock).inUse = false := by
  have hs := freeScan_inv hI size block low
  have hH := hI.highest_lt
  rcases h with ⟨j, hj, hjlow, hfree⟩ | ⟨hlow, hlow'⟩
  · have hju : ((a.freeScan size block low).blocks j).inUse = false := by
      rcases hfree with hf | hf
      · by_contra hne
        rw [Bool.not_eq_false] at hne
        rw [hs.kept j hne, hf] at hne
        cases hne
      · exact adjoins_absorbed hI hN hone hj hf
    have hle := hs.low_least j (by omega) hju
    refine ⟨by omega, ?_⟩
    rcases hs.low_free with hl | hl
    · have : (a.freeScan size block low).lowestFreeBlock = j := by omega
      rw [this]; exact hju
    · exact hl.2
  · have hle := hs.low_le
    refine ⟨by omega, ?_⟩
    rcases hs.low_free with hl | hl
    · rw [hl, hs.unseen low (by omega)]
      by_contra hne
      rw [Bool.not_eq_false] at hne
      have := hI.index_le low hne
      omega
    · exact hl.2

/-- What the locked section of `Free` leaves behind when it has a record to write. -/
theorem freeLocked_ok (hI : a.Indexed) (hN : a.NonEmpty)
    (hsize : 0 < size) (hone : ∀ x, a.coverage x + Span.hits ⟨block, size⟩ x ≤ 1)
    (h : a.SlotAvailable size block low) :
    ∃ a', a.freeLocked size block low = (none, a') ∧ a'.Indexed ∧ a'.NonEmpty ∧
      (a'.bufferSize = a.bufferSize ∧ a'.segmentSize = a.segmentSize ∧
        a'.physicalAddress = a.physicalAddress) ∧
      ∀ x, a'.coverage x = a.coverage x + Span.hits ⟨block, size⟩ x := by
  have hs := freeScan_inv hI size block low
  obtain ⟨hlt, hu⟩ := h.lowestFreeBlock hI hN hone
  have hH := hI.highest_lt
  have hg := hs.grows
  unfold freeLocked
  generalize a.freeScan size block low = s at *
  rw [if_neg (by omega)]
  refine ⟨_, rfl, ⟨?_, ?_⟩, ?_, ⟨rfl, rfl, rfl⟩, ?_⟩
  · have := hs.next_lt
    dsimp only
    omega
  · intro j hj
    dsimp only at hj ⊢
    by_cases hjl : j = s.lowestFreeBlock
    · omega
    · rw [Function.update_of_ne hjl] at hj
      have hja := hs.kept j hj
      rw [hja] at hj
      have := hI.index_le j hj
      have := hs.next j (by omega) (by rw [hja]; exact hj)
      omega
  · intro j hj
    dsimp only at hj ⊢
    by_cases hjl : j = s.lowestFreeBlock
    · rw [hjl, Function.update_self]
      dsimp only
      omega
    · rw [Function.update_of_ne hjl] at hj ⊢
      have hja := hs.kept j hj
      rw [hja] at hj ⊢
      exact hN j hj
  · intro x
    have h1 := total_update hlt (hits x) s.blocks ⟨true, s.size, s.block⟩
    rw [hits_of_not_inUse hu, hits_of_inUse rfl] at h1
    have h2 := hs.cover x
    simp only [coverage, AllocatorSimpleBlock.span] at h1 h2 ⊢
    omega

end Player2.AllocatorSimple

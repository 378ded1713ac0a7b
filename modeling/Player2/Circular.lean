import Mathlib.Data.List.Basic
import Mathlib.Data.List.Range
import Mathlib.Logic.Function.Basic

/-! # Circular arrays

A circular array of `n` slots has the index of the first element held, `next`, and the index of the slot
behind the last one, `last`; it is empty when the two are equal, so it can hold `n - 1` elements.  `held`
are the elements, in the order in which they were put in.  Putting in the `n`-th element makes the array
empty. -/

namespace Circular

variable {α : Type*} {n : ℕ}

/-- The index behind `i`. -/
def advance (n i : ℕ) : ℕ := if i + 1 = n then 0 else i + 1

/-- The index `k` slots behind `first`. -/
def index (n first k : ℕ) : ℕ := if first + k < n then first + k else first + k - n

/-- The slots, and the two indices. -/
structure Ring (α : Type*) where
  slots : ℕ → α
  next : ℕ
  last : ℕ

namespace Ring

/-- Both indices are indices of slots. -/
structure Fits (n : ℕ) (r : Ring α) : Prop where
  next_lt : r.next < n
  last_lt : r.last < n

/-- An element is put in. -/
def push (n : ℕ) (r : Ring α) (a : α) : Ring α :=
  { r with slots := Function.update r.slots r.last a, last := advance n r.last }

/-- The first element goes. -/
def drop (n : ℕ) (r : Ring α) : Ring α := { r with next := advance n r.next }

/-- The first element is overwritten where it is. -/
def overwrite (r : Ring α) (a : α) : Ring α :=
  { r with slots := Function.update r.slots r.next a }

/-- The number of elements held. -/
def count (n : ℕ) (r : Ring α) : ℕ :=
  if r.next ≤ r.last then r.last - r.next else r.last + n - r.next

/-- The elements held. -/
def held (n : ℕ) (r : Ring α) : List α :=
  (List.range (r.count n)).map fun k => r.slots (index n r.next k)

variable {r : Ring α}

@[simp] theorem length_held (r : Ring α) : (r.held n).length = r.count n := by
  rw [held, List.length_map, List.length_range]

theorem count_lt (h : r.Fits n) : r.count n < n := by
  have hnext := h.next_lt
  have hlast := h.last_lt
  unfold count
  split <;> omega

theorem push_fits (h : r.Fits n) (a : α) : (r.push n a).Fits n := by
  refine ⟨h.next_lt, ?_⟩
  have hlast := h.last_lt
  change advance n r.last < n
  unfold advance
  split <;> omega

theorem drop_fits (h : r.Fits n) : (r.drop n).Fits n := by
  refine ⟨?_, h.last_lt⟩
  have hnext := h.next_lt
  change advance n r.next < n
  unfold advance
  split <;> omega

theorem held_eq_nil_iff (h : r.Fits n) : r.held n = [] ↔ r.next = r.last := by
  rw [← List.length_eq_zero_iff, length_held]
  have hnext := h.next_lt
  unfold count
  split <;> omega

/-- The slot behind the last element is none of the elements'. -/
theorem index_ne_last (h : r.Fits n) {k : ℕ} (hk : k < r.count n) : index n r.next k ≠ r.last := by
  have hnext := h.next_lt
  unfold count at hk
  unfold index
  split at hk <;> split <;> omega

theorem index_count (h : r.Fits n) : index n r.next (r.count n) = r.last := by
  have hnext := h.next_lt
  have hlast := h.last_lt
  unfold index count
  split <;> split <;> omega

theorem count_push (h : r.Fits n) (a : α) (hroom : r.count n + 1 < n) :
    (r.push n a).count n = r.count n + 1 := by
  have hnext := h.next_lt
  have hlast := h.last_lt
  unfold count at hroom ⊢
  change (if r.next ≤ advance n r.last then _ else _) = _
  unfold advance
  split at hroom <;> split <;> split <;> simp only [push, advance] <;> split <;> omega

/-- While there is room, an element goes behind the others. -/
theorem held_push (h : r.Fits n) (a : α) (hroom : r.count n + 1 < n) :
    (r.push n a).held n = r.held n ++ [a] := by
  unfold held
  rw [count_push h a hroom, List.range_succ, List.map_append, List.map_singleton]
  congr 1
  · refine List.map_congr_left fun k hk => ?_
    exact Function.update_of_ne (index_ne_last h (List.mem_range.mp hk)) ..
  · change [Function.update r.slots r.last a (index n r.next (r.count n))] = [a]
    rw [index_count h, Function.update_self]

theorem count_drop (h : r.Fits n) (hne : r.next ≠ r.last) : (r.drop n).count n + 1 = r.count n := by
  have hnext := h.next_lt
  have hlast := h.last_lt
  unfold count drop advance
  simp only
  split <;> split <;> split <;> omega

theorem index_advance {first k : ℕ} (_ : first < n) (hk : k + 1 < n) :
    index n (advance n first) k = index n first (k + 1) := by
  unfold index advance
  split <;> split <;> split <;> omega

/-- The first element, and the others. -/
theorem held_drop (h : r.Fits n) (hne : r.next ≠ r.last) :
    r.held n = r.slots r.next :: (r.drop n).held n := by
  have hcount := count_drop h hne
  have hlt := count_lt h
  have hnext := h.next_lt
  unfold held
  rw [← hcount, List.range_succ_eq_map, List.map_cons, List.map_map]
  congr 1
  · unfold index
    rw [if_pos (by omega), Nat.add_zero]
  · refine List.map_congr_left fun k hk => ?_
    have hk' := List.mem_range.mp hk
    change r.slots (index n r.next (k + 1)) = r.slots (index n (advance n r.next) k)
    rw [index_advance hnext (by omega)]

/-- What is written behind the last element does not show. -/
theorem held_write_last (h : r.Fits n) (a : α) :
    ({ r with slots := Function.update r.slots r.last a } : Ring α).held n = r.held n := by
  refine List.map_congr_left fun k hk => ?_
  exact Function.update_of_ne (index_ne_last h (List.mem_range.mp hk)) ..

/-- The index behind the last element is the first one's exactly if one slot is left. -/
theorem advance_last_eq_iff (h : r.Fits n) : advance n r.last = r.next ↔ r.count n + 1 = n := by
  have hnext := h.next_lt
  have hlast := h.last_lt
  unfold advance count
  split <;> split <;> omega

/-- What is written over the first element does not show behind it. -/
theorem held_overwrite_drop (h : r.Fits n) (hne : r.next ≠ r.last) (a : α) :
    ((r.overwrite a).drop n).held n = (r.drop n).held n := by
  have hcount := count_drop h hne
  have hlt := count_lt h
  refine List.map_congr_left fun k hk => ?_
  have hk' : k < (r.drop n).count n := List.mem_range.mp hk
  refine Function.update_of_ne ?_ ..
  have hnext := h.next_lt
  change index n (advance n r.next) k ≠ r.next
  rw [index_advance hnext (by omega)]
  unfold index
  split <;> omega

end Ring

end Circular

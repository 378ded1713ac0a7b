import Mathlib.Data.List.Basic

/-! # Two lists taken in turn

`alternating as bs` takes the elements of two lists in turn, the first one of `as` first; when one
list is used up the rest of the other follows.  No element is lost or repeated (`alternating_perm`).

`advance p xs` moves a cursor on `xs` to the next element with `p`.  What a cursor still has before it
are the elements with `p` from its place on (`filter_drop_advance`), of which the one it stops at is
the first (`filter_drop_of_advance_lt`). -/

namespace List

variable {α : Type*}

/-- Elements of two lists in turn, then the rest of the longer one. -/
def alternating : List α → List α → List α
  | [], bs => bs
  | a :: as, bs => a :: alternating bs as
termination_by as bs => as.length + bs.length

@[simp] theorem alternating_nil_left (bs : List α) : alternating [] bs = bs := by
  rw [alternating]

@[simp] theorem alternating_nil_right (as : List α) : alternating as [] = as := by
  cases as with
  | nil => rw [alternating]
  | cons a as => rw [alternating, alternating_nil_left]

theorem alternating_cons (a : α) (as bs : List α) :
    alternating (a :: as) bs = a :: alternating bs as := by
  rw [alternating]

theorem alternating_cons_cons (a b : α) (as bs : List α) :
    alternating (a :: as) (b :: bs) = a :: b :: alternating as bs := by
  rw [alternating_cons, alternating_cons]

theorem alternating_perm (as bs : List α) : (alternating as bs).Perm (as ++ bs) := by
  induction as, bs using alternating.induct with
  | case1 bs => simp
  | case2 a as bs ih =>
    rw [alternating_cons]
    exact (ih.trans perm_append_comm).cons a

/-! ### Cursors -/

/-- Move a cursor to the next element with `p`, or to the end; `n` bounds the moves. -/
def advance (p : α → Bool) (xs : List α) : ℕ → ℕ → ℕ
  | 0, i => i
  | n + 1, i =>
    if h : i < xs.length then if p xs[i] then i else advance p xs n (i + 1) else i

theorem le_advance (p : α → Bool) (xs : List α) (n i : ℕ) : i ≤ advance p xs n i := by
  induction n generalizing i with
  | zero => exact Nat.le_refl i
  | succ n ih =>
    unfold advance
    split
    · split
      · exact Nat.le_refl i
      · exact Nat.le_trans (Nat.le_succ i) (ih (i + 1))
    · exact Nat.le_refl i

theorem filter_drop_advance (p : α → Bool) (xs : List α) (n i : ℕ) :
    (xs.drop (advance p xs n i)).filter p = (xs.drop i).filter p := by
  induction n generalizing i with
  | zero => rfl
  | succ n ih =>
    unfold advance
    split
    next h =>
      split
      · rfl
      next hp =>
        rw [ih, drop_eq_getElem_cons h, filter_cons_of_neg hp]
    · rfl

theorem advance_stop (p : α → Bool) (xs : List α) (n i : ℕ) (hn : xs.length ≤ i + n)
    (h : advance p xs n i < xs.length) : p xs[advance p xs n i] = true := by
  induction n generalizing i with
  | zero =>
    have hi : i < xs.length := h
    omega
  | succ n ih =>
    by_cases hi : i < xs.length
    · by_cases hp : p xs[i] = true
      · have e : advance p xs (n + 1) i = i := by simp only [advance, hi, hp, dite_true, if_true]
        simp only [e]
        exact hp
      · have e : advance p xs (n + 1) i = advance p xs n (i + 1) := by
          simp only [advance, hi, hp, dite_true]
          rfl
        simp only [e] at h ⊢
        exact ih (i + 1) (by omega) h
    · have e : advance p xs (n + 1) i = i := by simp only [advance, hi, dite_false]
      exact absurd (e ▸ h) hi

theorem filter_drop_of_advance_lt (p : α → Bool) (xs : List α) (n i : ℕ) (hn : xs.length ≤ i + n)
    (h : advance p xs n i < xs.length) :
    (xs.drop i).filter p =
      xs[advance p xs n i] :: (xs.drop (advance p xs n i + 1)).filter p := by
  rw [← filter_drop_advance p xs n i, drop_eq_getElem_cons h,
    filter_cons_of_pos (advance_stop p xs n i hn h)]

theorem filter_drop_of_le_advance (p : α → Bool) (xs : List α) (n i : ℕ)
    (h : xs.length ≤ advance p xs n i) : (xs.drop i).filter p = [] := by
  rw [← filter_drop_advance p xs n i, drop_eq_nil_of_le h, filter_nil]

end List

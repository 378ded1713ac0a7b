import Mathlib.Algebra.Order.Floor.Ring
import Mathlib.Algebra.Order.Round
import Mathlib.Data.Int.ConditionallyCompleteOrder
import Mathlib.Tactic.Linarith

/-! # Rounding on both sides of zero

A rule that rounds the numbers that are not negative is extended to the negative ones by symmetry
(`symmetric`), as a machine does that rounds the absolute value and keeps the sign.  Three rules are used:
the floor, which gives truncation (`towardZero`), rounding to the nearest integer, the half going away
from zero (`nearest`), and the ceiling (`awayFromZero`).  What is known of the rule on one side (how far it
moves a number, that it keeps the order, that it fixes the integers) holds on both. -/

namespace Rounding

variable {K : Type*} [Field K] [LinearOrder K] [IsStrictOrderedRing K]

/-- A rule for the numbers that are not negative, extended by symmetry. -/
def symmetric (f : K → ℤ) (x : K) : ℤ := if x < 0 then -f (-x) else f x

variable {f : K → ℤ} {x : K}

omit [IsStrictOrderedRing K] in
theorem symmetric_of_nonneg (h : 0 ≤ x) : symmetric f x = f x := if_neg (not_lt.mpr h)

theorem symmetric_neg (hf : f 0 = 0) (x : K) : symmetric f (-x) = -symmetric f x := by
  unfold symmetric
  rcases lt_trichotomy x 0 with h | rfl | h
  · rw [if_neg (by linarith), if_pos h, neg_neg]
  · simp [hf]
  · rw [if_pos (by linarith), if_neg (by linarith), neg_neg]

omit [IsStrictOrderedRing K] in
theorem symmetric_intCast (hf : ∀ n : ℤ, f n = n) (n : ℤ) : symmetric f (n : K) = n := by
  unfold symmetric
  split
  · rw [← Int.cast_neg, hf, neg_neg]
  · exact hf n

theorem abs_symmetric_sub {e : K} (hf : ∀ x, 0 ≤ x → |(f x : K) - x| ≤ e) (x : K) :
    |(symmetric f x : K) - x| ≤ e := by
  unfold symmetric
  split
  next h =>
    have hx := hf (-x) (by linarith)
    rwa [sub_neg_eq_add, ← abs_neg, neg_add, ← sub_eq_add_neg, ← Int.cast_neg] at hx
  next h => exact hf x (not_lt.mp h)

theorem symmetric_mono (hpos : ∀ x, 0 ≤ x → 0 ≤ f x)
    (hmono : ∀ x y, 0 ≤ x → x ≤ y → f x ≤ f y) : Monotone (symmetric f) := by
  intro x y hxy
  unfold symmetric
  split
  next hx =>
    have h1 := hpos (-x) (by linarith)
    split
    next hy =>
      have h2 := hmono (-y) (-x) (by linarith) (by linarith)
      omega
    next hy =>
      have h2 := hpos y (not_lt.mp hy)
      omega
  next hx =>
    have hx := not_lt.mp hx
    rw [if_neg (by linarith)]
    exact hmono x y hx hxy

theorem symmetric_between {f g : K → ℤ} (hfg : ∀ x, 0 ≤ x → f x ≤ g x) (hf : ∀ x, 0 ≤ x → 0 ≤ f x) (x : K) :
    min 0 (symmetric g x) ≤ symmetric f x ∧ symmetric f x ≤ max 0 (symmetric g x) := by
  unfold symmetric
  split
  next h =>
    have h1 := hfg (-x) (by linarith)
    have h2 := hf (-x) (by linarith)
    omega
  next h =>
    have h1 := hfg x (not_lt.mp h)
    have h2 := hf x (not_lt.mp h)
    omega

variable [FloorRing K]

/-- Truncation. -/
def towardZero (x : K) : ℤ := symmetric Int.floor x

/-- The nearest integer, the half going away from zero. -/
def nearest (x : K) : ℤ := symmetric round x

/-- The next integer away from zero. -/
def awayFromZero (x : K) : ℤ := symmetric Int.ceil x

theorem towardZero_neg (x : K) : towardZero (-x) = -towardZero x := symmetric_neg Int.floor_zero x

theorem towardZero_intCast (n : ℤ) : towardZero (n : K) = n := symmetric_intCast Int.floor_intCast n

theorem nearest_intCast (n : ℤ) : nearest (n : K) = n := symmetric_intCast round_intCast n

theorem nearest_mono : Monotone (nearest : K → ℤ) := by
  have hround : ∀ x y : K, x ≤ y → round x ≤ round y := by
    intro x y h
    rw [round_eq, round_eq]
    exact Int.floor_le_floor (by linarith)
  refine symmetric_mono (fun x h => ?_) fun x y _ h => hround x y h
  have h0 := hround 0 x h
  rwa [round_zero] at h0

theorem abs_towardZero_sub_lt (x : K) : |(towardZero x : K) - x| < 1 := by
  unfold towardZero symmetric
  rw [abs_lt]
  split
  · have h1 := Int.floor_le (-x)
    have h2 := Int.lt_floor_add_one (-x)
    push_cast
    constructor <;> linarith
  · have h1 := Int.floor_le x
    have h2 := Int.lt_floor_add_one x
    constructor <;> linarith

theorem towardZero_lt {n : ℤ} (hn : 0 < n) (h : x < n) : towardZero x < n := by
  unfold towardZero symmetric
  split
  next hx =>
    have h0 := Int.floor_nonneg.mpr (show 0 ≤ -x by linarith)
    omega
  next => exact Int.floor_lt.mpr h

theorem lt_towardZero {n : ℤ} (hn : n < 0) (h : (n : K) < x) : n < towardZero x := by
  have hneg : towardZero (-x) < -n := towardZero_lt (by omega) (by push_cast; linarith)
  rw [towardZero_neg] at hneg
  omega

theorem abs_nearest_sub_le (x : K) : |(nearest x : K) - x| ≤ 1 / 2 := by
  refine abs_symmetric_sub (fun x _ => ?_) x
  rw [abs_sub_comm]
  exact abs_sub_round x

theorem abs_towardZero_le (x : K) : |(towardZero x : K)| ≤ |x| := by
  have hpos : ∀ y : K, 0 ≤ y → |(towardZero y : K)| ≤ |y| := by
    intro y hy
    unfold towardZero
    rw [symmetric_of_nonneg hy, abs_of_nonneg hy, abs_of_nonneg (by exact_mod_cast Int.floor_nonneg.mpr hy)]
    exact Int.floor_le y
  rcases le_total 0 x with h | h
  · exact hpos x h
  · have hneg := hpos (-x) (by linarith)
    rwa [towardZero_neg, Int.cast_neg, abs_neg, abs_neg] at hneg

theorem towardZero_between (x : K) :
    min 0 (awayFromZero x) ≤ towardZero x ∧ towardZero x ≤ max 0 (awayFromZero x) :=
  symmetric_between (fun x _ => Int.floor_le_ceil x) (fun _ h => Int.floor_nonneg.mpr h) x

theorem nearest_between (x : K) :
    min 0 (awayFromZero x) ≤ nearest x ∧ nearest x ≤ max 0 (awayFromZero x) := by
  refine symmetric_between (fun x _ => ?_) (fun x h => ?_) x
  · have h1 := Int.le_ceil x
    have h2 : round x < ⌈x⌉ + 1 := by
      rw [round_eq, Int.floor_lt]
      push_cast
      linarith
    omega
  · rw [round_eq]
    exact Int.floor_nonneg.mpr (by linarith)

end Rounding

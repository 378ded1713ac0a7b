import Mathlib.Algebra.BigOperators.Group.List.Basic
import Mathlib.Data.Nat.ModEq

/-! # Sums over a sliding window

A circular table of `n` slots keeps the last `n` values of a sequence: the value that is number `count` goes into
slot `count % n`.  The sum of the last `m` values, `m ≤ n`, follows the sequence when the value that leaves the
window is taken off and the new one is put on; `Holds.leaving` says where the table has the former. -/

namespace SlidingWindow

variable {α : Type*} [AddCommMonoid α]

/-- The table has the last `n` of `count` values, of which `latest` is the list, the newest first. -/
def Holds (n count : ℕ) (slots : ℕ → α) (latest : List α) : Prop :=
  ∀ k < n, slots ((count + (n - 1 - k)) % n) = latest.getD k 0

variable {n m count : ℕ} {slots : ℕ → α} {latest : List α}

theorem add_mod_ne {d : ℕ} (hd : 0 < d) (hn : d < n) : (count + d) % n ≠ count % n := by
  intro h
  have hmod : d ≡ 0 [MOD n] := Nat.ModEq.add_left_cancel' count h
  exact absurd (Nat.le_of_dvd hd ((Nat.modEq_zero_iff_dvd).mp hmod)) (by omega)

theorem Holds.push (h : Holds n count slots latest) (a : α) :
    Holds n (count + 1) (Function.update slots (count % n) a) (a :: latest) := by
  intro k hk
  cases k with
  | zero =>
    have hslot : (count + 1 + (n - 1 - 0)) % n = count % n := by
      rw [show count + 1 + (n - 1 - 0) = count + n by omega, Nat.add_mod_right]
    rw [hslot, Function.update_self, List.getD_cons_zero]
  | succ k =>
    have hslot : count + 1 + (n - 1 - (k + 1)) = count + (n - 1 - k) := by omega
    rw [hslot, Function.update_of_ne (add_mod_ne (by omega) (by omega)), List.getD_cons_succ]
    exact h k (by omega)

theorem Holds.leaving (h : Holds n count slots latest) (hm : 0 < m) (hmn : m ≤ n) :
    slots ((count + (n - m)) % n) = latest.getD (m - 1) 0 := by
  rw [← h (m - 1) (by omega)]
  congr 3
  omega

theorem sum_take_succ (l : List α) (k : ℕ) : (l.take (k + 1)).sum = (l.take k).sum + l.getD k 0 := by
  induction l generalizing k with
  | nil => simp
  | cons a l ih =>
    cases k with
    | zero => simp
    | succ k =>
      rw [List.take_succ_cons, List.sum_cons, ih, List.take_succ_cons, List.sum_cons, List.getD_cons_succ,
        add_assoc]

theorem sum_window (l : List α) (a : α) (hm : 0 < m) :
    (l.take m).sum = (l.take (m - 1)).sum + l.getD (m - 1) 0 ∧
      ((a :: l).take m).sum = a + (l.take (m - 1)).sum := by
  obtain ⟨k, rfl⟩ : ∃ k, m = k + 1 := ⟨m - 1, by omega⟩
  exact ⟨sum_take_succ l k, List.sum_cons⟩

end SlidingWindow

import Mathlib.Data.Nat.Bitwise

/-! # Rounding up to a power of two

A word is rounded up to a multiple of `2 ^ k` by adding `2 ^ k - 1` and clearing the last `k` bits.  As long
as the sum does not wrap this is `roundUp k` (`toNat_add_and`), the least multiple that is not smaller. -/

namespace Alignment

/-- The least multiple of `2 ^ k` from `n` on. -/
def roundUp (k n : ℕ) : ℕ := (n + (2 ^ k - 1)) / 2 ^ k * 2 ^ k

theorem le_roundUp (k n : ℕ) : n ≤ roundUp k n := by
  have h := Nat.div_add_mod (n + (2 ^ k - 1)) (2 ^ k)
  unfold roundUp
  rw [Nat.mul_comm] at h
  omega

theorem roundUp_lt (k n : ℕ) : roundUp k n < n + 2 ^ k := by
  have h := Nat.div_mul_le_self (n + (2 ^ k - 1)) (2 ^ k)
  have hpos := Nat.two_pow_pos k
  unfold roundUp
  omega

theorem two_pow_dvd_roundUp (k n : ℕ) : 2 ^ k ∣ roundUp k n := Dvd.intro_left _ rfl

theorem roundUp_eq_self_iff {k n : ℕ} : roundUp k n = n ↔ 2 ^ k ∣ n := by
  constructor
  · intro h
    rw [← h]
    exact two_pow_dvd_roundUp k n
  · rintro ⟨m, rfl⟩
    have hpos := Nat.two_pow_pos k
    unfold roundUp
    rw [Nat.mul_add_div hpos, Nat.div_eq_of_lt (by omega), Nat.add_zero, Nat.mul_comm]

theorem roundUp_mono {k m n : ℕ} (h : m ≤ n) : roundUp k m ≤ roundUp k n :=
  Nat.mul_le_mul_right _ (Nat.div_le_div_right (by omega))

theorem and_shiftLeft_mask (n k m : ℕ) : n &&& (2 ^ m - 1) <<< k = (n >>> k % 2 ^ m) <<< k := by
  apply Nat.eq_of_testBit_eq
  intro i
  by_cases hi : k ≤ i
  · simp [hi, Nat.add_sub_cancel' hi, Bool.and_comm]
  · simp [hi]

theorem toNat_and {k : ℕ} {mask : UInt32} (hk : k ≤ 32) (hmask : mask.toNat = (2 ^ (32 - k) - 1) <<< k)
    (x : UInt32) : (x &&& mask).toNat = x.toNat / 2 ^ k * 2 ^ k := by
  have hlt : x.toNat / 2 ^ k < 2 ^ (32 - k) := by
    rw [Nat.div_lt_iff_lt_mul (Nat.two_pow_pos k), ← Nat.pow_add, Nat.sub_add_cancel hk]
    exact x.toNat_lt
  rw [UInt32.toNat_and, hmask, and_shiftLeft_mask, Nat.shiftRight_eq_div_pow, Nat.mod_eq_of_lt hlt,
    Nat.shiftLeft_eq]

theorem toNat_add_and {k : ℕ} {low mask : UInt32} (hk : k ≤ 32) (hlow : low.toNat = 2 ^ k - 1)
    (hmask : mask.toNat = (2 ^ (32 - k) - 1) <<< k) {x : UInt32} (hx : x.toNat + (2 ^ k - 1) < 2 ^ 32) :
    ((x + low) &&& mask).toNat = roundUp k x.toNat := by
  rw [toNat_and hk hmask, UInt32.toNat_add, hlow, Nat.mod_eq_of_lt hx]
  rfl

theorem toNat_add_of_lt {x y : UInt32} (h : x.toNat + y.toNat < 2 ^ 32) : (x + y).toNat = x.toNat + y.toNat := by
  rw [UInt32.toNat_add, Nat.mod_eq_of_lt h]

theorem toNat_mul_of_lt {x y : UInt32} (h : x.toNat * y.toNat < 2 ^ 32) : (x * y).toNat = x.toNat * y.toNat := by
  rw [UInt32.toNat_mul, Nat.mod_eq_of_lt h]

end Alignment

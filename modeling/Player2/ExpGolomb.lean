import Mathlib.Data.Nat.Log
import Player2.BitStream

/-! # Exp-Golomb codes

The codes of unsigned and signed numbers in H.264: as many zeros as there are bits after the first in
`v + 1`, followed by these bits; a signed number goes through its place in `0, 1, -1, 2, -2, …`.  `GetUe` and
`GetSe` read them back (`reads_ue`, `reads_se`). -/

namespace Player2

open BitField

/-! ### Codes -/

/-- The code of an unsigned number. -/
def ueFields (v : ℕ) : List (ℕ × ℕ) := [(Nat.log2 (v + 1), 0), (Nat.log2 (v + 1) + 1, v + 1)]

/-- The place of a signed number. -/
def seCode (v : ℤ) : ℕ := if 0 < v then (2 * v - 1).toNat else (-2 * v).toNat

/-- The code of a signed number. -/
def seFields (v : ℤ) : List (ℕ × ℕ) := ueFields (seCode v)

namespace BitStream

/-- `GetSe`, as a program. -/
def se : BitProgram ℤ := do
  let code ← ue
  pure (if code % 2 = 1 then (code / 2 + 1 : ℕ) else -(code / 2 : ℕ))

/-! ### Reading -/

theorem toNat_lzcntw {n r : ℕ} (hn : n ≤ 31) (hr : r < 2 ^ (31 - n)) :
    (lzcntw (UInt32.ofNat (2 ^ (31 - n) + r))).toNat = n := by
  have hpos := Nat.two_pow_pos (31 - n)
  have hle : 2 ^ (31 - n) ≤ 2 ^ 31 := Nat.pow_le_pow_right (by decide) (by omega)
  have hval : (UInt32.ofNat (2 ^ (31 - n) + r)).toNat = 2 ^ (31 - n) + r := by
    rw [UInt32.toNat_ofNat', Nat.mod_eq_of_lt (by omega)]
  have hne : UInt32.ofNat (2 ^ (31 - n) + r) ≠ 0 := by
    intro h
    have := congrArg UInt32.toNat h
    change _ = 0 at this
    omega
  have hlog : Nat.log2 (2 ^ (31 - n) + r) = 31 - n := by
    rw [Nat.log2_eq_iff (by omega)]
    constructor
    · omega
    · omega
  unfold lzcntw
  rw [if_neg hne, hval, hlog, UInt32.toNat_ofNat', Nat.mod_eq_of_lt (by omega)]
  omega

theorem reads_ue {v : ℕ} (hv : v + 1 < 2 ^ 32) : BitProgram.Reads 32 ue (spell (ueFields v)) v := by
  intro b p h
  obtain ⟨hzeros, hrest⟩ := spells_append.mp h
  generalize hn : Nat.log2 (v + 1) = n at hzeros hrest
  rw [length_bitsOf] at hrest
  rw [spell, spell, List.append_nil] at hrest
  obtain ⟨hone, hlow⟩ : b (p + n) = (v + 1).testBit n ∧ Spells b (p + n + 1) (bitsOf n (v + 1)) := hrest
  obtain ⟨hge, hlt⟩ := (Nat.log2_eq_iff (Nat.succ_ne_zero v)).mp hn
  have hn31 : n ≤ 31 := by
    by_contra hmore
    have : 2 ^ 32 ≤ 2 ^ n := Nat.pow_le_pow_right (by decide) (by omega)
    omega
  have hbit : (v + 1).testBit n = true := by
    rw [Nat.testBit_eq_decide_div_mod_eq, decide_eq_true_eq]
    have hdiv : (v + 1) / 2 ^ n = 1 := by
      rw [Nat.div_eq_iff (Nat.two_pow_pos n), Nat.one_mul]
      omega
    rw [hdiv]
  have hfirst : field b p (n + 1) = 1 := by
    rw [field_succ, field_of_spells hzeros (Nat.two_pow_pos n), hone, hbit]
    rfl
  -- what is shown begins with the zeros and the one
  have hshown : field b p 32 = 2 ^ (31 - n) + field b (p + (n + 1)) (31 - n) := by
    rw [show 32 = (n + 1) + (31 - n) by omega, field_add, hfirst, Nat.one_mul]
  have hzerocount : (lzcntw (UInt32.ofNat (field b p 32))).toNat = n := by
    rw [hshown]
    exact toNat_lzcntw hn31 (field_lt _ _ _)
  have htail : field b (p + (n + 1)) n = (v + 1) % 2 ^ n := field_of_spells_mod hlow
  have hlength : (spell (ueFields v)).length = n + (n + 1) := by
    rw [ueFields, hn, spell, spell, spell, List.append_nil, List.length_append, length_bitsOf, length_bitsOf]
  rw [hlength]
  unfold ue BitProgram.run BitProgram.Fits
  simp only [hzerocount]
  by_cases hzero : n = 0
  · subst hzero
    refine ⟨Prod.ext ?_ rfl, Nat.le_refl _, by omega, trivial⟩
    change 0 = v
    omega
  · rw [if_pos hzero]
    have hmod : (v + 1) % 2 ^ n = v + 1 - 2 ^ n := by
      rw [Nat.mod_eq_sub_mod hge, Nat.mod_eq_of_lt (by omega)]
    refine ⟨Prod.ext ?_ ?_, Nat.le_refl _, by omega, by omega, Nat.le_refl _, trivial⟩
    · change 2 ^ n - 1 + field b (p + (n + 1)) n = v
      omega
    · change p + (n + 1) + n = _
      omega

theorem reads_se {v : ℤ} (h : |v| < 2 ^ 31) : BitProgram.Reads 32 se (spell (seFields v)) v := by
  rw [abs_lt] at h
  have hread : BitProgram.Reads 32 ue (spell (seFields v)) (seCode v) := by
    refine reads_ue ?_
    unfold seCode
    split <;> omega
  have hvalue : (if seCode v % 2 = 1 then ((seCode v / 2 + 1 : ℕ) : ℤ) else -((seCode v / 2 : ℕ) : ℤ)) = v := by
    unfold seCode
    split
    next hpos =>
      omega
    next hneg =>
      omega
  have hmap := hread.map fun code => if code % 2 = 1 then ((code / 2 + 1 : ℕ) : ℤ) else -((code / 2 : ℕ) : ℤ)
  rw [hvalue] at hmap
  exact hmap

end BitStream

end Player2

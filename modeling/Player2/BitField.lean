import Mathlib.Algebra.Order.Ring.Nat
import Mathlib.Data.Bool.Basic
import Mathlib.Data.List.Basic
import Mathlib.Tactic.Ring

/-! # Fields of a bit sequence

A sequence of bits is a function on positions.  `field b p n` is the number that `n` bits spell from the
position `p` on, the most significant bit first, as coded streams have them; two fields next to each other
are one field (`field_add`).

`Spells b p l` says that the bits of a list stand at `p`, and `bitsOf n v` is the list that spells `v` in `n`
bits, so that it is read back (`field_of_spells`); `spell` does this for several fields. -/

namespace BitField

variable (b : ℕ → Bool) (p : ℕ)

/-! ### Fields -/

/-- The number that `n` bits spell from `p` on. -/
def field : ℕ → ℕ
  | 0 => 0
  | n + 1 => 2 * field n + (b (p + n)).toNat

@[simp]
theorem field_zero : field b p 0 = 0 := rfl

theorem field_succ (n : ℕ) : field b p (n + 1) = 2 * field b p n + (b (p + n)).toNat := rfl

theorem field_one : field b p 1 = (b p).toNat := by
  rw [field_succ, field_zero, Nat.mul_zero, Nat.zero_add, Nat.add_zero]

theorem field_lt (n : ℕ) : field b p n < 2 ^ n := by
  induction n with
  | zero => exact Nat.one_pos
  | succ n ih =>
    have h : (b (p + n)).toNat ≤ 1 := Bool.toNat_le _
    rw [field_succ, Nat.pow_succ]
    omega

theorem field_add (m n : ℕ) : field b p (m + n) = field b p m * 2 ^ n + field b (p + m) n := by
  induction n with
  | zero => rw [Nat.add_zero, field_zero, Nat.pow_zero, Nat.mul_one, Nat.add_zero]
  | succ n ih =>
    rw [← Nat.add_assoc, field_succ, ih, field_succ, Nat.pow_succ, Nat.add_assoc p m n]
    ring

theorem field_succ' (n : ℕ) : field b p (n + 1) = (b p).toNat * 2 ^ n + field b (p + 1) n := by
  rw [Nat.add_comm n 1, field_add, field_one]

theorem field_div (m n : ℕ) : field b p (m + n) / 2 ^ n = field b p m := by
  rw [field_add, Nat.mul_comm, Nat.mul_add_div (Nat.two_pow_pos n),
    Nat.div_eq_of_lt (field_lt b (p + m) n), Nat.add_zero]

theorem field_mod (m n : ℕ) : field b p (m + n) % 2 ^ n = field b (p + m) n := by
  rw [field_add, Nat.mul_comm, Nat.mul_add_mod]
  exact Nat.mod_eq_of_lt (field_lt b (p + m) n)

theorem field_congr {b' : ℕ → Bool} {p' n : ℕ} (h : ∀ i < n, b (p + i) = b' (p' + i)) :
    field b p n = field b' p' n := by
  induction n with
  | zero => rfl
  | succ n ih =>
    rw [field_succ, field_succ, ih fun i hi => h i (by omega), h n (by omega)]

/-! ### Lists of bits -/

/-- The bits of a list stand at a position. -/
def Spells : ℕ → List Bool → Prop
  | _, [] => True
  | p, x :: l => b p = x ∧ Spells (p + 1) l

instance decidableSpells (b : ℕ → Bool) : ∀ (p : ℕ) (l : List Bool), Decidable (Spells b p l)
  | _, [] => isTrue trivial
  | p, x :: l =>
    have := decidableSpells b (p + 1) l
    inferInstanceAs (Decidable (b p = x ∧ Spells b (p + 1) l))

/-- The list that spells a number in `n` bits. -/
def bitsOf : ℕ → ℕ → List Bool
  | 0, _ => []
  | n + 1, v => v.testBit n :: bitsOf n v

@[simp]
theorem length_bitsOf (n v : ℕ) : (bitsOf n v).length = n := by
  induction n with
  | zero => rfl
  | succ n ih => rw [bitsOf, List.length_cons, ih]

theorem bitsOf_zero (n : ℕ) : bitsOf n 0 = List.replicate n false := by
  induction n with
  | zero => rfl
  | succ n ih => rw [bitsOf, ih, Nat.zero_testBit, List.replicate_succ]

variable {b p}

theorem spells_append {l l' : List Bool} :
    Spells b p (l ++ l') ↔ Spells b p l ∧ Spells b (p + l.length) l' := by
  induction l generalizing p with
  | nil => exact ⟨fun h => ⟨trivial, h⟩, fun h => h.2⟩
  | cons x l ih =>
    rw [List.cons_append, Spells, Spells, ih, and_assoc, List.length_cons, Nat.add_assoc,
      Nat.add_comm 1]

theorem field_of_spells_mod {n v : ℕ} (h : Spells b p (bitsOf n v)) : field b p n = v % 2 ^ n := by
  induction n generalizing p with
  | zero => rw [field_zero, Nat.pow_zero, Nat.mod_one]
  | succ n ih =>
    obtain ⟨hb, hrest⟩ := h
    rw [field_succ', ih hrest, hb, Nat.testBit_eq_decide_div_mod_eq, Nat.pow_succ, Nat.mod_mul]
    rcases Nat.mod_two_eq_zero_or_one (v / 2 ^ n) with e | e
    · rw [e]
      simp
    · rw [e]
      simp [Nat.add_comm]

/-- The bits that spell fields of given lengths, one after the other. -/
def spell : List (ℕ × ℕ) → List Bool
  | [] => []
  | f :: l => bitsOf f.1 f.2 ++ spell l

theorem spell_append (l l' : List (ℕ × ℕ)) : spell (l ++ l') = spell l ++ spell l' := by
  induction l with
  | nil => rfl
  | cons f l ih => rw [List.cons_append, spell, ih, spell, List.append_assoc]

theorem field_of_spells {n v : ℕ} (h : Spells b p (bitsOf n v)) (hv : v < 2 ^ n) :
    field b p n = v := by
  rw [field_of_spells_mod h, Nat.mod_eq_of_lt hv]

theorem field_of_spell {n v : ℕ} {l : List (ℕ × ℕ)} (h : Spells b p (spell ((n, v) :: l))) :
    field b p n = v % 2 ^ n ∧ Spells b (p + n) (spell l) := by
  obtain ⟨hfirst, hrest⟩ := spells_append.mp h
  rw [length_bitsOf] at hrest
  exact ⟨field_of_spells_mod hfirst, hrest⟩

end BitField

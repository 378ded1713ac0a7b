import Mathlib.Data.List.GetD
import Mathlib.Tactic

/-! # Start codes in byte strings

A start code is `00 00 01 x`.  `CodeAt ignored l p` says that one begins at position `p` of `l`
and that its last byte is not to be ignored.

A reader that receives its bytes one after the other recognises a code by the three bytes before
the current one.  `scan ignored acc bytes` reads `bytes` after `acc` in this way and stops at the
first code that ends in `bytes`, with what came before the code, its last byte and what is left.
`scan_of_first` and `scan_of_none` say that a search over the whole string finds the same code:
the bytes of `acc` count as the beginning of a code, but a code that ended in `acc` does not. -/

namespace StartCode

/-- A start code that is not to be ignored begins at `p`. -/
def CodeAt (ignored : UInt8 → Bool) (l : List UInt8) (p : ℕ) : Prop :=
  p + 3 < l.length ∧ l.getD p 0 = 0 ∧ l.getD (p + 1) 0 = 0 ∧ l.getD (p + 2) 0 = 1 ∧
    ignored (l.getD (p + 3) 0) = false

/-- The bytes end in `00 00 01`. -/
def endsInPrefix (l : List UInt8) : Bool := l.drop (l.length - 3) == [0, 0, 1]

/-- Read bytes after `acc` up to the end of the first start code: what came before the code, its
last byte and what is left. -/
def scan (ignored : UInt8 → Bool) : List UInt8 → List UInt8 → Option (List UInt8 × UInt8 × List UInt8)
  | _, [] => none
  | acc, b :: bytes =>
    if endsInPrefix acc && !ignored b then some (acc.take (acc.length - 3), b, bytes)
    else scan ignored (acc ++ [b]) bytes

section
variable {ignored : UInt8 → Bool} {l acc base rest : List UInt8} {x : UInt8}

theorem codeAt_iff {p : ℕ} : CodeAt ignored l p ↔
    ∃ base x rest, l = base ++ 0 :: 0 :: 1 :: x :: rest ∧ base.length = p ∧ ignored x = false := by
  constructor
  · rintro ⟨hlen, h0, h1, h2, hx⟩
    refine ⟨l.take p, l.getD (p + 3) 0, l.drop (p + 4), ?_, List.length_take_of_le (by omega), hx⟩
    have hdrop : ∀ i, i < l.length → l.drop i = l.getD i 0 :: l.drop (i + 1) := fun i hi => by
      rw [List.getD_eq_getElem l 0 hi]
      exact List.drop_eq_getElem_cons hi
    calc l = l.take p ++ l.drop p := (List.take_append_drop p l).symm
      _ = _ := by rw [hdrop p (by omega), hdrop (p + 1) (by omega), hdrop (p + 2) (by omega),
                    hdrop (p + 3) (by omega), h0, h1, h2]
  · rintro ⟨base, x, rest, rfl, rfl, hx⟩
    unfold CodeAt
    simp [hx]

theorem endsInPrefix_iff : endsInPrefix acc = true ↔ ∃ base, acc = base ++ [0, 0, 1] := by
  unfold endsInPrefix
  rw [beq_iff_eq]
  constructor
  · intro h
    refine ⟨acc.take (acc.length - 3), ?_⟩
    rw [← h, List.take_append_drop]
  · rintro ⟨base, rfl⟩
    simp

@[simp] theorem endsInPrefix_append : endsInPrefix (base ++ [0, 0, 1]) = true :=
  endsInPrefix_iff.mpr ⟨base, rfl⟩

theorem codeAt_of_endsInPrefix {b : UInt8} {bytes : List UInt8} (h : endsInPrefix acc = true)
    (hb : ignored b = false) : CodeAt ignored (acc ++ b :: bytes) (acc.length - 3) := by
  obtain ⟨base, rfl⟩ := endsInPrefix_iff.mp h
  rw [codeAt_iff]
  exact ⟨base, b, bytes, by simp, by simp, hb⟩

theorem scan_of_none {bytes : List UInt8}
    (h : ∀ p, acc.length ≤ p + 3 → ¬ CodeAt ignored (acc ++ bytes) p) : scan ignored acc bytes = none := by
  induction bytes generalizing acc with
  | nil => rfl
  | cons b bytes ih =>
    have hno : (endsInPrefix acc && !ignored b) = false := by
      by_contra hne
      rw [Bool.not_eq_false, Bool.and_eq_true, Bool.not_eq_true'] at hne
      exact h (acc.length - 3) (by omega) (codeAt_of_endsInPrefix hne.1 hne.2)
    rw [scan, hno]
    refine ih fun p hp => ?_
    rw [List.append_assoc]
    rw [List.length_append] at hp
    exact h p (by omega)

theorem scan_of_first {bytes : List UInt8} (hcut : acc ++ bytes = base ++ 0 :: 0 :: 1 :: x :: rest)
    (hx : ignored x = false) (hend : acc.length ≤ base.length + 3)
    (hfirst : ∀ p, acc.length ≤ p + 3 → p < base.length → ¬ CodeAt ignored (acc ++ bytes) p) :
    scan ignored acc bytes = some (base, x, rest) := by
  induction bytes generalizing acc with
  | nil =>
    have := congrArg List.length hcut
    simp at this
    omega
  | cons b bytes ih =>
    by_cases hlast : acc.length = base.length + 3
    · -- the current byte is the last one of the code
      have hacc : acc = base ++ [0, 0, 1] ∧ b :: bytes = x :: rest := by
        refine List.append_inj (by simpa using hcut) (by simpa using hlast)
      obtain ⟨rfl, hb⟩ := hacc
      obtain ⟨rfl, rfl⟩ := List.cons.inj hb
      simp [scan, hx]
    · have hno : (endsInPrefix acc && !ignored b) = false := by
        by_contra hne
        rw [Bool.not_eq_false, Bool.and_eq_true, Bool.not_eq_true'] at hne
        obtain ⟨base', rfl⟩ := endsInPrefix_iff.mp hne.1
        refine hfirst ((base' ++ [0, 0, 1]).length - 3) (by simp) ?_
          (codeAt_of_endsInPrefix hne.1 hne.2)
        simp at hend hlast ⊢
        omega
      rw [scan, hno]
      refine ih (by simpa using hcut) (by simp; omega) fun p hp hlt => ?_
      rw [List.append_assoc]
      rw [List.length_append] at hp
      exact hfirst p (by omega) hlt

end

end StartCode

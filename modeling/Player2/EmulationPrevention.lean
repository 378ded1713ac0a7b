import Mathlib.Tactic

/-! # Emulation prevention

A coded unit must not hold `00 00 01`, so a byte `03` is put after every `00 00` that would allow it; a reader
removes every `03` that follows `00 00`, in one pass that counts the zeros before the current byte
(`pass`).  `removed src k` is the byte number `k` of the result, `sourceLength src k` the number of bytes
that have been consumed when `k` of them are out.  A source is an endless sequence, so that nothing has to
be said about its end.

A reader that looks for `00 00 03` at one position after the other and copies what is not part of one does the
same (`Loaded.copy`, `Loaded.remove`): where it stands no code can begin that it has already passed, whatever
number of zeros lies before.  `codes src k m` is the number of codes that it meets in `k` steps from `m`
on. -/

namespace EmulationPrevention

variable (src : ℕ → UInt8)

/-! ### One pass -/

/-- A byte to be removed is passed over.  The state is the position, and the number of zeros before it. -/
def skip (p : ℕ × ℕ) : ℕ × ℕ := if 2 ≤ p.2 ∧ src p.1 = 3 then (p.1 + 1, 0) else p

/-- The byte at the position is put out. -/
def emit (p : ℕ × ℕ) : ℕ × ℕ := (p.1 + 1, if src p.1 = 0 then p.2 + 1 else 0)

/-- The state before a byte of the result is put out. -/
def pass : ℕ → ℕ × ℕ
  | 0 => skip src (0, 0)
  | k + 1 => skip src (emit src (pass k))

/-- The source without the bytes to be removed. -/
def removed (k : ℕ) : UInt8 := src (pass src k).1

/-- The number of bytes of the source that lie before a byte of the result. -/
def sourceLength (k : ℕ) : ℕ := (pass src k).1

/-! ### Looking for codes -/

/-- `00 00 03` stands at a position. -/
def CodeAt (m : ℕ) : Prop := src m = 0 ∧ src (m + 1) = 0 ∧ src (m + 2) = 3

instance (m : ℕ) : Decidable (CodeAt src m) := by unfold CodeAt; infer_instance

/-- The number of codes that are met in some steps, each of which moves past a byte or a code. -/
def codes : ℕ → ℕ → ℕ
  | 0, _ => 0
  | k + 1, m => if CodeAt src m then codes k (m + 3) + 1 else codes k (m + 1)

/-- After `k` bytes of the result, the reader stands at `m`, and no code that began before can end
there. -/
def Loaded (k m : ℕ) : Prop :=
  ∃ z, pass src k = (m, z) ∧ (1 ≤ z → ¬ (src m = 0 ∧ src (m + 1) = 3)) ∧ (2 ≤ z → src m ≠ 3)

variable {src} {k m : ℕ}

theorem loaded_zero : Loaded src 0 0 := ⟨0, rfl, fun h => by omega, fun h => by omega⟩

theorem Loaded.sourceLength_eq (h : Loaded src k m) : sourceLength src k = m := by
  obtain ⟨z, hpass, -⟩ := h
  exact congrArg Prod.fst hpass

theorem Loaded.removed_eq (h : Loaded src k m) : removed src k = src m := congrArg src h.sourceLength_eq

theorem skip_of_ne {p : ℕ × ℕ} (h : 2 ≤ p.2 → src p.1 ≠ 3) : skip src p = p :=
  if_neg fun hc => h hc.1 hc.2

theorem Loaded.copy (h : Loaded src k m) (hcode : ¬ CodeAt src m) : Loaded src (k + 1) (m + 1) := by
  obtain ⟨z, hpass, hone, htwo⟩ := h
  have hstop : 2 ≤ (emit src (m, z)).2 → src (emit src (m, z)).1 ≠ 3 := by
    unfold emit
    split
    next hzero => exact fun hz hthree => hone (by omega) ⟨hzero, hthree⟩
    next => exact fun hz => by omega
  refine ⟨(emit src (m, z)).2, ?_, ?_, hstop⟩
  · rw [pass, hpass, skip_of_ne hstop]
    rfl
  · unfold emit
    split
    next hzero => exact fun _ hc => hcode ⟨hzero, hc.1, hc.2⟩
    next => exact fun hz => by omega

theorem Loaded.remove (h : Loaded src k m) (hcode : CodeAt src m) :
    removed src (k + 1) = src (m + 1) ∧ Loaded src (k + 2) (m + 3) := by
  obtain ⟨z, hpass, hone, htwo⟩ := h
  obtain ⟨h0, h1, h2⟩ := hcode
  have hfirst : pass src (k + 1) = (m + 1, z + 1) := by
    have hemit : emit src (m, z) = (m + 1, z + 1) := congrArg (Prod.mk (m + 1)) (if_pos h0)
    rw [pass, hpass, hemit]
    exact skip_of_ne fun _ => by rw [h1]; decide
  have hsecond : pass src (k + 2) = (m + 3, 0) := by
    have hemit : emit src (m + 1, z + 1) = (m + 2, z + 2) := congrArg (Prod.mk (m + 2)) (if_pos h1)
    rw [pass, hfirst, hemit]
    exact if_pos ⟨by dsimp only; omega, h2⟩
  exact ⟨congrArg (fun p : ℕ × ℕ => src p.1) hfirst, 0, hsecond, fun h => by omega, fun h => by omega⟩

theorem codes_le (src : ℕ → UInt8) (k m : ℕ) : codes src k m ≤ k := by
  induction k generalizing m with
  | zero => exact le_rfl
  | succ k ih =>
    rw [codes]
    split
    · exact Nat.succ_le_succ (ih _)
    · exact (ih _).trans (Nat.le_succ k)

end EmulationPrevention

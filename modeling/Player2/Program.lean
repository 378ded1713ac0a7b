import Mathlib.Data.List.Basic
import Mathlib.Tactic.Basic

/-! # Programs over operations

The routines of a component reach its data through a few operations.  `Program σ ω ρ α` is a
routine written over operations `ω` with replies `ρ`: it looks at the state, performs operations
and goes on with what they reply, and ends with a result in `α`.

`run effect p s` performs a program from a state.  `Along effect P p s` says that every operation
that is performed on the way meets `P` in the state it is performed in; `run_invariant` is the rule
for invariants: what every such operation keeps, the program keeps, whatever its branches.
`AtMost Q n p` bounds the number of operations of a kind on every path of a program, and
`Along.of_atMost` turns such a bound into a bound on a measure of the state. -/

/-- A program over the operations `ω`. -/
inductive Program (σ ω ρ α : Type) where
  | done (a : α)
  | look (k : σ → Program σ ω ρ α)
  | perform (o : ω) (k : ρ → Program σ ω ρ α)

namespace Program

variable {σ ω ρ α β : Type}

/-- One program after the other. -/
def bind : Program σ ω ρ α → (α → Program σ ω ρ β) → Program σ ω ρ β
  | done a, f => f a
  | look k, f => look fun s => (k s).bind f
  | perform o k, f => perform o fun r => (k r).bind f

instance : Monad (Program σ ω ρ) where
  pure := done
  bind := bind

/-- The state. -/
def state : Program σ ω ρ σ := look done

/-- One operation. -/
def op (o : ω) : Program σ ω ρ ρ := perform o done

/-- The result of a program and the state it ends in. -/
def run (effect : ω → σ → ρ × σ) : Program σ ω ρ α → σ → α × σ
  | done a, s => (a, s)
  | look k, s => (k s).run effect s
  | perform o k, s => (k (effect o s).1).run effect (effect o s).2

/-- Every operation that the program performs from `s` meets `P`. -/
def Along (effect : ω → σ → ρ × σ) (P : σ → ω → Prop) : Program σ ω ρ α → σ → Prop
  | done _, _ => True
  | look k, s => (k s).Along effect P s
  | perform o k, s => P s o ∧ (k (effect o s).1).Along effect P (effect o s).2

/-- At most `n` operations of the kind `Q` on every path of the program. -/
inductive AtMost (Q : ω → Prop) : ℕ → Program σ ω ρ α → Prop
  | done (n : ℕ) (a : α) : AtMost Q n (done a)
  | look {n : ℕ} {k : σ → Program σ ω ρ α} : (∀ s, AtMost Q n (k s)) → AtMost Q n (look k)
  | other {n : ℕ} {o : ω} {k : ρ → Program σ ω ρ α} :
      ¬ Q o → (∀ r, AtMost Q n (k r)) → AtMost Q n (perform o k)
  | one {n : ℕ} {o : ω} {k : ρ → Program σ ω ρ α} :
      (∀ r, AtMost Q n (k r)) → AtMost Q (n + 1) (perform o k)

section
variable {effect : ω → σ → ρ × σ} {P P' : σ → ω → Prop} {p : Program σ ω ρ α}
  {f : α → Program σ ω ρ β} {s : σ}

@[simp] theorem bind_eq : p >>= f = p.bind f := rfl

@[simp] theorem pure_eq (a : α) : (pure a : Program σ ω ρ α) = done a := rfl

@[simp] theorem run_done (a : α) : (done a : Program σ ω ρ α).run effect s = (a, s) := rfl

@[simp] theorem run_state : (state : Program σ ω ρ σ).run effect s = (s, s) := rfl

@[simp] theorem run_op (o : ω) : (op o : Program σ ω ρ ρ).run effect s = effect o s := rfl

@[simp] theorem run_bind :
    (p.bind f).run effect s = (f (p.run effect s).1).run effect (p.run effect s).2 := by
  induction p generalizing s with
  | done a => rfl
  | look k ih => exact ih s
  | perform o k ih => exact ih (effect o s).1

theorem run_state_bind (f : σ → Program σ ω ρ β) :
    (state.bind f).run effect s = (f s).run effect s := rfl

theorem run_op_bind (o : ω) (f : ρ → Program σ ω ρ β) :
    ((op o).bind f).run effect s = (f (effect o s).1).run effect (effect o s).2 := rfl

@[simp] theorem along_done (a : α) : (done a : Program σ ω ρ α).Along effect P s := trivial

@[simp] theorem along_state : (state : Program σ ω ρ σ).Along effect P s := trivial

@[simp] theorem along_op (o : ω) : (op o : Program σ ω ρ ρ).Along effect P s ↔ P s o :=
  and_iff_left trivial

@[simp] theorem along_bind : (p.bind f).Along effect P s ↔
    p.Along effect P s ∧ (f (p.run effect s).1).Along effect P (p.run effect s).2 := by
  induction p generalizing s with
  | done a => exact (true_and _).symm ▸ Iff.rfl
  | look k ih => exact ih s
  | perform o k ih =>
    have hrest := ih (effect o s).1 (s := (effect o s).2)
    exact (and_congr_right fun _ => hrest).trans and_assoc.symm

/-- The condition along a program is decidable when it is decidable for an operation. -/
def decidableAlong [∀ s o, Decidable (P s o)] :
    ∀ (p : Program σ ω ρ α) (s : σ), Decidable (p.Along effect P s)
  | done _, _ => isTrue trivial
  | look k, s => decidableAlong (k s) s
  | perform o k, s =>
    have := decidableAlong (k (effect o s).1) (effect o s).2
    inferInstanceAs (Decidable (P s o ∧ (k (effect o s).1).Along effect P (effect o s).2))

instance [∀ s o, Decidable (P s o)] (p : Program σ ω ρ α) (s : σ) :
    Decidable (p.Along effect P s) := decidableAlong p s

theorem run_invariant {I : σ → Prop} (hstep : ∀ s o, I s → P s o → I (effect o s).2)
    (hs : I s) (h : p.Along effect P s) : I (p.run effect s).2 := by
  induction p generalizing s with
  | done a => exact hs
  | look k ih => exact ih s hs h
  | perform o k ih => exact ih _ (hstep s o hs h.1) h.2

end

/-! ### Counting operations -/

section
variable {Q : ω → Prop} {m n : ℕ} {p : Program σ ω ρ α} {f : α → Program σ ω ρ β}

theorem AtMost.mono (h : AtMost Q m p) (hmn : m ≤ n) : AtMost Q n p := by
  induction h generalizing n with
  | done m a => exact .done n a
  | look _ ih => exact .look fun s => ih s hmn
  | other ho _ ih => exact .other ho fun r => ih r hmn
  | one _ ih =>
    obtain ⟨k, rfl⟩ := Nat.exists_eq_add_of_le' (Nat.le_trans (Nat.le_add_left 1 _) hmn)
    exact .one fun r => ih r (Nat.le_of_succ_le_succ hmn)

theorem AtMost.bind (hp : AtMost Q m p) (hf : ∀ a, AtMost Q n (f a)) :
    AtMost Q (m + n) (p.bind f) := by
  induction hp with
  | done m a => exact (hf a).mono (Nat.le_add_left n m)
  | look _ ih => exact .look ih
  | other ho _ ih => exact .other ho ih
  | one _ ih =>
    rw [Nat.add_right_comm]
    exact .one ih

theorem AtMost.state : AtMost Q n (state : Program σ ω ρ σ) := .look fun s => .done n s

theorem AtMost.op {o : ω} (ho : ¬ Q o) : AtMost Q n (op o : Program σ ω ρ ρ) :=
  .other ho fun r => .done n r

theorem AtMost.op_one {o : ω} : AtMost Q 1 (Program.op o : Program σ ω ρ ρ) :=
  .one fun r => .done 0 r

theorem AtMost.bind_left (hp : AtMost Q n p) (hf : ∀ a, AtMost Q 0 (f a)) : AtMost Q n (p.bind f) :=
  hp.bind hf

theorem AtMost.bind_right (hp : AtMost Q 0 p) (hf : ∀ a, AtMost Q n (f a)) :
    AtMost Q n (p.bind f) := by
  have h := hp.bind hf
  rwa [Nat.zero_add] at h

theorem AtMost.ite {c : Prop} {_ : Decidable c} {q : Program σ ω ρ α} (hp : AtMost Q n p)
    (hq : AtMost Q n q) : AtMost Q n (if c then p else q) := by
  split
  · exact hp
  · exact hq

theorem AtMost.of_none (hQ : ∀ o, ¬ Q o) : AtMost Q n p := by
  induction p with
  | done a => exact .done n a
  | look k ih => exact .look ih
  | perform o k ih => exact .other (hQ o) ih

/-- If a measure goes up only with operations of the kind `Q`, by one each, then it stays below
`bound` in a program with at most `n` of them, when it starts `n` below. -/
theorem Along.of_atMost {effect : ω → σ → ρ × σ} {P P' : σ → ω → Prop} {s : σ} (size : σ → ℕ)
    (bound : ℕ) (hQ : ∀ s o, Q o → size (effect o s).2 ≤ size s + 1)
    (hother : ∀ s o, ¬ Q o → size (effect o s).2 ≤ size s)
    (hP : ∀ s o, P s o → size s ≤ bound → (Q o → size s < bound) → P' s o)
    (hp : AtMost Q n p) (hs : size s + n ≤ bound) (h : p.Along effect P s) :
    p.Along effect P' s := by
  induction hp generalizing s with
  | done n a => trivial
  | look _ ih => exact ih s hs h
  | other ho _ ih =>
    refine ⟨hP s _ h.1 (by omega) fun hq => absurd hq ho, ih _ ?_ h.2⟩
    exact Nat.le_trans (Nat.add_le_add_right (hother s _ ho) _) hs
  | @one _ o _ _ ih =>
    refine ⟨hP s _ h.1 (by omega) fun _ => by omega, ih _ ?_ h.2⟩
    have hle : size (effect o s).2 ≤ size s + 1 := by
      by_cases ho : Q o
      · exact hQ s o ho
      · exact Nat.le_succ_of_le (hother s o ho)
    omega

end

end Program

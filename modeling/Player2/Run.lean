import Mathlib.Data.List.Basic
import Mathlib.Data.Option.Basic

/-! # Runs of a partial step function

`run step s as` performs the labels `as` one after the other and fails as soon as one of
them is not enabled.  Every prefix of a run is a run, so a statement about the final state
of an arbitrary run is a statement about every state the run goes through.

`Along step P s as` says that every step of the run from `s` meets the condition `P` in the
state it is taken from; `run_invariant_along` is the induction rule for such runs and
`run_invariant` its special case without a condition.  `Throughout step I s as` says that `I`
holds in every state of the run, the first one included; where a step keeps `I` exactly when it
meets `P`, `throughout_iff_along` turns one into the other. -/

namespace Lts

variable {σ ℓ : Type*} (step : σ → ℓ → Option σ)

/-- Perform a list of labels. -/
def run : σ → List ℓ → Option σ
  | s, [] => some s
  | s, a :: as => (step s a).bind (fun s' => run s' as)

/-- Every step taken from `s` along `as` meets `P`. -/
def Along (P : σ → ℓ → Prop) : σ → List ℓ → Prop
  | _, [] => True
  | s, a :: as => P s a ∧ ∀ s', step s a = some s' → Along P s' as

/-- Every state of the run from `s` along `as` meets `I`. -/
def Throughout (I : σ → Prop) : σ → List ℓ → Prop
  | s, [] => I s
  | s, a :: as => I s ∧ ∀ s', step s a = some s' → Throughout I s' as

variable {step}

/-- The condition on a run is decidable when it is decidable on a step. -/
def decidableAlong {P : σ → ℓ → Prop} [∀ s a, Decidable (P s a)] :
    ∀ (s : σ) (as : List ℓ), Decidable (Along step P s as)
  | _, [] => isTrue trivial
  | s, a :: as =>
    match h : step s a with
    | none => decidable_of_iff (P s a) (by simp [Along, h])
    | some t =>
      have := decidableAlong (P := P) t as
      decidable_of_iff (P s a ∧ Along step P t as) (by simp [Along, h])

instance {P : σ → ℓ → Prop} [∀ s a, Decidable (P s a)] (s : σ) (as : List ℓ) :
    Decidable (Along step P s as) := decidableAlong s as

variable {s s' : σ} {as : List ℓ}

theorem run_cons {a : ℓ} :
    run step s (a :: as) = some s' ↔ ∃ t, step s a = some t ∧ run step t as = some s' := by
  simp [run, Option.bind_eq_some_iff]

theorem run_concat (s : σ) (as : List ℓ) (a : ℓ) : run step s (as ++ [a]) = (run step s as).bind (step · a) := by
  induction as generalizing s with
  | nil => simp [run]
  | cons b as ih => simp [run, Option.bind_assoc, ih]

/-- A step function that never fails folds over the labels. -/
theorem run_total (f : σ → ℓ → σ) (s : σ) (as : List ℓ) :
    run (fun s a => some (f s a)) s as = some (as.foldl f s) := by
  induction as generalizing s with
  | nil => rfl
  | cons a as ih => exact ih (f s a)

variable {P Q R : σ → ℓ → Prop} {I J : σ → Prop}

theorem run_invariant_along (hstep : ∀ s a s', I s → P s a → step s a = some s' → I s') :
    ∀ {as : List ℓ} {s s' : σ}, I s → Along step P s as → run step s as = some s' → I s'
  | [], s, s', h0, _, h => by
      simp only [run, Option.some.injEq] at h
      exact h ▸ h0
  | a :: as, s, s', h0, hP, h => by
      obtain ⟨t, ht, hr⟩ := run_cons.mp h
      exact run_invariant_along hstep (hstep s a t h0 hP.1 ht) (hP.2 t ht) hr

theorem run_invariant (hstep : ∀ s a s', I s → step s a = some s' → I s')
    (h0 : I s) (h : run step s as = some s') : I s' := by
  induction as generalizing s with
  | nil =>
    simp only [run, Option.some.injEq] at h
    exact h ▸ h0
  | cons a as ih =>
    obtain ⟨t, ht, hr⟩ := run_cons.mp h
    exact ih (hstep s a t h0 ht) hr

theorem Throughout.head (h : Throughout step I s as) :
    I s := by
  cases as with
  | nil => exact h
  | cons a as => exact h.1

theorem Throughout.last (h : Throughout step I s as)
    (hrun : run step s as = some s') : I s' := by
  induction as generalizing s with
  | nil =>
    obtain rfl := Option.some.inj hrun
    exact h
  | cons a as ih =>
    obtain ⟨t, ht, hrest⟩ := run_cons.mp hrun
    exact ih (h.2 t ht) hrest

/-- If in the states that meet the invariant `J` a step keeps `I` exactly when it meets `P`, then
`I` holds throughout a run from a state with `I` exactly when every step of it meets `P`. -/
theorem throughout_iff_along (htotal : ∀ s a, ∃ s', step s a = some s')
    (hJ : ∀ s a s', J s → step s a = some s' → J s')
    (hstep : ∀ s a s', J s → I s → step s a = some s' → (I s' ↔ P s a))
    (hs : J s) (h0 : I s) :
    Throughout step I s as ↔ Along step P s as := by
  induction as generalizing s with
  | nil => exact iff_of_true h0 trivial
  | cons a as ih =>
    constructor
    · rintro ⟨-, hall⟩
      obtain ⟨t, ht⟩ := htotal s a
      refine ⟨(hstep s a t hs h0 ht).mp (hall t ht).head, ?_⟩
      intro s' hs'
      have hI : I s' := (hall s' hs').head
      exact (ih (hJ s a s' hs hs') hI).mp (hall s' hs')
    · rintro ⟨hP, hall⟩
      refine ⟨h0, ?_⟩
      intro s' hs'
      have hI : I s' := (hstep s a s' hs h0 hs').mpr hP
      exact (ih (hJ s a s' hs hs') hI).mpr (hall s' hs')

/-- What a condition implies in the states that meet an invariant holds along every run that meets the
condition. -/
theorem along_of_along
    (hJ : ∀ s a s', J s → P s a → step s a = some s' → J s') (hstep : ∀ s a, J s → P s a → Q s a)
    (hs : J s) (h : Along step P s as) : Along step Q s as := by
  induction as generalizing s with
  | nil => exact trivial
  | cons a as ih =>
    refine ⟨hstep s a hs h.1, ?_⟩
    intro t ht
    exact ih (hJ s a t hs h.1 ht) (h.2 t ht)

/-- What an invariant implies holds throughout a run whose steps keep the invariant. -/
theorem throughout_of_along
    (hJ : ∀ s a s', J s → P s a → step s a = some s' → J s') (hI : ∀ s, J s → I s)
    (hs : J s) (h : Along step P s as) : Throughout step I s as := by
  induction as generalizing s with
  | nil => exact hI s hs
  | cons a as ih =>
    refine ⟨hI s hs, ?_⟩
    intro t ht
    exact ih (hJ s a t hs h.1 ht) (h.2 t ht)

/-- `throughout_iff_along` for a run that a partial step function allows. -/
theorem throughout_iff_along_of_run (hJ : ∀ s a s', J s → step s a = some s' → J s')
    (hstep : ∀ s a s', J s → I s → step s a = some s' → (I s' ↔ P s a))
    (hs : J s) (h0 : I s) (hrun : run step s as = some s') :
    Throughout step I s as ↔ Along step P s as := by
  induction as generalizing s with
  | nil => exact iff_of_true h0 trivial
  | cons a as ih =>
    obtain ⟨t, ht, hrest⟩ := run_cons.mp hrun
    have hiff := hstep s a t hs h0 ht
    constructor
    · rintro ⟨-, hall⟩
      have hI : I t := (hall t ht).head
      refine ⟨hiff.mp hI, ?_⟩
      intro t' ht'
      obtain rfl : t = t' := Option.some.inj (ht.symm.trans ht')
      exact (ih (hJ s a t hs ht) hI hrest).mp (hall t ht)
    · rintro ⟨hP, hall⟩
      refine ⟨h0, ?_⟩
      intro t' ht'
      obtain rfl : t = t' := Option.some.inj (ht.symm.trans ht')
      exact (ih (hJ s a t hs ht) (hiff.mpr hP) hrest).mpr (hall t ht)

/-- Two conditions that agree on the steps from states that meet an invariant agree on the runs whose steps
keep it. -/
theorem along_iff_of_along (hJ : ∀ s a s', J s → R s a → step s a = some s' → J s')
    (hstep : ∀ s a s', J s → R s a → step s a = some s' → (P s a ↔ Q s a))
    (hs : J s) (hR : Along step R s as) (hrun : run step s as = some s') :
    Along step P s as ↔ Along step Q s as := by
  induction as generalizing s with
  | nil => exact Iff.rfl
  | cons a as ih =>
    obtain ⟨t, ht, hrest⟩ := run_cons.mp hrun
    refine and_congr (hstep s a t hs hR.1 ht) (forall_congr' fun t' => forall_congr' fun ht' => ?_)
    obtain rfl : t = t' := Option.some.inj (ht.symm.trans ht')
    exact ih (hJ s a t hs hR.1 ht) (hR.2 t ht) hrest

/-- A condition that the labels alone meet. -/
theorem along_of_forall_mem (h : ∀ a ∈ as, ∀ s, P s a) (s : σ) :
    Along step P s as := by
  induction as generalizing s with
  | nil => exact trivial
  | cons a as ih =>
    exact ⟨h a List.mem_cons_self s, fun t _ => ih (fun b hb => h b (List.mem_cons_of_mem _ hb)) t⟩

/-- A condition that no step fails. -/
theorem along_true (s : σ) (as : List ℓ) : Along step (fun _ _ => True) s as :=
  along_of_forall_mem (fun _ _ _ => trivial) s

/-- A run meets two conditions exactly when it meets each of them. -/
theorem along_and :
    Along step (fun s a => P s a ∧ Q s a) s as ↔ Along step P s as ∧ Along step Q s as := by
  induction as generalizing s with
  | nil => exact ⟨fun _ => ⟨trivial, trivial⟩, fun _ => trivial⟩
  | cons a as ih =>
    constructor
    · rintro ⟨hhead, hrest⟩
      exact ⟨⟨hhead.1, fun t ht => (ih.mp (hrest t ht)).1⟩, ⟨hhead.2, fun t ht => (ih.mp (hrest t ht)).2⟩⟩
    · rintro ⟨⟨hP, hrestP⟩, hQ, hrestQ⟩
      exact ⟨⟨hP, hQ⟩, fun t ht => ih.mpr ⟨hrestP t ht, hrestQ t ht⟩⟩

/-- Two conditions agree on the runs that meet a third when they agree on the steps from states that meet an
invariant, which is kept by the steps that meet all of them. -/
theorem along_iff_of_keeping (hJ : ∀ s a s', J s → R s a → Q s a → step s a = some s' → J s')
    (hstep : ∀ s a, J s → R s a → (P s a ↔ Q s a))
    (hs : J s) (hR : Along step R s as) :
    Along step P s as ↔ Along step Q s as := by
  constructor
  · intro h
    refine along_of_along (P := fun s a => P s a ∧ R s a) ?_ ?_ hs (along_and.mpr ⟨h, hR⟩)
    · intro s a s' hs hPR ht
      exact hJ s a s' hs hPR.2 ((hstep s a hs hPR.2).mp hPR.1) ht
    · intro s a hs hPR
      exact (hstep s a hs hPR.2).mp hPR.1
  · intro h
    refine along_of_along (P := fun s a => Q s a ∧ R s a) ?_ ?_ hs (along_and.mpr ⟨h, hR⟩)
    · intro s a s' hs hQR ht
      exact hJ s a s' hs hQR.2 hQR.1 ht
    · intro s a hs hQR
      exact (hstep s a hs hQR.2).mpr hQR.1

/-- `along_iff_of_along` for an invariant that every step keeps. -/
theorem along_iff_of_run (hJ : ∀ s a s', J s → step s a = some s' → J s')
    (hstep : ∀ s a s', J s → step s a = some s' → (P s a ↔ Q s a))
    (hs : J s) (hrun : run step s as = some s') :
    Along step P s as ↔ Along step Q s as :=
  along_iff_of_along (fun s a s' hs _ => hJ s a s' hs) (fun s a s' hs _ => hstep s a s' hs) hs
    (along_true s as) hrun

/-- What holds of everything that a run puts into a log holds of what each of its steps puts there. -/
theorem forall_log_iff_along {β : Type*} {log : σ → List β} {new : σ → ℓ → List β}
    (hJ : ∀ s a s', J s → step s a = some s' → J s')
    (hlog : ∀ s a s', J s → step s a = some s' → log s' = log s ++ new s a) (p : β → Prop)
    (hs : J s) (hrun : run step s as = some s') :
    (∀ b ∈ log s', p b) ↔ (∀ b ∈ log s, p b) ∧ Along step (fun s a => ∀ b ∈ new s a, p b) s as := by
  induction as generalizing s with
  | nil =>
    obtain rfl := Option.some.inj hrun
    exact ⟨fun hall => ⟨hall, trivial⟩, And.left⟩
  | cons a as ih =>
    obtain ⟨t, ht, hrest⟩ := run_cons.mp hrun
    rw [ih (hJ s a t hs ht) hrest, hlog s a t hs ht, List.forall_mem_append, and_assoc]
    refine and_congr_right fun _ => and_congr_right fun _ => ?_
    constructor
    · intro hall t' ht'
      obtain rfl : t = t' := Option.some.inj (ht.symm.trans ht')
      exact hall
    · exact fun hall => hall t ht

/-- If in the states that meet the invariant `J` a step succeeds exactly when it meets `P`, then a run succeeds
exactly when every step of it meets `P`. -/
theorem run_isSome_iff_along
    (hJ : ∀ s a s', J s → step s a = some s' → J s') (hstep : ∀ s a, J s → ((step s a).isSome ↔ P s a))
    (hs : J s) : (run step s as).isSome ↔ Along step P s as := by
  induction as generalizing s with
  | nil => exact iff_of_true rfl trivial
  | cons a as ih =>
    unfold run Along
    rw [← hstep s a hs]
    cases ht : step s a with
    | none => simp
    | some t => simpa using ih (hJ s a t hs ht)

end Lts

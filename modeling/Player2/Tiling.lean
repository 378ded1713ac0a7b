import Mathlib

/-! # Tables, spans and exact tilings

A finite table is a function `ℕ → α` read at the indices below a bound; `total n w f` adds
the weights `w (f i)` of its first `n` entries.  Everything a proof needs to know about an
assignment `f[i] := a` is `total_update`: the old weight of the entry leaves the total and
the new one enters it.

A `Span` is a run of consecutive addresses.  `Span.hits r x` is `1` when `x` lies in `r`, so
"these spans tile `[0, n)`" is the pointwise statement that the hits of every address add up
to `1` below `n` and to `0` from `n` on: no address is covered twice, none is left out.
Cutting a span and joining two adjacent ones are then the two directions of `hits_cut`. -/

namespace Tiling

/-! ### Totals over a table -/

section totals
variable {α : Type*}

/-- Sum of the weights of the first `n` entries of a table. -/
def total (n : ℕ) (w : α → ℕ) (f : ℕ → α) : ℕ := ∑ i ∈ Finset.range n, w (f i)

variable {n i : ℕ} {w : α → ℕ} {f : ℕ → α}

theorem total_change {β : Type*} (hi : i < n) {v : β → ℕ} {g : ℕ → β}
    (h : ∀ j, j ≠ i → v (g j) = w (f j)) : total n v g + w (f i) = total n w f + v (g i) := by
  have hmem : i ∈ Finset.range n := Finset.mem_range.mpr hi
  unfold total
  rw [← Finset.add_sum_erase _ _ hmem, ← Finset.add_sum_erase (Finset.range n) (fun j => w (f j)) hmem,
    Finset.sum_congr rfl fun j hj => h j (Finset.ne_of_mem_erase hj)]
  omega

theorem total_update (hi : i < n) (w : α → ℕ) (f : ℕ → α) (a : α) :
    total n w (Function.update f i a) + w (f i) = total n w f + w a := by
  have := total_change hi (w := w) (f := f) (v := w) (g := Function.update f i a) fun j hj => by
    rw [Function.update_of_ne hj]
  rwa [Function.update_self] at this

theorem le_total (hi : i < n) (w : α → ℕ) (f : ℕ → α) : w (f i) ≤ total n w f :=
  Finset.single_le_sum (f := fun j => w (f j)) (fun _ _ => Nat.zero_le _) (Finset.mem_range.mpr hi)

theorem add_le_total {n i j : ℕ} (hi : i < n) (hj : j < n) (hij : i ≠ j) (w : α → ℕ) (f : ℕ → α) :
    w (f i) + w (f j) ≤ total n w f := by
  have hsub : ({i, j} : Finset ℕ) ⊆ Finset.range n := by
    intro k hk
    rcases Finset.mem_insert.mp hk with rfl | hk
    · exact Finset.mem_range.mpr hi
    · rw [Finset.mem_singleton.mp hk]
      exact Finset.mem_range.mpr hj
  have := Finset.sum_le_sum_of_subset (f := fun k => w (f k)) hsub
  rwa [Finset.sum_pair hij] at this

theorem total_eq_zero (h : ∀ i < n, w (f i) = 0) :
    total n w f = 0 :=
  Finset.sum_eq_zero fun i hi => h i (Finset.mem_range.mp hi)

theorem total_congr {β : Type*} {v : β → ℕ} {g : ℕ → β}
    (h : ∀ i < n, w (f i) = v (g i)) : total n w f = total n v g :=
  Finset.sum_congr rfl fun i hi => h i (Finset.mem_range.mp hi)

theorem total_of_le {n m : ℕ} (hnm : n ≤ m) (h : ∀ i, n ≤ i → w (f i) = 0) :
    total m w f = total n w f := by
  refine (Finset.sum_subset (Finset.range_mono hnm) fun i _ hi => h i ?_).symm
  exact Nat.le_of_not_lt fun hlt => hi (Finset.mem_range.mpr hlt)

theorem total_extend {β : Type*} {n m c : ℕ} {v : β → ℕ} {g : ℕ → β}
    (hold : ∀ i < n, v (g i) = w (f i)) (hnew : ∀ i < m, v (g (n + i)) = c) :
    total (n + m) v g = total n w f + m * c := by
  unfold total
  rw [Finset.sum_range_add, Finset.sum_congr rfl fun i hi => hold i (Finset.mem_range.mp hi),
    Finset.sum_congr rfl fun i hi => hnew i (Finset.mem_range.mp hi), Finset.sum_const,
    Finset.card_range, smul_eq_mul]

theorem length_le_total {l : List ℕ} (hl : l.Nodup) {P : α → Prop} [DecidablePred P]
    (h : ∀ i ∈ l, i < n ∧ P (f i)) : l.length ≤ total n (fun a => if P a then 1 else 0) f := by
  have hsub : l.toFinset ⊆ (Finset.range n).filter fun i => P (f i) := by
    intro i hi
    obtain ⟨h1, h2⟩ := h i (List.mem_toFinset.mp hi)
    exact Finset.mem_filter.mpr ⟨Finset.mem_range.mpr h1, h2⟩
  have := Finset.card_le_card hsub
  rwa [List.toFinset_card_of_nodup hl, Finset.card_filter] at this

end totals

/-! ### Spans -/

/-- The addresses `base, …, base + size - 1`. -/
structure Span where
  base : ℕ
  size : ℕ
deriving DecidableEq, Repr

namespace Span

/-- First address past the span. -/
def stop (r : Span) : ℕ := r.base + r.size

/-- `1` on the addresses of the span, `0` elsewhere. -/
def hits (r : Span) (x : ℕ) : ℕ := if r.base ≤ x ∧ x < r.base + r.size then 1 else 0

variable {r : Span}

theorem hits_eq_one {x : ℕ} : r.hits x = 1 ↔ r.base ≤ x ∧ x < r.base + r.size := by
  unfold hits; split_ifs with h <;> simp [h]

theorem hits_empty (h : r.size = 0) (x : ℕ) : r.hits x = 0 := by
  unfold hits; rw [if_neg]; omega

theorem sum_hits {n : ℕ} (h : r.size ≠ 0 → r.stop ≤ n) :
    ∑ x ∈ Finset.range n, r.hits x = r.size := by
  by_cases hz : r.size = 0
  · rw [hz]
    exact Finset.sum_eq_zero fun x _ => hits_empty hz x
  have hstop := h hz
  unfold stop at hstop
  have hfilter : (Finset.range n).filter (fun x => r.base ≤ x ∧ x < r.base + r.size) =
      Finset.Ico r.base (r.base + r.size) := by
    ext x
    simp only [Finset.mem_filter, Finset.mem_range, Finset.mem_Ico]
    omega
  simp only [hits]
  rw [← Finset.card_filter, hfilter, Nat.card_Ico, Nat.add_sub_cancel_left]

theorem hits_cut (b s t x : ℕ) :
    hits ⟨b, s + t⟩ x = hits ⟨b, s⟩ x + hits ⟨b + s, t⟩ x := by
  simp only [hits]; split_ifs <;> omega

theorem hits_carve {b s : ℕ} (hb : r.base ≤ b) (hs : b + s ≤ r.stop) (x : ℕ) :
    r.hits x = hits ⟨r.base, b - r.base⟩ x + hits ⟨b, s⟩ x + hits ⟨b + s, r.stop - (b + s)⟩ x := by
  unfold stop at hs ⊢
  have hr : r = ⟨r.base, (b - r.base) + (s + (r.base + r.size - (b + s)))⟩ := by
    cases r; simp only [Span.mk.injEq, true_and]; simp only at hb hs; omega
  have hb' : r.base + (b - r.base) = b := by omega
  calc r.hits x = hits ⟨r.base, (b - r.base) + (s + (r.base + r.size - (b + s)))⟩ x := by rw [← hr]
    _ = _ := by rw [hits_cut, hits_cut, hb']; omega

end Span

/-! ### Lists of spans -/

/-- How many spans of a list contain `x`. -/
def cover (rs : List Span) (x : ℕ) : ℕ := (rs.map (Span.hits · x)).sum

@[simp] theorem cover_nil (x : ℕ) : cover [] x = 0 := rfl

@[simp] theorem cover_cons (r : Span) (rs : List Span) (x : ℕ) :
    cover (r :: rs) x = r.hits x + cover rs x := by simp [cover]

variable {r : Span} {rs : List Span}

theorem cover_erase (h : r ∈ rs) (x : ℕ) :
    cover rs x = r.hits x + cover (rs.erase r) x := by
  have hp : (rs.map (Span.hits · x)).Perm ((r :: rs.erase r).map (Span.hits · x)) :=
    (List.perm_cons_erase h).map _
  have := hp.sum_eq
  simpa [cover] using this

theorem hits_le_cover (h : r ∈ rs) (x : ℕ) :
    r.hits x ≤ cover rs x := by
  rw [cover_erase h]; omega

/-- Exactly the addresses below `n`, each once. -/
def Exact (n : ℕ) (c : ℕ → ℕ) : Prop := ∀ x, c x = if x < n then 1 else 0

variable {c : ℕ → ℕ}

theorem Exact.le_one {n : ℕ} (h : Exact n c) (x : ℕ) : c x ≤ 1 := by
  rw [h x]; split_ifs <;> omega

theorem Exact.stop_le {n : ℕ} (h : Exact n c) (hr : 0 < r.size)
    (hc : ∀ x, r.hits x ≤ c x) : r.stop ≤ n := by
  have h1 : r.hits (r.base + r.size - 1) = 1 := Span.hits_eq_one.mpr ⟨by omega, by omega⟩
  have h2 := hc (r.base + r.size - 1)
  have h3 := h (r.base + r.size - 1)
  unfold Span.stop
  split_ifs at h3 <;> omega

theorem Exact.extend {n s : ℕ} {c c' : ℕ → ℕ} (h : Exact n c)
    (hc : ∀ x, c' x = c x + Span.hits ⟨n, s⟩ x) : Exact (n + s) c' := by
  intro x
  rw [hc x, h x]
  simp only [Span.hits]
  by_cases h1 : x < n
  · rw [if_pos h1, if_neg (by omega), if_pos (by omega)]
  · rw [if_neg h1]
    by_cases h2 : x < n + s
    · rw [if_pos ⟨by omega, h2⟩, if_pos h2]
    · rw [if_neg (by omega), if_neg h2]

end Tiling

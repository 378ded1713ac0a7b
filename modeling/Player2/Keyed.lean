import Mathlib.Data.List.Nodup

/-! # Lists of elements with a key

A list whose elements are told apart by a key, such as a linked list of records with their addresses.
`modifyAt` changes the element with a key, `find? (key · == c)` finds it and `eraseP (key · == c)` takes it
out.  Where the keys are distinct these are about one element, and the number of elements with a property
moves by at most one (`Distinct.countP_modifyAt`, `Distinct.countP_eraseP`). -/

namespace Keyed

variable {α κ : Type*} {key : α → κ} {l : List α} {c : κ} {x y : α}

/-! ### Distinct keys -/

/-- The keys are distinct. -/
def Distinct (key : α → κ) (l : List α) : Prop := (l.map key).Nodup

theorem Distinct.tail (h : Distinct key (x :: l)) : Distinct key l :=
  (List.nodup_cons.mp h).2

theorem Distinct.ne (h : Distinct key (x :: l)) (hy : y ∈ l) : key y ≠ key x := by
  intro e
  exact (List.nodup_cons.mp h).1 (e ▸ List.mem_map_of_mem hy)

theorem Distinct.eq (h : Distinct key l) (hx : x ∈ l) (hy : y ∈ l) (e : key x = key y) : x = y :=
  List.inj_on_of_nodup_map h hx hy e

variable {p : α → Bool}

theorem Distinct.eraseP (h : Distinct key l) : Distinct key (l.eraseP p) :=
  List.Nodup.sublist (List.eraseP_sublist.map key) h

theorem eq_of_countP_le_one (h : l.countP p ≤ 1) (hx : x ∈ l) (hy : y ∈ l)
    (px : p x = true) (py : p y = true) : x = y := by
  rw [List.countP_eq_length_filter] at h
  have mx : x ∈ l.filter p := List.mem_filter.mpr ⟨hx, px⟩
  have my : y ∈ l.filter p := List.mem_filter.mpr ⟨hy, py⟩
  match e : l.filter p, h, mx, my with
  | [z], _, mx, my => exact (List.mem_singleton.mp mx).trans (List.mem_singleton.mp my).symm

/-! ### Changes -/

variable [DecidableEq κ]

/-- Change the element with a key. -/
def modifyAt (key : α → κ) (l : List α) (c : κ) (f : α → α) : List α :=
  l.map fun x => if key x = c then f x else x

variable {f : α → α}

theorem mem_modifyAt :
    y ∈ modifyAt key l c f ↔ ∃ x ∈ l, (if key x = c then f x else x) = y := by
  unfold modifyAt
  rw [List.mem_map]

theorem map_modifyAt {β : Type*} {g : α → β} (h : ∀ x, g (f x) = g x) :
    (modifyAt key l c f).map g = l.map g := by
  unfold modifyAt
  rw [List.map_map]
  refine List.map_congr_left ?_
  intro x _
  simp only [Function.comp_apply]
  split
  · exact h x
  · rfl

theorem map_modifyAt_comm {β : Type*} {g : α → β} {key' : β → κ} {f' : β → β}
    (hk : ∀ x, key' (g x) = key x) (h : ∀ x, g (f x) = f' (g x)) :
    (modifyAt key l c f).map g = modifyAt key' (l.map g) c f' := by
  unfold modifyAt
  rw [List.map_map, List.map_map]
  refine List.map_congr_left ?_
  intro x _
  simp only [Function.comp_apply, hk]
  split
  · exact h x
  · rfl

theorem modifyAt_modifyAt {f g : α → α} (hf : ∀ x, key (f x) = key x) :
    modifyAt key (modifyAt key l c f) c g = modifyAt key l c (g ∘ f) := by
  unfold modifyAt
  rw [List.map_map]
  refine List.map_congr_left ?_
  intro x _
  simp only [Function.comp_apply]
  by_cases h : key x = c
  · rw [if_pos h, if_pos ((hf x).trans h), if_pos h]
  · rw [if_neg h, if_neg h, if_neg h]

/-! ### Changes of a list with distinct keys -/

theorem Distinct.modifyAt (h : Distinct key l) (hf : ∀ x, key (f x) = key x) :
    Distinct key (modifyAt key l c f) := by
  unfold Distinct
  rw [map_modifyAt hf]
  exact h

theorem modifyAt_eq_self (h : ∀ x ∈ l, key x ≠ c) : modifyAt key l c f = l := by
  conv_rhs => rw [← List.map_id l]
  refine List.map_congr_left ?_
  intro x hx
  rw [if_neg (h x hx)]
  rfl

theorem find?_some (h : l.find? (fun x => key x == c) = some x) : x ∈ l ∧ key x = c := by
  refine ⟨List.mem_of_find?_eq_some h, ?_⟩
  have e := List.find?_some h
  exact of_decide_eq_true e

theorem find?_modifyAt (hf : ∀ x, key (f x) = key x)
    (h : l.find? (fun y => key y == c) = some x) :
    (modifyAt key l c f).find? (fun y => key y == c) = some (f x) := by
  have hk := (find?_some h).2
  unfold modifyAt
  have e : (fun y => key y == c) ∘ (fun y => if key y = c then f y else y) = fun y => key y == c := by
    funext y
    simp only [Function.comp_apply]
    split
    · rw [hf y]
    · rfl
  rw [List.find?_map, e, h, Option.map_some, if_pos hk]

theorem Distinct.mem_eraseP (h : Distinct key l) :
    y ∈ l.eraseP (fun x => key x == c) ↔ y ∈ l ∧ key y ≠ c := by
  induction l with
  | nil => simp
  | cons x l ih =>
    by_cases e : key x = c
    · rw [List.eraseP_cons_of_pos (by simpa using e)]
      constructor
      · intro hy
        exact ⟨List.mem_cons_of_mem _ hy, e ▸ h.ne hy⟩
      · rintro ⟨hy, hne⟩
        rcases List.mem_cons.mp hy with rfl | hy
        · exact absurd e hne
        · exact hy
    · rw [List.eraseP_cons_of_neg (by simpa using e), List.mem_cons, ih h.tail, List.mem_cons]
      constructor
      · rintro (rfl | ⟨hy, hne⟩)
        · exact ⟨Or.inl rfl, e⟩
        · exact ⟨Or.inr hy, hne⟩
      · rintro ⟨rfl | hy, hne⟩
        · exact Or.inl rfl
        · exact Or.inr ⟨hy, hne⟩

theorem eraseP_modifyAt {d : κ} (hf : ∀ x, key (f x) = key x) :
    (modifyAt key l d f).eraseP (fun x => key x == c) =
      modifyAt key (l.eraseP (fun x => key x == c)) d f := by
  unfold modifyAt
  rw [List.eraseP_map]
  congr 2
  funext x
  simp only [Function.comp_apply]
  split
  · rw [hf x]
  · rfl

theorem Distinct.find?_eraseP (h : Distinct key l) (q : α → Prop) [DecidablePred q] :
    (l.eraseP (fun x => key x == c)).find? (fun x => q x) = l.find? (fun x => key x ≠ c ∧ q x) := by
  induction l with
  | nil => rfl
  | cons x l ih =>
    by_cases e : key x = c
    · rw [List.eraseP_cons_of_pos (by simpa using e), List.find?_cons_of_neg (by simp [e])]
      have hne : ∀ y ∈ l, key y ≠ c := fun y hy => e ▸ h.ne hy
      rw [← List.head?_filter, ← List.head?_filter]
      congr 1
      refine List.filter_congr ?_
      intro y hy
      simp only [ne_eq, hne y hy, not_false_eq_true, true_and]
    · rw [List.eraseP_cons_of_neg (by simpa using e)]
      by_cases hq : q x
      · rw [List.find?_cons_of_pos (by simpa using hq), List.find?_cons_of_pos (by simp [e, hq])]
      · rw [List.find?_cons_of_neg (by simpa using hq), List.find?_cons_of_neg (by simp [hq]),
          ih h.tail]

/-! ### Counting -/

theorem Distinct.countP_modifyAt (h : Distinct key l) (hx : x ∈ l) (p : α → Bool) (f : α → α) :
    (Keyed.modifyAt key l (key x) f).countP p + (p x).toNat = l.countP p + (p (f x)).toNat := by
  induction l with
  | nil => exact absurd hx List.not_mem_nil
  | cons y l ih =>
    have e : Keyed.modifyAt key (y :: l) (key x) f =
        (if key y = key x then f y else y) :: Keyed.modifyAt key l (key x) f := rfl
    rw [e, List.countP_cons, List.countP_cons]
    by_cases hy : key y = key x
    · -- the one element that changes; the rest has other keys
      have hyx : y = x := h.eq List.mem_cons_self hx hy
      subst hyx
      rw [if_pos rfl, modifyAt_eq_self (fun z hz => h.ne hz)]
      cases p y <;> cases p (f y) <;> simp
    · have hxl : x ∈ l := by
        rcases List.mem_cons.mp hx with rfl | hx
        · exact absurd rfl hy
        · exact hx
      have := ih h.tail hxl
      rw [if_neg hy]
      omega

theorem Distinct.countP_eraseP (h : Distinct key l) (hx : x ∈ l) (p : α → Bool) :
    (l.eraseP (fun y => key y == key x)).countP p + (p x).toNat = l.countP p := by
  induction l with
  | nil => exact absurd hx List.not_mem_nil
  | cons y l ih =>
    by_cases hy : key y = key x
    · have hyx : y = x := h.eq List.mem_cons_self hx hy
      subst hyx
      rw [List.eraseP_cons_of_pos (by simp), List.countP_cons]
      cases p y <;> simp
    · have hxl : x ∈ l := by
        rcases List.mem_cons.mp hx with rfl | hx
        · exact absurd rfl hy
        · exact hx
      rw [List.eraseP_cons_of_neg (by simpa using hy), List.countP_cons, List.countP_cons]
      have := ih h.tail hxl
      omega

end Keyed

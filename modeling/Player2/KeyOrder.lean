import Mathlib.Data.List.TakeWhile
import Mathlib.Data.List.Pairwise
import Mathlib.Order.Lattice
import Mathlib.Order.OrderDual

/-! # Lists in the order of a key

A list is `Ascending` when the keys of its entries do not decrease.  An entry is inserted in front
of the first entry with a greater key (`place`), and the entries below a bound are taken off the
front, those above a bound off the end.  In an ascending list these are all of them. -/

namespace KeyOrder

variable {α κ : Type*} [LinearOrder κ] (key : α → κ)

/-- The keys do not decrease. -/
def Ascending (l : List α) : Prop := l.Pairwise fun a b => key a ≤ key b

/-- The keys do not increase. -/
def Descending (l : List α) : Prop := l.Pairwise fun a b => key b ≤ key a

/-- The place of a key: in front of the first greater one. -/
def place (k : κ) (l : List α) : ℕ := l.findIdx fun a => k < key a

variable {key}

theorem insert_perm (a : α) (l : List α) (i : ℕ) : (l.take i ++ a :: l.drop i).Perm (a :: l) := by
  have h : (l.take i ++ a :: l.drop i).Perm (a :: (l.take i ++ l.drop i)) := List.perm_middle
  rwa [List.take_append_drop] at h

theorem Ascending.insert {l : List α} (h : Ascending key l) (a : α) :
    Ascending key (l.take (place key (key a) l) ++ a :: l.drop (place key (key a) l)) := by
  induction l with
  | nil => exact List.pairwise_singleton _ _
  | cons b l ih =>
    obtain ⟨hb, hl⟩ := List.pairwise_cons.mp h
    unfold place
    rw [List.findIdx_cons]
    cases hlt : decide (key a < key b) with
    | true =>
      have hab : key a < key b := of_decide_eq_true hlt
      refine List.Pairwise.cons ?_ h
      intro c hc
      rcases List.mem_cons.mp hc with rfl | hc
      · exact hab.le
      · exact hab.le.trans (hb c hc)
    | false =>
      have hba : key b ≤ key a := not_lt.mp (of_decide_eq_false hlt)
      refine List.Pairwise.cons ?_ (ih hl)
      intro c hc
      rcases List.mem_cons.mp ((insert_perm a l _).subset hc) with rfl | hc
      · exact hba
      · exact hb c hc

theorem Ascending.mem_takeWhile {l : List α} (h : Ascending key l) {k : κ} {a : α} :
    a ∈ l.takeWhile (fun b => key b < k) ↔ a ∈ l ∧ key a < k := by
  induction l with
  | nil => simp
  | cons b l ih =>
    obtain ⟨hb, hl⟩ := List.pairwise_cons.mp h
    by_cases hlt : key b < k
    · rw [List.takeWhile_cons_of_pos (by simpa using hlt), List.mem_cons, ih hl, List.mem_cons]
      constructor
      · rintro (rfl | ⟨hmem, ha⟩)
        · exact ⟨.inl rfl, hlt⟩
        · exact ⟨.inr hmem, ha⟩
      · rintro ⟨rfl | hmem, ha⟩
        · exact .inl rfl
        · exact .inr ⟨hmem, ha⟩
    · rw [List.takeWhile_cons_of_neg (by simpa using hlt)]
      constructor
      · intro hmem
        exact absurd hmem List.not_mem_nil
      · rintro ⟨hmem, ha⟩
        rcases List.mem_cons.mp hmem with rfl | hmem
        · exact absurd ha hlt
        · exact absurd ((hb a hmem).trans_lt ha) hlt

theorem Ascending.reverse {l : List α} (h : Ascending key l) : Descending key l.reverse :=
  List.pairwise_reverse.mpr h

theorem Ascending.mem_takeWhile_reverse {l : List α} (h : Ascending key l) {k : κ} {a : α} :
    a ∈ l.reverse.takeWhile (fun b => k < key b) ↔ a ∈ l ∧ k < key a := by
  have hdual : Ascending (fun b => OrderDual.toDual (key b)) l.reverse := h.reverse
  have hmem := hdual.mem_takeWhile (k := OrderDual.toDual k) (a := a)
  rw [List.mem_reverse] at hmem
  exact hmem

end KeyOrder

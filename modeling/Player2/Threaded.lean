import Mathlib.Data.List.Basic
import Mathlib.Logic.Function.Basic

/-! # Lists threaded through an array

The cells of an array are linked by a function `next`, and a cell `nil` that is none of them ends the
list.  `Chain next nil i cells` says that the cells met from `i` on are `cells`, in this order.

A cell is linked in behind the last one, and out behind a given place, by one write each; the lemmas say
what the cells are afterwards. -/

namespace Threaded

variable {ι : Type*}

/-- From `i` on, `next` leads through `cells` and then to `nil`. -/
def Chain (next : ι → ι) (nil : ι) : ι → List ι → Prop
  | i, [] => i = nil
  | i, j :: rest => i = j ∧ j ≠ nil ∧ Chain next nil (next j) rest

variable {next : ι → ι} {nil i : ι} {cells : List ι}

theorem Chain.nil_not_mem (h : Chain next nil i cells) : nil ∉ cells := by
  induction cells generalizing i with
  | nil => exact List.not_mem_nil
  | cons j rest ih =>
    obtain ⟨-, hj, hrest⟩ := h
    rintro (_ | ⟨_, hmem⟩)
    · exact hj rfl
    · exact ih hrest hmem

theorem Chain.congr {other : ι → ι} (h : Chain next nil i cells)
    (heq : ∀ j ∈ cells, other j = next j) : Chain other nil i cells := by
  induction cells generalizing i with
  | nil => exact h
  | cons j rest ih =>
    obtain ⟨rfl, hj, hrest⟩ := h
    refine ⟨rfl, hj, ?_⟩
    rw [heq i (List.mem_cons_self ..)]
    exact ih hrest fun k hk => heq k (List.mem_cons_of_mem _ hk)

variable [DecidableEq ι]

theorem Chain.link {last new : ι} {first : List ι} (h : Chain next nil i (first ++ [last]))
    (hnodup : (first ++ [last]).Nodup) (hnew : new ≠ nil) (hmem : new ∉ first ++ [last])
    (hend : next new = nil) :
    Chain (Function.update next last new) nil i (first ++ [last] ++ [new]) := by
  have hne : new ≠ last := fun heq => hmem (heq ▸ List.mem_append_right _ (List.mem_singleton_self _))
  induction first generalizing i with
  | nil =>
    obtain ⟨rfl, hlast, -⟩ := h
    refine ⟨rfl, hlast, ?_⟩
    rw [Function.update_self]
    refine ⟨rfl, hnew, ?_⟩
    rw [Function.update_of_ne hne]
    exact hend
  | cons j first ih =>
    obtain ⟨rfl, hj, hrest⟩ := h
    obtain ⟨hfresh, hnodup⟩ := List.nodup_cons.mp hnodup
    have hji : i ≠ last := fun heq =>
      hfresh (heq ▸ List.mem_append_right _ (List.mem_singleton_self _))
    refine ⟨rfl, hj, ?_⟩
    rw [Function.update_of_ne hji]
    exact ih hrest hnodup fun h => hmem (List.mem_cons_of_mem _ h)

theorem Chain.unlink {first : List ι} {before j : ι} {rest : List ι}
    (h : Chain next nil i (first ++ before :: j :: rest))
    (hnodup : (first ++ before :: j :: rest).Nodup) :
    Chain (Function.update next before (next j)) nil i (first ++ before :: rest) := by
  induction first generalizing i with
  | nil =>
    obtain ⟨rfl, hi, rfl, -, hrest⟩ := h
    refine ⟨rfl, hi, ?_⟩
    rw [Function.update_self]
    refine hrest.congr fun k hk => Function.update_of_ne ?_ _ _
    rintro rfl
    exact (List.nodup_cons.mp hnodup).1 (List.mem_cons_of_mem _ hk)
  | cons k first ih =>
    obtain ⟨rfl, hi, hrest⟩ := h
    obtain ⟨hfresh, hnodup⟩ := List.nodup_cons.mp hnodup
    have hne : i ≠ before := fun heq =>
      hfresh (heq ▸ List.mem_append_right _ (List.mem_cons_self ..))
    refine ⟨rfl, hi, ?_⟩
    rw [Function.update_of_ne hne]
    exact ih hrest hnodup

end Threaded

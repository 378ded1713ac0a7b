import Mathlib.Data.List.ReduceOption
import Mathlib.Data.List.Perm.Basic

/-! # Tables of slots

A table is a list of slots, each of them free or holding a value.  `insert` puts a value into the first
free slot, `clear` frees the slots whose value meets a condition, and `List.set _ _ none` frees one slot.
The lemmas say what `reduceOption`, the list of the values held, is afterwards. -/

namespace Slots

variable {α : Type*}

/-- The value goes into the first free slot, if there is one. -/
def insert : List (Option α) → α → Option (List (Option α))
  | [], _ => none
  | none :: rest, a => some (some a :: rest)
  | some b :: rest, a => (insert rest a).map fun rest' => some b :: rest'

/-- The slots with such a value are freed. -/
def clear (p : α → Bool) (slots : List (Option α)) : List (Option α) :=
  slots.map fun slot => slot.filter fun a => !p a

/-- Nothing is held behind the first free slot. -/
def Packed (slots : List (Option α)) : Prop := (slots.dropWhile Option.isSome).reduceOption = []

instance (slots : List (Option α)) : Decidable (Packed slots) :=
  inferInstanceAs (Decidable (_ = []))

variable {slots slots' : List (Option α)} {a : α}

theorem insert_length (h : insert slots a = some slots') : slots'.length = slots.length := by
  induction slots generalizing slots' with
  | nil => cases h
  | cons slot rest ih =>
    cases slot with
    | none =>
      obtain rfl := Option.some.inj h
      rfl
    | some b =>
      obtain ⟨rest', hrest, rfl⟩ := Option.map_eq_some_iff.mp h
      rw [List.length_cons, List.length_cons, ih hrest]

theorem insert_perm (h : insert slots a = some slots') :
    slots'.reduceOption.Perm (a :: slots.reduceOption) := by
  induction slots generalizing slots' with
  | nil => cases h
  | cons slot rest ih =>
    cases slot with
    | none =>
      obtain rfl := Option.some.inj h
      rw [List.reduceOption_cons_of_some, List.reduceOption_cons_of_none]
    | some b =>
      obtain ⟨rest', hrest, rfl⟩ := Option.map_eq_some_iff.mp h
      exact ((ih hrest).cons b).trans (List.Perm.swap ..)

/-- In a packed table the first free slot is behind all values held. -/
theorem Packed.insert (hpacked : Packed slots) (h : insert slots a = some slots') :
    slots'.reduceOption = slots.reduceOption ++ [a] := by
  induction slots generalizing slots' with
  | nil => cases h
  | cons slot rest ih =>
    cases slot with
    | none =>
      obtain rfl := Option.some.inj h
      have hrest : rest.reduceOption = [] := hpacked
      rw [List.reduceOption_cons_of_some, List.reduceOption_cons_of_none, hrest]
      rfl
    | some b =>
      obtain ⟨rest', hrest, rfl⟩ := Option.map_eq_some_iff.mp h
      rw [List.reduceOption_cons_of_some, List.reduceOption_cons_of_some, ih hpacked hrest]
      rfl

theorem insert_eq_none_iff : insert slots a = none ↔ slots.reduceOption.length = slots.length := by
  induction slots with
  | nil => exact iff_of_true rfl rfl
  | cons slot rest ih =>
    cases slot with
    | none =>
      rw [List.reduceOption_cons_of_none, List.length_cons]
      have hle := List.reduceOption_length_le rest
      exact iff_of_false (Option.some_ne_none _) (by omega)
    | some b =>
      rw [List.reduceOption_cons_of_some, List.length_cons, List.length_cons, Nat.add_left_inj, ← ih]
      exact Option.map_eq_none_iff

theorem clear_reduceOption (p : α → Bool) (slots : List (Option α)) :
    (clear p slots).reduceOption = slots.reduceOption.filter fun a => !p a := by
  induction slots with
  | nil => rfl
  | cons slot rest ih =>
    cases slot with
    | none => exact ih
    | some b =>
      rw [List.reduceOption_cons_of_some]
      by_cases hb : p b = true
      · rw [List.filter_cons_of_neg (by rw [hb]; decide), ← ih]
        unfold clear
        rw [List.map_cons, Option.filter_some, hb]
        rfl
      · have hfalse : p b = false := Bool.eq_false_iff.mpr hb
        rw [List.filter_cons_of_pos (by rw [hfalse]; rfl), ← ih]
        unfold clear
        rw [List.map_cons, Option.filter_some, hfalse]
        rfl

theorem set_none_perm {i : ℕ} (h : slots[i]? = some (some a)) :
    slots.reduceOption.Perm (a :: (slots.set i none).reduceOption) := by
  induction slots generalizing i with
  | nil => cases h
  | cons slot rest ih =>
    cases i with
    | zero =>
      obtain rfl : slot = some a := Option.some.inj h
      rw [List.set_cons_zero, List.reduceOption_cons_of_some, List.reduceOption_cons_of_none]
    | succ i =>
      have hrest : rest[i]? = some (some a) := h
      rw [List.set_cons_succ]
      cases slot with
      | none =>
        exact ih hrest
      | some b =>
        exact ((ih hrest).cons b).trans (List.Perm.swap ..)

theorem set_some_perm {i : ℕ} {b : α} (h : slots[i]? = some (some a)) :
    (slots.set i (some b)).reduceOption.Perm (b :: (slots.set i none).reduceOption) := by
  have hlt : i < slots.length := (List.getElem?_eq_some_iff.mp h).1
  have hget : (slots.set i (some b))[i]? = some (some b) := List.getElem?_set_self hlt
  have hperm := set_none_perm hget
  rwa [List.set_set] at hperm

end Slots

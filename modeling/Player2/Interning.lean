import Mathlib.Data.List.Nodup

/-! # Interning

A table of distinct keys in the order in which they were first met.  `intern` gives a key its place in the
table and appends it if it is new; `internAll` does so with the keys of a list.  The places that are given
name the keys (`getElem?_internAll`), hence two keys have one place exactly if they are the same
(`place_eq_iff`). -/

namespace Interning

variable {κ : Type*} {table : List κ} {k k' : κ} {keys : List κ} {x x' : ℕ}

theorem place_eq_iff (h : table.Nodup) (hx : table[x]? = some k) (hx' : table[x']? = some k') :
    x = x' ↔ k = k' := by
  constructor
  · rintro rfl
    exact Option.some.inj (hx.symm.trans hx')
  · rintro rfl
    obtain ⟨hlt, heq⟩ := List.getElem?_eq_some_iff.mp hx
    obtain ⟨hlt', heq'⟩ := List.getElem?_eq_some_iff.mp hx'
    exact (List.Nodup.getElem_inj_iff h).mp (heq.trans heq'.symm)

variable [DecidableEq κ]

/-- The place of a key, and the table with the key in it. -/
def intern (table : List κ) (k : κ) : List κ × ℕ :=
  if k ∈ table then (table, table.idxOf k) else (table ++ [k], table.length)

/-- The places of the keys of a list. -/
def internAll (table : List κ) : List κ → List κ × List ℕ
  | [] => (table, [])
  | k :: keys =>
    let first := intern table k
    let rest := internAll first.1 keys
    (rest.1, first.2 :: rest.2)

theorem intern_of_mem (h : k ∈ table) : intern table k = (table, table.idxOf k) := if_pos h

theorem intern_of_notMem (h : k ∉ table) : intern table k = (table ++ [k], table.length) := if_neg h

theorem prefix_intern (table : List κ) (k : κ) : table <+: (intern table k).1 := by
  by_cases h : k ∈ table
  · refine ⟨[], ?_⟩
    rw [intern_of_mem h, List.append_nil]
  · rw [intern_of_notMem h]
    exact List.prefix_append table [k]

theorem nodup_intern (h : table.Nodup) (k : κ) : (intern table k).1.Nodup := by
  by_cases hk : k ∈ table
  · rw [intern_of_mem hk]
    exact h
  · rw [intern_of_notMem hk]
    exact List.nodup_append.mpr ⟨h, List.nodup_singleton k, fun a ha b hb hab =>
      hk (List.mem_singleton.mp hb ▸ hab ▸ ha)⟩

theorem getElem?_intern (table : List κ) (k : κ) : (intern table k).1[(intern table k).2]? = some k := by
  by_cases h : k ∈ table
  · rw [intern_of_mem h]
    exact List.getElem?_idxOf h
  · rw [intern_of_notMem h]
    exact List.getElem?_concat_length

theorem mem_intern : k' ∈ (intern table k).1 ↔ k' ∈ table ∨ k' = k := by
  by_cases h : k ∈ table
  · rw [intern_of_mem h]
    exact ⟨.inl, fun h' => h'.elim id fun e => e ▸ h⟩
  · rw [intern_of_notMem h, List.mem_append, List.mem_singleton]

theorem prefix_internAll (table keys : List κ) : table <+: (internAll table keys).1 := by
  induction keys generalizing table with
  | nil => exact List.prefix_refl table
  | cons k keys ih => exact (prefix_intern table k).trans (ih _)

theorem mem_internAll : k ∈ (internAll table keys).1 ↔ k ∈ table ∨ k ∈ keys := by
  induction keys generalizing table with
  | nil => exact ⟨.inl, fun h => h.elim id nofun⟩
  | cons first keys ih =>
    show k ∈ (internAll (intern table first).1 keys).1 ↔ _
    rw [ih, mem_intern, List.mem_cons, or_assoc]

theorem getElem?_internAll_of_some (h : table[x]? = some k) (keys : List κ) :
    (internAll table keys).1[x]? = some k := by
  obtain ⟨hlt, -⟩ := List.getElem?_eq_some_iff.mp h
  rw [List.prefix_iff_getElem?.mp (prefix_internAll table keys) x hlt, ← List.getElem?_eq_getElem hlt, h]

theorem getElem?_internAll (h : (k, x) ∈ keys.zip (internAll table keys).2) :
    (internAll table keys).1[x]? = some k := by
  induction keys generalizing table with
  | nil => cases h
  | cons first keys ih =>
    rcases List.mem_cons.mp h with heq | hrest
    · obtain ⟨rfl, rfl⟩ := Prod.mk.injEq .. ▸ heq
      exact getElem?_internAll_of_some (getElem?_intern table k) keys
    · exact ih hrest

end Interning

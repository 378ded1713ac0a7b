import Player2.Alternating
import Player2.H264Marking

/-! # Initial reference lists of a field

`InitializeReferencePictureListField` makes the reference list of a field from a short-term and a
long-term list of entries of `ReferenceFrames`.  Two cursors walk each list, one for the fields of the
parity of the picture and one for the others; a round takes a field with each, passing over the entries
whose field of that parity is not marked.  At the end the list is cut.

`fieldsInOrder` is the order the standard asks for: the marked fields of the two parities in turn, the
parity of the picture first, and the rest of one parity when the other has run out.  The list is its
first `MaxListEntries` fields (`initializeReferencePictureListField_eq`). -/

namespace Player2.H264

/-- `REF_PIC_USE_FIELD_TOP` and `REF_PIC_USE_FIELD_BOT`. -/
inductive FieldUse
  | top
  | bot
deriving DecidableEq, Repr

/-- An entry of a reference list. -/
structure FieldReference where
  entryIndex : ℕ
  longTermReference : Bool
  usageCode : FieldUse
deriving DecidableEq, Repr

/-- The parity of the picture, and the other one. -/
def sameParityUse (bottomFieldFlag : Bool) : FieldUse := if bottomFieldFlag then .bot else .top

def alternateParityUse (bottomFieldFlag : Bool) : FieldUse := if bottomFieldFlag then .top else .bot

/-- `SameParityUsedForShortTermReference` and the three codes beside it. -/
def usedForReference (longTermReference : Bool) : FieldUse → Usage
  | .top => if longTermReference then usedForTopLongTermReference else usedForTopShortTermReference
  | .bot => if longTermReference then usedForBotLongTermReference else usedForBotShortTermReference

namespace ReferenceTable

variable (s : ReferenceTable)

/-- The field of an entry is marked. -/
def fieldMarked (longTermReference : Bool) (use : FieldUse) (entry : ℕ) : Bool :=
  isUsed (s.usage entry) (usedForReference longTermReference use)

/-- Append the field of the entry at a cursor, unless the cursor is at the end. -/
def appendField (longTermReference : Bool) (use : FieldUse) (entries : List ℕ) (cursor : ℕ)
    (list : List FieldReference) : List FieldReference :=
  if h : cursor < entries.length then list ++ [⟨entries[cursor], longTermReference, use⟩] else list

/-- The loop over one list of entries, `none` when the fuel is used up. -/
def insertFields (longTermReference : Bool) (same alternate : FieldUse) (entries : List ℕ) :
    ℕ → ℕ → ℕ → List FieldReference → Option (List FieldReference)
  | 0, _, _, _ => none
  | fuel + 1, sameParityIndex, alternateParityIndex, list =>
    if sameParityIndex < entries.length ∨ alternateParityIndex < entries.length then
      let i := entries.advance (s.fieldMarked longTermReference same) entries.length sameParityIndex
      let j := entries.advance (s.fieldMarked longTermReference alternate) entries.length
        alternateParityIndex
      insertFields longTermReference same alternate entries fuel (i + 1) (j + 1)
        (appendField longTermReference alternate entries j
          (appendField longTermReference same entries i list))
    else some list

/-- `InitializeReferencePictureListField`, for a picture with the flag `bottom_field_flag`. -/
def initializeReferencePictureListField (bottomFieldFlag : Bool) (shortTermList longTermList : List ℕ)
    (maxListEntries : ℕ) : Option (List FieldReference) := do
  let same := sameParityUse bottomFieldFlag
  let alternate := alternateParityUse bottomFieldFlag
  let list ← s.insertFields false same alternate shortTermList (shortTermList.length + 1) 0 0 []
  let list ← s.insertFields true same alternate longTermList (longTermList.length + 1) 0 0 list
  return if maxListEntries < list.length then list.take maxListEntries else list

/-! ### The order of the standard -/

/-- The marked fields of one parity, in the order of the entries. -/
def markedFields (longTermReference : Bool) (use : FieldUse) (entries : List ℕ) :
    List FieldReference :=
  (entries.filter (s.fieldMarked longTermReference use)).map (⟨·, longTermReference, use⟩)

/-- The fields of the two parities in turn. -/
def fieldsInTurn (longTermReference bottomFieldFlag : Bool) (entries : List ℕ) :
    List FieldReference :=
  (s.markedFields longTermReference (sameParityUse bottomFieldFlag) entries).alternating
    (s.markedFields longTermReference (alternateParityUse bottomFieldFlag) entries)

/-- The short-term fields, then the long-term ones. -/
def fieldsInOrder (bottomFieldFlag : Bool) (shortTermList longTermList : List ℕ) :
    List FieldReference :=
  s.fieldsInTurn false bottomFieldFlag shortTermList ++
    s.fieldsInTurn true bottomFieldFlag longTermList

/-! ### What the loop appends -/

/-- The fields one cursor still has before it. -/
def fieldsFrom (longTermReference : Bool) (use : FieldUse) (entries : List ℕ) (cursor : ℕ) :
    List FieldReference :=
  s.markedFields longTermReference use (entries.drop cursor)

variable {s} {longTermReference : Bool} {use : FieldUse} {entries : List ℕ}

theorem fieldsFrom_of_le {cursor : ℕ} (h : entries.length ≤ cursor) :
    s.fieldsFrom longTermReference use entries cursor = [] := by
  unfold fieldsFrom markedFields
  rw [List.drop_eq_nil_of_le h]
  rfl

variable (s longTermReference use entries) in
theorem fieldsFrom_advance (cursor : ℕ) :
    let i := entries.advance (s.fieldMarked longTermReference use) entries.length cursor
    (∃ f, s.fieldsFrom longTermReference use entries cursor =
        f :: s.fieldsFrom longTermReference use entries (i + 1) ∧
      ∀ list, appendField longTermReference use entries i list = list ++ [f]) ∨
    (s.fieldsFrom longTermReference use entries cursor = [] ∧
      s.fieldsFrom longTermReference use entries (i + 1) = [] ∧
      ∀ list, appendField longTermReference use entries i list = list) := by
  intro i
  by_cases h : i < entries.length
  · left
    refine ⟨⟨entries[i], longTermReference, use⟩, ?_, ?_⟩
    · have e := List.filter_drop_of_advance_lt (s.fieldMarked longTermReference use) entries
        entries.length cursor (Nat.le_add_left _ _) h
      unfold fieldsFrom markedFields
      rw [e]
      rfl
    · intro list
      simp only [appendField, h, dite_true]
  · right
    refine ⟨?_, ?_, ?_⟩
    · unfold fieldsFrom markedFields
      rw [List.filter_drop_of_le_advance _ _ _ _ (Nat.le_of_not_lt h)]
      rfl
    · exact fieldsFrom_of_le (by omega)
    · intro list
      simp only [appendField, h, dite_false]

theorem insertFields_eq {same alternate : FieldUse} {fuel i j : ℕ} (list : List FieldReference)
    (hfuel : 0 < fuel) (hi : entries.length < i + fuel) (hj : entries.length < j + fuel) :
    s.insertFields longTermReference same alternate entries fuel i j list =
      some (list ++ (s.fieldsFrom longTermReference same entries i).alternating
        (s.fieldsFrom longTermReference alternate entries j)) := by
  induction fuel generalizing i j list with
  | zero => exact absurd hfuel (Nat.lt_irrefl 0)
  | succ fuel ih =>
    unfold insertFields
    by_cases hc : i < entries.length ∨ j < entries.length
    · have hi' := List.le_advance (s.fieldMarked longTermReference same) entries entries.length i
      have hj' := List.le_advance (s.fieldMarked longTermReference alternate) entries
        entries.length j
      rw [if_pos hc, ih _ (by omega) (by omega) (by omega)]
      -- each cursor takes the first field it has, if there is one
      obtain ⟨f, ef, af⟩ | ⟨ef, ef', af⟩ := fieldsFrom_advance s longTermReference same entries i <;>
        obtain ⟨g, eg, ag⟩ | ⟨eg, eg', ag⟩ := fieldsFrom_advance s longTermReference alternate entries j
      · rw [af, ag, ef, eg, List.alternating_cons_cons]
        simp only [List.append_assoc, List.cons_append, List.nil_append]
      · rw [af, ag, ef, eg, eg', List.alternating_nil_right, List.alternating_nil_right]
        simp only [List.append_assoc, List.cons_append, List.nil_append]
      · rw [af, ag, ef, ef', eg, List.alternating_nil_left, List.alternating_nil_left]
        simp only [List.append_assoc, List.cons_append, List.nil_append]
      · rw [af, ag, ef, ef', eg, eg']
    · rw [if_neg hc, fieldsFrom_of_le (by omega), fieldsFrom_of_le (by omega),
        List.alternating_nil_left, List.append_nil]

variable (s) in
theorem insertFields_start {same alternate : FieldUse} (list : List FieldReference) :
    s.insertFields longTermReference same alternate entries (entries.length + 1) 0 0 list =
      some (list ++ (s.markedFields longTermReference same entries).alternating
        (s.markedFields longTermReference alternate entries)) :=
  insertFields_eq list (Nat.succ_pos _) (by omega) (by omega)

theorem fieldsInOrder_perm (s : ReferenceTable) (bottomFieldFlag : Bool)
    (shortTermList longTermList : List ℕ) :
    (s.fieldsInOrder bottomFieldFlag shortTermList longTermList).Perm
      ((s.markedFields false .top shortTermList ++ s.markedFields false .bot shortTermList) ++
        (s.markedFields true .top longTermList ++ s.markedFields true .bot longTermList)) := by
  have turn : ∀ long entries, (s.fieldsInTurn long bottomFieldFlag entries).Perm
      (s.markedFields long .top entries ++ s.markedFields long .bot entries) := by
    intro long entries
    refine (List.alternating_perm _ _).trans ?_
    cases bottomFieldFlag with
    | false => exact List.Perm.refl _
    | true => exact List.perm_append_comm
  exact (turn false shortTermList).append (turn true longTermList)

/-- **The list of a field.**  The marked fields in the order of the standard, cut to `MaxListEntries`. -/
theorem initializeReferencePictureListField_eq (s : ReferenceTable) (bottomFieldFlag : Bool)
    (shortTermList longTermList : List ℕ) (maxListEntries : ℕ) :
    s.initializeReferencePictureListField bottomFieldFlag shortTermList longTermList maxListEntries =
      some ((s.fieldsInOrder bottomFieldFlag shortTermList longTermList).take maxListEntries) ∧
    (s.fieldsInOrder bottomFieldFlag shortTermList longTermList).Perm
      ((s.markedFields false .top shortTermList ++ s.markedFields false .bot shortTermList) ++
        (s.markedFields true .top longTermList ++ s.markedFields true .bot longTermList)) := by
  refine ⟨?_, s.fieldsInOrder_perm bottomFieldFlag shortTermList longTermList⟩
  unfold initializeReferencePictureListField
  simp only [Option.bind_eq_bind, insertFields_start, Option.bind_some, List.nil_append]
  congr 1
  split
  · rfl
  next h => exact (List.take_of_length_le (Nat.le_of_not_lt h)).symm

/-- One frame with both fields marked, and room for one field. -/
theorem initializeReferencePictureListField_cut :
    let s : ReferenceTable :=
      { referenceFrames := fun _ => ⟨0, false, 5, 0, 0, 0, 0, 0, 0, 0, 0⟩
        numShortTerm := 1, numLongTerm := 0, events := [] }
    s.initializeReferencePictureListField false [0] [] 1 = some [⟨0, false, .top⟩] ∧
      s.fieldsInOrder false [0] [] = [⟨0, false, .top⟩, ⟨0, false, .bot⟩] := by
  decide +kernel

end ReferenceTable

end Player2.H264

import Player2.H264Marking
import Player2.Tiling

/-! # The reference counters

`NumShortTerm` and `NumLongTerm` count the entries of the table with a short-term and with a long-term
code (`Counted`).  Every operation of the marking process adjusts them for itself.  Releases always
keep them right; the operations that toggle codes or restart the counts do so only in the states of
`Careful`. -/

namespace Player2.H264

open Tiling (total total_update total_congr total_eq_zero)

/-! ### Tallies -/

/-- No field has both codes. -/
def Exclusive (u : Usage) : Prop :=
  u &&& (usedForTopShortTermReference ||| usedForTopLongTermReference) ≠
      usedForTopShortTermReference ||| usedForTopLongTermReference ∧
    u &&& (usedForBotShortTermReference ||| usedForBotLongTermReference) ≠
      usedForBotShortTermReference ||| usedForBotLongTermReference

instance : DecidablePred Exclusive := fun _ => inferInstanceAs (Decidable (_ ∧ _))

namespace ReferenceTable

/-- The number of entries with one of the codes. -/
def tally (codes : Usage) (s : ReferenceTable) : ℕ :=
  total tableSize (fun e : ReferenceFrame => (isUsed e.usage codes).toNat) s.referenceFrames

theorem tally_eq (codes : Usage) (s : ReferenceTable) :
    s.tally codes =
      total tableSize (fun e : ReferenceFrame => (isUsed e.usage codes).toNat) s.referenceFrames := rfl

-- A tally is never to be computed in a proof.
attribute [irreducible] tally

/-- The counters describe the table. -/
structure Counted (s : ReferenceTable) : Prop where
  short : s.numShortTerm.toNat = s.tally anyUsedForShortTermReference
  long : s.numLongTerm.toNat = s.tally anyUsedForLongTermReference
  exclusive : ∀ i < tableSize, Exclusive (s.usage i)

theorem tally_le (codes : Usage) (s : ReferenceTable) : s.tally codes ≤ tableSize := by
  rw [tally_eq, total]
  refine (Finset.sum_le_card_nsmul _ _ 1 fun i _ => Bool.toNat_le _).trans ?_
  rw [Finset.card_range, smul_eq_mul, Nat.mul_one]

variable {s t : ReferenceTable} {i : ℕ} {e : ReferenceFrame}

theorem tally_update (hi : i < tableSize)
    (h : t.referenceFrames = Function.update s.referenceFrames i e) (codes : Usage) :
    t.tally codes + (isUsed (s.usage i) codes).toNat = s.tally codes + (isUsed e.usage codes).toNat := by
  rw [tally_eq, tally_eq, h]
  exact total_update hi _ _ _

theorem tally_congr (h : ∀ i < tableSize, t.usage i = s.usage i)
    (codes : Usage) : t.tally codes = s.tally codes := by
  rw [tally_eq, tally_eq]
  exact total_congr fun i hi => congrArg (fun u => (isUsed u codes).toNat) (h i hi)

section counts
variable {s t : ReferenceTable} {n : Word} {codes : Usage} {i : ℕ} {e : ReferenceFrame}

theorem count_same (h : n.toNat = s.tally codes) (hi : i < tableSize)
    (ht : t.referenceFrames = Function.update s.referenceFrames i e)
    (hsame : isUsed e.usage codes = isUsed (s.usage i) codes) : n.toNat = t.tally codes := by
  have htally := tally_update hi ht codes
  rw [hsame] at htally
  rw [h]
  exact (Nat.add_right_cancel htally).symm

theorem count_gained (h : n.toNat = s.tally codes) (hi : i < tableSize)
    (ht : t.referenceFrames = Function.update s.referenceFrames i e)
    (hold : isUsed (s.usage i) codes = false) (hnew : isUsed e.usage codes = true) :
    (n + 1).toNat = t.tally codes := by
  have htally := tally_update hi ht codes
  have hle := tally_le codes t
  simp only [hold, hnew, Bool.toNat_true, Bool.toNat_false, Nat.add_zero] at htally
  rw [BitVec.toNat_add, h, htally]
  rw [htally] at hle
  exact Nat.mod_eq_of_lt (Nat.lt_of_le_of_lt hle (by decide))

theorem count_lost (h : n.toNat = s.tally codes) (hi : i < tableSize)
    (ht : t.referenceFrames = Function.update s.referenceFrames i e)
    (hold : isUsed (s.usage i) codes = true) (hnew : isUsed e.usage codes = false) :
    (n - 1).toNat = t.tally codes := by
  have htally := tally_update hi ht codes
  have hlt := n.isLt
  simp only [hold, hnew, Bool.toNat_true, Bool.toNat_false, Nat.add_zero] at htally
  rw [BitVec.toNat_sub, h, ← htally]
  change (2 ^ 32 - 1 + (t.tally codes + 1)) % 2 ^ 32 = t.tally codes
  omega

end counts

theorem exclusive_update (h : ∀ j < tableSize, Exclusive (s.usage j))
    (ht : t.referenceFrames = Function.update s.referenceFrames i e)
    (he : Exclusive e.usage) : ∀ j < tableSize, Exclusive (t.usage j) := by
  intro j hj
  unfold usage
  rw [ht]
  by_cases hji : j = i
  · rw [hji, Function.update_self]
    exact he
  · rw [Function.update_of_ne hji]
    exact h j hj

/-! ### Releases -/

theorem isUsed_of_release {u codes released : Usage} (h : isUsed (u &&& ~~~released) codes = true) :
    isUsed u codes = true := by
  unfold isUsed at h ⊢
  rw [bne_iff_ne] at h ⊢
  intro hzero
  rw [BitVec.and_assoc, BitVec.and_comm (~~~released), ← BitVec.and_assoc, hzero] at h
  exact h (BitVec.zero_and)

theorem exclusive_release : ∀ u released : Usage, Exclusive u → Exclusive (u &&& ~~~released) := by
  decide

variable {codes : Usage}

theorem count_released {n : Word} (h : n.toNat = s.tally codes)
    (hi : i < tableSize) {released : Usage}
    (ht : t.referenceFrames = Function.update s.referenceFrames i
      { s.referenceFrames i with usage := s.usage i &&& ~~~released }) :
    (if isUsed (s.usage i) codes && !isUsed (s.usage i &&& ~~~released) codes then n - 1 else n).toNat =
      t.tally codes := by
  cases hnew : isUsed (s.usage i &&& ~~~released) codes with
  | true =>
    rw [Bool.not_true, Bool.and_false, if_neg Bool.false_ne_true]
    exact count_same h hi ht (hnew.trans (isUsed_of_release hnew).symm)
  | false =>
    rw [Bool.not_false, Bool.and_true]
    cases hold : isUsed (s.usage i) codes with
    | true => exact count_lost h hi ht hold hnew
    | false => exact count_same h hi ht (hnew.trans hold.symm)

theorem Counted.releaseReference (h : s.Counted) (actuallyRelease : Bool)
    (hi : i < tableSize) (released : Usage) :
    (s.releaseReference actuallyRelease i released).Counted := by
  have hframes : (s.releaseReference actuallyRelease i released).referenceFrames =
      Function.update s.referenceFrames i
        { s.referenceFrames i with usage := s.usage i &&& ~~~released } := rfl
  refine ⟨count_released h.short hi hframes, count_released h.long hi hframes, ?_⟩
  exact exclusive_update h.exclusive hframes (exclusive_release _ _ (h.exclusive i hi))

/-! ### Entering the picture -/

theorem enter_short : ∀ (u : Usage) (top : Bool), Exclusive u →
    isUsed u (parityShort top ||| parityLong top) = false →
      Exclusive (u ||| parityShort top) ∧
        isUsed (u ||| parityShort top) anyUsedForShortTermReference = true ∧
        isUsed (u ||| parityShort top) anyUsedForLongTermReference =
          isUsed u anyUsedForLongTermReference ∧
        isUsed (u ||| parityShort top) (parityShort (!top)) = isUsed u anyUsedForShortTermReference := by
  decide

theorem enter_long : ∀ (u : Usage) (top : Bool), Exclusive u →
    isUsed u (parityShort top ||| parityLong top) = false →
      Exclusive (u ||| parityLong top) ∧
        isUsed (u ||| parityLong top) anyUsedForLongTermReference = true ∧
        isUsed (u ||| parityLong top) anyUsedForShortTermReference =
          isUsed u anyUsedForShortTermReference ∧
        isUsed (u ||| parityLong top) (parityLong (!top)) = isUsed u anyUsedForLongTermReference := by
  decide

theorem count_entered {n : Word} (h : n.toNat = s.tally codes)
    (hi : i < tableSize)
    (ht : t.referenceFrames = Function.update s.referenceFrames i e)
    (hnew : isUsed e.usage codes = true) {other : Usage}
    (hother : isUsed e.usage other = isUsed (s.usage i) codes) :
    (if !isUsed e.usage other then n + 1 else n).toNat = t.tally codes := by
  rw [hother]
  cases hold : isUsed (s.usage i) codes with
  | true => exact count_same h hi ht (hnew.trans hold.symm)
  | false => exact count_gained h hi ht hold hnew

variable {p : ReferencePicture}

theorem Counted.addSecondField (h : s.Counted) (actuallyRelease : Bool)
    (hfield : p.field = true) (hi : i < tableSize)
    (hunused : isUsed (s.usage i) p.fieldUsed = false) :
    (s.addSecondField actuallyRelease p i).Counted := by
  obtain ⟨hshort, hlong, hother, hotherLong⟩ := p.codes_field hfield
  have hframes : (s.addSecondField actuallyRelease p i).referenceFrames =
    Function.update s.referenceFrames i (p.secondFieldOf (s.referenceFrames i)) := rfl
  have hexclusive := h.exclusive i hi
  unfold ReferencePicture.fieldUsed at hunused
  rw [hshort, hlong] at hunused
  cases hterm : p.longTerm with
  | false =>
    obtain ⟨he, hnew, hkept, hcount⟩ := enter_short _ _ hexclusive hunused
    have husage : (p.secondFieldOf (s.referenceFrames i)).usage = s.usage i ||| parityShort p.top := by
      rw [← hshort]
      unfold ReferencePicture.secondFieldOf
      rw [hterm]
      rfl
    rw [← husage] at he hnew hkept hcount
    refine ⟨?_, ?_, exclusive_update h.exclusive hframes he⟩
    · have hnumber : (s.addSecondField actuallyRelease p i).numShortTerm =
          if !isUsed (p.secondFieldOf (s.referenceFrames i)).usage (parityShort (!p.top)) then
            s.numShortTerm + 1
          else s.numShortTerm := by
        unfold ReferenceTable.addSecondField
        rw [hterm, hother]
        rfl
      rw [hnumber]
      exact count_entered h.short hi hframes hnew hcount
    · have hnumber : (s.addSecondField actuallyRelease p i).numLongTerm = s.numLongTerm := by
        unfold ReferenceTable.addSecondField
        rw [hterm]
        rfl
      rw [hnumber]
      exact count_same h.long hi hframes hkept
  | true =>
    obtain ⟨he, hnew, hkept, hcount⟩ := enter_long _ _ hexclusive hunused
    have husage : (p.secondFieldOf (s.referenceFrames i)).usage = s.usage i ||| parityLong p.top := by
      rw [← hlong]
      unfold ReferencePicture.secondFieldOf
      rw [hterm]
      rfl
    rw [← husage] at he hnew hkept hcount
    refine ⟨?_, ?_, exclusive_update h.exclusive hframes he⟩
    · have hnumber : (s.addSecondField actuallyRelease p i).numShortTerm = s.numShortTerm := by
        unfold ReferenceTable.addSecondField
        rw [hterm]
        rfl
      rw [hnumber]
      exact count_same h.short hi hframes hkept
    · have hnumber : (s.addSecondField actuallyRelease p i).numLongTerm =
          if !isUsed (p.secondFieldOf (s.referenceFrames i)).usage (parityLong (!p.top)) then
            s.numLongTerm + 1
          else s.numLongTerm := by
        unfold ReferenceTable.addSecondField
        rw [hterm, hotherLong]
        rfl
      rw [hnumber]
      exact count_entered h.long hi hframes hnew hcount

theorem Counted.enterSecondField (h : s.Counted) (actuallyRelease : Bool)
    (p : ReferencePicture) : (s.enterSecondField actuallyRelease p).table.Counted := by
  unfold ReferenceTable.enterSecondField
  split
  next hfield =>
    refine foldl_entries (I := fun r : SecondFieldSearch => r.table.Counted) h fun r i hi hr => ?_
    unfold lookAt
    dsimp only
    split
    next => exact hr
    next =>
      split
      next => exact hr
      next hgood =>
        have hunused := (Bool.or_eq_false_iff.mp (Bool.eq_false_iff.mpr hgood)).1
        exact hr.addSecondField actuallyRelease hfield (hi.trans_le p.entries_le) hunused
  next => exact h

theorem Counted.of_usage (h : s.Counted)
    (husage : ∀ i < tableSize, t.usage i = s.usage i) (hshort : t.numShortTerm = s.numShortTerm)
    (hlong : t.numLongTerm = s.numLongTerm) : t.Counted := by
  refine ⟨?_, ?_, fun i hi => (husage i hi).symm ▸ h.exclusive i hi⟩
  · rw [hshort, h.short, tally_congr husage]
  · rw [hlong, h.long, tally_congr husage]

/-- No entry beyond those looked at is in use. -/
def UnusedBeyond (s : ReferenceTable) (p : ReferencePicture) : Prop :=
  ∀ i < tableSize, p.entries ≤ i → s.usage i = notUsedForReference

instance (s : ReferenceTable) (p : ReferencePicture) : Decidable (s.UnusedBeyond p) :=
  inferInstanceAs (Decidable (∀ i < tableSize, p.entries ≤ i → s.usage i = notUsedForReference))

theorem tally_unused (h : ∀ i < tableSize, s.usage i = notUsedForReference)
    (codes : Usage) : s.tally codes = 0 := by
  rw [tally_eq]
  refine total_eq_zero fun i hi => ?_
  have hzero : ∀ codes : Usage, isUsed notUsedForReference codes = false := by decide
  change (isUsed (s.usage i) codes).toNat = 0
  rw [h i hi, hzero]
  rfl

theorem exclusive_unused : Exclusive notUsedForReference := by decide

theorem releaseEveryone_usage (s : ReferenceTable) (actuallyRelease : Bool) (p : ReferencePicture)
    (i : ℕ) : (s.releaseEveryone actuallyRelease p).usage i =
      if i < p.entries then notUsedForReference else s.usage i := by
  unfold usage releaseEveryone
  dsimp only
  split <;> rfl

theorem releaseEveryone_counted (h : s.UnusedBeyond p)
    (actuallyRelease : Bool) : (s.releaseEveryone actuallyRelease p).Counted := by
  have hunused : ∀ i < tableSize,
      (s.releaseEveryone actuallyRelease p).usage i = notUsedForReference := by
    intro i hi
    rw [releaseEveryone_usage]
    split
    next => rfl
    next hbeyond => exact h i hi (not_lt.mp hbeyond)
  refine ⟨(tally_unused hunused _).symm, (tally_unused hunused _).symm, fun i hi => ?_⟩
  rw [hunused i hi]
  exact exclusive_unused

theorem ReferencePicture.short_codes (p : ReferencePicture) :
    Exclusive p.usedForShortTermReference ∧
      isUsed p.usedForShortTermReference anyUsedForShortTermReference = true ∧
      isUsed p.usedForShortTermReference anyUsedForLongTermReference = false := by
  unfold ReferencePicture.usedForShortTermReference
  split
  next => split <;> decide
  next => decide

theorem ReferencePicture.long_codes (p : ReferencePicture) :
    Exclusive p.usedForLongTermReference ∧
      isUsed p.usedForLongTermReference anyUsedForLongTermReference = true ∧
      isUsed p.usedForLongTermReference anyUsedForShortTermReference = false := by
  unfold ReferencePicture.usedForLongTermReference
  split
  next => split <;> decide
  next => decide

theorem Counted.put (h : s.Counted) (p : ReferencePicture)
    (hi : i < tableSize) (hunused : s.usage i = notUsedForReference) : (s.put p i).Counted := by
  have hframes : (s.put p i).referenceFrames =
    Function.update s.referenceFrames i (p.entryIn (s.referenceFrames i)) := rfl
  have hold : ∀ codes, isUsed (s.usage i) codes = false := by
    rw [hunused]
    decide
  obtain ⟨hshort, hshortUsed, hshortOther⟩ := ReferencePicture.short_codes p
  obtain ⟨hlong, hlongUsed, hlongOther⟩ := ReferencePicture.long_codes p
  cases hterm : p.longTerm with
  | false =>
    have husage : (p.entryIn (s.referenceFrames i)).usage = p.usedForShortTermReference := by
      unfold ReferencePicture.entryIn
      rw [hterm]
      rfl
    rw [← husage] at hshort hshortUsed hshortOther
    refine ⟨?_, ?_, exclusive_update h.exclusive hframes hshort⟩
    · have hnumber : (s.put p i).numShortTerm = s.numShortTerm + 1 := by
        unfold ReferenceTable.put
        rw [hterm]
        rfl
      rw [hnumber]
      exact count_gained h.short hi hframes (hold _) hshortUsed
    · have hnumber : (s.put p i).numLongTerm = s.numLongTerm := by
        unfold ReferenceTable.put
        rw [hterm]
        rfl
      rw [hnumber]
      exact count_same h.long hi hframes (hshortOther.trans (hold _).symm)
  | true =>
    have husage : (p.entryIn (s.referenceFrames i)).usage = p.usedForLongTermReference := by
      unfold ReferencePicture.entryIn
      rw [hterm]
      rfl
    rw [← husage] at hlong hlongUsed hlongOther
    refine ⟨?_, ?_, exclusive_update h.exclusive hframes hlong⟩
    · have hnumber : (s.put p i).numShortTerm = s.numShortTerm := by
        unfold ReferenceTable.put
        rw [hterm]
        rfl
      rw [hnumber]
      exact count_same h.short hi hframes (hlongOther.trans (hold _).symm)
    · have hnumber : (s.put p i).numLongTerm = s.numLongTerm + 1 := by
        unfold ReferenceTable.put
        rw [hterm]
        rfl
      rw [hnumber]
      exact count_gained h.long hi hframes (hold _) hlongUsed

theorem Counted.insertCurrent (h : s.Counted) (p : ReferencePicture) :
    (s.insertCurrent p).1.Counted := by
  unfold ReferenceTable.insertCurrent
  split
  next => exact h
  next i hi =>
    obtain ⟨hlt, hunused⟩ := first_some hi
    exact h.put p (hlt.trans_le p.entries_le) (beq_iff_eq.mp hunused)

/-- **Entering a picture**: an IDR picture that activates a smaller table must find nothing in use
beyond it. -/
theorem Counted.enter (h : s.Counted) {actuallyRelease : Bool}
    (hidr : p.idr = true → s.firstField p = none → s.UnusedBeyond p)
    {currentEntry : ℕ}
    (henter : s.enter actuallyRelease p = some (t, currentEntry)) :
    t.Counted := by
  obtain ⟨-, hfound | ⟨hnone, hinsert⟩⟩ := enter_cases henter
  · obtain ⟨-, rfl⟩ := hfound
    exact h.enterSecondField actuallyRelease p
  · rw [show t = _ from congrArg Prod.fst hinsert]
    split
    next hIdr => exact (releaseEveryone_counted (hidr hIdr hnone) actuallyRelease).insertCurrent p
    next => exact h.insertCurrent p

/-! ### The sliding window and the releases -/

section operations
variable {s : ReferenceTable} {actuallyRelease : Bool} {p : ReferencePicture} {currentEntry : ℕ}

theorem Counted.slide (h : s.Counted) : (s.slide actuallyRelease p currentEntry).Counted := by
  unfold ReferenceTable.slide
  split
  next =>
    exact h.releaseReference _ ((oldestShortTerm_lt s p currentEntry).trans_le p.entries_le) _
  next => exact h

theorem Counted.discardOldest (h : s.Counted) : (s.discardOldest p currentEntry).Counted := by
  unfold ReferenceTable.discardOldest
  split
  next => exact h.releaseReference _ ((oldest_lt s p).trans_le p.entries_le) _
  next => exact h

theorem numberPictures_usage (s : ReferenceTable) (p : ReferencePicture) (i : ℕ) :
    (s.numberPictures p).usage i = s.usage i := by
  unfold usage numberPictures
  dsimp only
  split <;> rfl

theorem Counted.numberPictures (h : s.Counted) : (s.numberPictures p).Counted :=
  h.of_usage (fun i _ => numberPictures_usage s p i) rfl rfl

theorem Counted.markShortTermUnused (h : s.Counted) (differenceOfPicNumsMinus1 : ℕ) :
    (s.markShortTermUnused actuallyRelease p differenceOfPicNumsMinus1).Counted := by
  unfold ReferenceTable.markShortTermUnused
  dsimp only
  split
  next => exact h
  next j hj => exact h.releaseReference _ ((first_some hj).1.trans_le p.entries_le) _

theorem Counted.markLongTermUnused (h : s.Counted) (longTermPicNum : ℕ) :
    (s.markLongTermUnused actuallyRelease p longTermPicNum).Counted := by
  unfold ReferenceTable.markLongTermUnused
  split
  next => exact h
  next j hj => exact h.releaseReference _ ((first_some hj).1.trans_le p.entries_le) _

theorem Counted.releaseIndex (h : s.Counted) (longTermFrameIdx : ℕ) (except : Option ℕ) :
    (s.releaseIndex actuallyRelease p longTermFrameIdx except).Counted := by
  unfold ReferenceTable.releaseIndex
  split
  next => exact h
  next j hj => exact h.releaseReference _ ((first_some hj).1.trans_le p.entries_le) _

theorem Counted.specifyMaxLongTermIndex (h : s.Counted) (maxLongTermFrameIdxPlus1 : ℕ) :
    (s.specifyMaxLongTermIndex actuallyRelease p maxLongTermFrameIdxPlus1).Counted := by
  refine foldl_entries (I := Counted) h fun t j hj ht => ?_
  split
  next => exact ht.releaseReference _ (hj.trans_le p.entries_le) _
  next => exact ht

/-! ### The toggles -/

/-- All of the codes are set. -/
def HasAll (u codes : Usage) : Prop := u &&& codes = codes

instance (u codes : Usage) : Decidable (HasAll u codes) := inferInstanceAs (Decidable (_ = _))

theorem toggle_frame : ∀ u : Usage, Exclusive u → HasAll u anyUsedForShortTermReference →
    Exclusive ((u ^^^ anyUsedForShortTermReference) ||| anyUsedForLongTermReference) ∧
      isUsed u anyUsedForShortTermReference = true ∧ isUsed u anyUsedForLongTermReference = false ∧
      isUsed ((u ^^^ anyUsedForShortTermReference) ||| anyUsedForLongTermReference)
        anyUsedForShortTermReference = false ∧
      isUsed ((u ^^^ anyUsedForShortTermReference) ||| anyUsedForLongTermReference)
        anyUsedForLongTermReference = true := by
  decide

theorem toggle_field : ∀ (u : Usage) (top : Bool), Exclusive u → HasAll u (parityShort top) →
    Exclusive ((u ^^^ parityShort top) ||| parityLong top) ∧
      isUsed u anyUsedForShortTermReference = true ∧
      isUsed ((u ^^^ parityShort top) ||| parityLong top) anyUsedForLongTermReference = true ∧
      ((((u ^^^ parityShort top) ||| parityLong top) &&& anyUsedForLongTermReference ≠
          anyUsedForLongTermReference) ↔ isUsed u anyUsedForLongTermReference = false) := by
  decide

theorem Counted.assignFrame (h : s.Counted) (hfield : p.field = false) (longTermFrameIdx : ℕ) {j : ℕ}
    (hj : j < tableSize) (hall : HasAll (s.usage j) anyUsedForShortTermReference) :
    (s.assignFrame p longTermFrameIdx j).Counted := by
  obtain ⟨hshort, hlong⟩ := p.codes_frame hfield
  obtain ⟨he, holdShort, holdLong, hnewShort, hnewLong⟩ := toggle_frame _ (h.exclusive j hj) hall
  have hframes : (s.assignFrame p longTermFrameIdx j).referenceFrames =
      Function.update s.referenceFrames j (toLongTerm (s.referenceFrames j) longTermFrameIdx
        anyUsedForShortTermReference anyUsedForLongTermReference) := by
    rw [← hshort, ← hlong]
    rfl
  refine ⟨?_, ?_, exclusive_update h.exclusive hframes he⟩
  · exact count_lost h.short hj hframes holdShort hnewShort
  · exact count_gained h.long hj hframes holdLong hnewLong

theorem codes_of_field (s : ReferenceTable) (hfield : p.field = true) (j : ℕ) (picNumX : ℤ) :
    ∃ top, s.shortTermCodes p j picNumX = parityShort top ∧
      s.longTermCodes p j picNumX = parityLong top := by
  obtain ⟨hshort, hlong, hother, hotherLong⟩ := p.codes_field hfield
  unfold shortTermCodes longTermCodes
  split
  next => exact ⟨!p.top, hother, hotherLong⟩
  next => exact ⟨p.top, hshort, hlong⟩

theorem Counted.assignField (h : s.Counted) (hfield : p.field = true) (picNumX : ℤ)
    (longTermFrameIdx : ℕ) {j : ℕ} (hj : j < tableSize)
    (hall : HasAll (s.usage j) (s.shortTermCodes p j picNumX)) :
    (s.assignField p picNumX longTermFrameIdx j).Counted := by
  obtain ⟨top, hshort, hlong⟩ := s.codes_of_field hfield j picNumX
  rw [hshort] at hall
  obtain ⟨he, hold, hnew, hboth⟩ := toggle_field _ top (h.exclusive j hj) hall
  have hframes : (s.assignField p picNumX longTermFrameIdx j).referenceFrames =
      Function.update s.referenceFrames j (toLongTerm (s.referenceFrames j) longTermFrameIdx
        (parityShort top) (parityLong top)) := by
    rw [← hshort, ← hlong]
    rfl
  refine ⟨?_, ?_, exclusive_update h.exclusive hframes he⟩
  · have hnumber : (s.assignField p picNumX longTermFrameIdx j).numShortTerm =
        if isUsed (toLongTerm (s.referenceFrames j) longTermFrameIdx (parityShort top)
          (parityLong top)).usage anyUsedForShortTermReference then s.numShortTerm
        else s.numShortTerm - 1 := by
      rw [← hshort, ← hlong]
      rfl
    rw [hnumber]
    split
    next hkept => exact count_same h.short hj hframes (hkept.trans hold.symm)
    next hlost => exact count_lost h.short hj hframes hold (Bool.eq_false_iff.mpr hlost)
  · have hnumber : (s.assignField p picNumX longTermFrameIdx j).numLongTerm =
        if (toLongTerm (s.referenceFrames j) longTermFrameIdx (parityShort top)
            (parityLong top)).usage &&& anyUsedForLongTermReference ≠ anyUsedForLongTermReference then
          s.numLongTerm + 1
        else s.numLongTerm := by
      rw [← hshort, ← hlong]
      rfl
    rw [hnumber]
    split
    next hone => exact count_gained h.long hj hframes (hboth.mp hone) hnew
    next htwo =>
      have hused : isUsed (s.usage j) anyUsedForLongTermReference = true :=
        Bool.not_eq_false _ |>.mp fun hnot => htwo (hboth.mpr hnot)
      exact count_same h.long hj hframes (hnew.trans hused.symm)

theorem releaseIndex_short (s : ReferenceTable) (actuallyRelease : Bool) (p : ReferencePicture)
    (longTermFrameIdx : ℕ) (except : Option ℕ) (j : ℕ) :
    (s.releaseIndex actuallyRelease p longTermFrameIdx except).usage j &&&
        anyUsedForShortTermReference = s.usage j &&& anyUsedForShortTermReference ∧
      ((s.releaseIndex actuallyRelease p longTermFrameIdx except).referenceFrames j).picNum =
        (s.referenceFrames j).picNum := by
  have hcodes : ∀ u : Usage, (u &&& ~~~anyUsedForLongTermReference) &&& anyUsedForShortTermReference =
      u &&& anyUsedForShortTermReference := by decide
  unfold ReferenceTable.releaseIndex
  split
  next => exact ⟨rfl, rfl⟩
  next i hi =>
    constructor
    · rw [releaseReference_usage]
      split
      next hji => rw [hcodes, hji]
      next => rfl
    · rw [releaseReference_frame]

theorem Counted.assignToShortTerm (h : s.Counted) (differenceOfPicNumsMinus1 longTermFrameIdx : ℕ)
    (hall : ∀ j, s.shortTermEntry p (p.picNumX differenceOfPicNumsMinus1) = some j →
      HasAll (s.usage j) (s.shortTermCodes p j (p.picNumX differenceOfPicNumsMinus1))) :
    (s.assignToShortTerm actuallyRelease p differenceOfPicNumsMinus1 longTermFrameIdx).Counted := by
  unfold ReferenceTable.assignToShortTerm
  dsimp only
  split
  next hfield =>
    split
    next => exact h.releaseIndex _ _
    next j hj =>
      have hlt := (first_some hj).1.trans_le p.entries_le
      exact (h.assignField hfield _ _ hlt (hall j hj)).releaseIndex _ _
  next hfield =>
    have hsame : (s.releaseIndex actuallyRelease p longTermFrameIdx none).shortTermEntry p
          (p.picNumX differenceOfPicNumsMinus1) =
        s.shortTermEntry p (p.picNumX differenceOfPicNumsMinus1) := by
      refine shortTermEntry_congr (fun j => ?_) _
      obtain ⟨hcodes, hnumber⟩ := releaseIndex_short s actuallyRelease p longTermFrameIdx none j
      exact ⟨by rw [isUsed, hcodes, isUsed], hnumber⟩
    split
    next => exact h.releaseIndex _ _
    next j hj =>
      have hlt := (first_some hj).1.trans_le p.entries_le
      rw [hsame] at hj
      have hcodes := hall j hj
      have hframe : s.shortTermCodes p j (p.picNumX differenceOfPicNumsMinus1) =
          anyUsedForShortTermReference := by
        unfold shortTermCodes
        rw [Bool.eq_false_iff.mpr hfield]
        exact (p.codes_frame (Bool.eq_false_iff.mpr hfield)).1
      rw [hframe] at hcodes
      refine (h.releaseIndex _ _).assignFrame (Bool.eq_false_iff.mpr hfield) _ hlt ?_
      rw [HasAll, (releaseIndex_short s actuallyRelease p longTermFrameIdx none j).1]
      exact hcodes

theorem tally_single {i : ℕ} (hi : i < tableSize)
    (hothers : ∀ j < tableSize, j ≠ i → s.usage j = notUsedForReference) (codes : Usage) :
    s.tally codes = (isUsed (s.usage i) codes).toNat := by
  have hclear := tally_unused (s := s.modify i fun e => { e with usage := notUsedForReference })
    (fun j hj => by
      change (Function.update s.referenceFrames i _ j).usage = notUsedForReference
      by_cases hji : j = i
      · rw [hji, Function.update_self]
      · rw [Function.update_of_ne hji]
        exact hothers j hj hji) codes
  have htally := tally_update (t := s.modify i fun e => { e with usage := notUsedForReference })
    hi rfl codes
  have hzero : ∀ codes : Usage, isUsed notUsedForReference codes = false := by decide
  rw [hclear, Nat.zero_add] at htally
  rw [hzero] at htally
  exact htally.symm

theorem clear_usage (s : ReferenceTable) (actuallyRelease : Bool) (p : ReferencePicture)
    (currentEntry j : ℕ) : (s.clear actuallyRelease p currentEntry).usage j =
      (s.releaseOthers actuallyRelease p currentEntry).usage j := by
  unfold usage clear modify
  dsimp only
  by_cases hj : j = currentEntry
  · rw [hj, Function.update_self]
  · rw [Function.update_of_ne hj]

theorem clear_counted (hterm : p.longTerm = false) (hlt : currentEntry < p.entries)
    (hexclusive : Exclusive (s.usage currentEntry))
    (hshort : isUsed (s.usage currentEntry) anyUsedForShortTermReference = true)
    (hlong : isUsed (s.usage currentEntry) anyUsedForLongTermReference = false)
    (hbeyond : s.UnusedBeyond p) : (s.clear actuallyRelease p currentEntry).Counted := by
  have hcurrent : (s.clear actuallyRelease p currentEntry).usage currentEntry =
      s.usage currentEntry := by
    rw [clear_usage, releaseOthers_usage, if_neg fun h => h.2 rfl]
  have hothers : ∀ j < tableSize, j ≠ currentEntry →
      (s.clear actuallyRelease p currentEntry).usage j = notUsedForReference := by
    intro j hj hne
    rw [clear_usage, releaseOthers_usage]
    split
    next => rfl
    next hnot => exact hbeyond j hj (not_lt.mp fun hlt => hnot ⟨hlt, hne⟩)
  have hshortNumber : (s.clear actuallyRelease p currentEntry).numShortTerm = 1 := by
    unfold clear
    rw [hterm]
    rfl
  have hlongNumber : (s.clear actuallyRelease p currentEntry).numLongTerm = 0 := by
    unfold clear
    rw [hterm]
    rfl
  refine ⟨?_, ?_, ?_⟩
  · rw [hshortNumber, tally_single (hlt.trans_le p.entries_le) hothers, hcurrent, hshort]
    rfl
  · rw [hlongNumber, tally_single (hlt.trans_le p.entries_le) hothers, hcurrent, hlong]
    rfl
  · intro j hj
    by_cases hne : j = currentEntry
    · rw [hne, hcurrent]
      exact hexclusive
    · rw [hothers j hj hne]
      exact exclusive_unused

theorem current_frame : ∀ u : Usage, Exclusive u → isUsed u anyUsedForShortTermReference = true →
    isUsed u anyUsedForLongTermReference = false →
      Exclusive ((u &&& ~~~anyUsedForShortTermReference) ||| anyUsedForLongTermReference) ∧
        isUsed ((u &&& ~~~anyUsedForShortTermReference) ||| anyUsedForLongTermReference)
          anyUsedForShortTermReference = false ∧
        isUsed ((u &&& ~~~anyUsedForShortTermReference) ||| anyUsedForLongTermReference)
          anyUsedForLongTermReference = true := by
  decide

theorem current_field : ∀ (u : Usage) (top : Bool), Exclusive u →
    isUsed u (parityLong top) = false →
      Exclusive ((u &&& ~~~parityShort top) ||| parityLong top) ∧
        isUsed ((u &&& ~~~parityShort top) ||| parityLong top) anyUsedForLongTermReference = true ∧
        ((((u &&& ~~~parityShort top) ||| parityLong top) &&& anyUsedForLongTermReference ≠
            anyUsedForLongTermReference) ↔ isUsed u anyUsedForLongTermReference = false) := by
  decide

/-- The current picture, which is in use for short-term reference, gets its long-term codes. -/
theorem Counted.assignCurrent (h : s.Counted) (hterm : p.longTerm = false)
    (hlt : currentEntry < p.entries)
    (hold : isUsed (s.usage currentEntry) anyUsedForShortTermReference = true)
    (hnone : isUsed (s.usage currentEntry) p.usedForLongTermReference = false)
    (longTermFrameIdx : ℕ) : (s.assignCurrent p currentEntry longTermFrameIdx).Counted := by
  have hi := hlt.trans_le p.entries_le
  have hexclusive := h.exclusive currentEntry hi
  have hframes : (s.assignCurrent p currentEntry longTermFrameIdx).referenceFrames =
      Function.update s.referenceFrames currentEntry
        { s.referenceFrames currentEntry with
          longTermFrameIdx := longTermFrameIdx
          usage := (s.usage currentEntry &&& ~~~p.usedForShortTermReference) |||
            p.usedForLongTermReference } := rfl
  have hshortNumber : (s.assignCurrent p currentEntry longTermFrameIdx).numShortTerm =
      if !isUsed ((s.usage currentEntry &&& ~~~p.usedForShortTermReference) |||
        p.usedForLongTermReference) anyUsedForShortTermReference then s.numShortTerm - 1
      else s.numShortTerm := by
    unfold ReferenceTable.assignCurrent
    rw [hterm]
    rfl
  have hlongNumber : (s.assignCurrent p currentEntry longTermFrameIdx).numLongTerm =
      if !p.field || ((s.usage currentEntry &&& ~~~p.usedForShortTermReference) |||
          p.usedForLongTermReference) &&& anyUsedForLongTermReference !=
            anyUsedForLongTermReference then
        s.numLongTerm + 1
      else s.numLongTerm := by
    unfold ReferenceTable.assignCurrent
    rw [hterm]
    rfl
  cases hfield : p.field with
  | false =>
    obtain ⟨hshort, hlong⟩ := p.codes_frame hfield
    rw [hshort, hlong] at hframes hshortNumber
    rw [hlong] at hnone
    obtain ⟨he, hnewShort, hnewLong⟩ := current_frame _ hexclusive hold hnone
    rw [hfield] at hlongNumber
    rw [hnewShort] at hshortNumber
    refine ⟨?_, ?_, exclusive_update h.exclusive hframes he⟩
    · rw [hshortNumber]
      exact count_lost h.short hi hframes hold hnewShort
    · rw [hlongNumber]
      exact count_gained h.long hi hframes hnone hnewLong
  | true =>
    obtain ⟨hshort, hlong, -, -⟩ := p.codes_field hfield
    rw [hshort, hlong] at hframes hshortNumber hlongNumber
    rw [hlong] at hnone
    obtain ⟨he, hnew, hboth⟩ := current_field _ p.top hexclusive hnone
    rw [hfield, Bool.not_true, Bool.false_or] at hlongNumber
    refine ⟨?_, ?_, exclusive_update h.exclusive hframes he⟩
    · rw [hshortNumber]
      split
      next hlost => exact count_lost h.short hi hframes hold (Bool.not_eq_true' _ |>.mp hlost)
      next hkept =>
        have hused := Bool.not_eq_false _ |>.mp fun hnot => hkept (Bool.not_eq_true' _ |>.mpr hnot)
        exact count_same h.short hi hframes (hused.trans hold.symm)
    · rw [hlongNumber]
      split
      next hone => exact count_gained h.long hi hframes (hboth.mp (bne_iff_ne.mp hone)) hnew
      next htwo =>
        have hused : isUsed (s.usage currentEntry) anyUsedForLongTermReference = true :=
          Bool.not_eq_false _ |>.mp fun hnot => htwo (bne_iff_ne.mpr (hboth.mpr hnot))
        exact count_same h.long hi hframes (hnew.trans hused.symm)

theorem releaseIndex_except (s : ReferenceTable) (actuallyRelease : Bool) (p : ReferencePicture)
    (longTermFrameIdx i : ℕ) :
    (s.releaseIndex actuallyRelease p longTermFrameIdx (some i)).usage i = s.usage i := by
  unfold ReferenceTable.releaseIndex
  split
  next => rfl
  next j hj =>
    have hne := (Bool.and_eq_true_iff.mp (first_some hj).2).2
    rw [releaseReference_usage, if_neg]
    rintro rfl
    exact bne_iff_ne.mp hne rfl

/-! ### Careful calls -/

/-- An operation meets the table in a state in which it adjusts the counters rightly.  The codes that it
toggles are set; when the counts restart the current entry is a short-term one, and the only one left;
the current picture is given a long-term index once. -/
def CarefulOperation (p : ReferencePicture) (currentEntry : ℕ) (s : ReferenceTable) : Mmc → Prop
  | .assignLongTermIndexToShortTermPicture differenceOfPicNumsMinus1 _ =>
    ∀ j ∈ s.shortTermEntry p (p.picNumX differenceOfPicNumsMinus1),
      HasAll (s.usage j) (s.shortTermCodes p j (p.picNumX differenceOfPicNumsMinus1))
  | .clear =>
    isUsed (s.usage currentEntry) anyUsedForShortTermReference = true ∧
      isUsed (s.usage currentEntry) anyUsedForLongTermReference = false ∧ s.UnusedBeyond p
  | .assignLongTermIndexToCurrentDecodedPicture _ =>
    isUsed (s.usage currentEntry) anyUsedForShortTermReference = true ∧
      isUsed (s.usage currentEntry) p.usedForLongTermReference = false
  | .markShortTermUnusedForReference _ => True
  | .markLongTermUnusedForReference _ => True
  | .specifyMaxLongTermIndex _ => True

theorem Counted.perform (h : s.Counted) (hterm : p.longTerm = false) (hlt : currentEntry < p.entries)
    {operation : Mmc} (hcareful : CarefulOperation p currentEntry s operation) :
    (s.perform actuallyRelease p currentEntry operation).Counted := by
  cases operation with
  | markShortTermUnusedForReference d => exact h.markShortTermUnused d
  | markLongTermUnusedForReference n => exact h.markLongTermUnused n
  | assignLongTermIndexToShortTermPicture d idx =>
    exact h.assignToShortTerm d idx fun j hj => hcareful j (Option.mem_def.mpr hj)
  | specifyMaxLongTermIndex n => exact h.specifyMaxLongTermIndex n
  | clear =>
    obtain ⟨hshort, hlong, hbeyond⟩ := hcareful
    exact clear_counted hterm hlt (h.exclusive _ (hlt.trans_le p.entries_le)) hshort hlong hbeyond
  | assignLongTermIndexToCurrentDecodedPicture idx =>
    obtain ⟨hshort, hlong⟩ := hcareful
    have hkept := releaseIndex_except s actuallyRelease p idx currentEntry
    refine (h.releaseIndex idx _).assignCurrent hterm hlt ?_ ?_ idx
    · rw [hkept]
      exact hshort
    · rw [hkept]
      exact hlong

/-- The operations of a slice header meet a table. -/
def CarefulOperations (actuallyRelease : Bool) (p : ReferencePicture) (currentEntry : ℕ)
    (s : ReferenceTable) : Prop :=
  Lts.Along (fun s operation => some (s.perform actuallyRelease p currentEntry operation))
    (CarefulOperation p currentEntry) (s.numberPictures p)
    p.header.decRefPicMarking.memoryManagementControlOperation

theorem Counted.performAll (h : s.Counted) (hterm : p.longTerm = false) (hlt : currentEntry < p.entries)
    (hcareful : CarefulOperations actuallyRelease p currentEntry s) :
    (s.performAll actuallyRelease p currentEntry).Counted := by
  refine Lts.run_invariant_along (fun t operation t' ht hoperation ht' => ?_) h.numberPictures hcareful
    (Lts.run_total _ _ _)
  rw [← Option.some.inj ht']
  exact ht.perform hterm hlt hoperation

theorem Counted.manage (h : s.Counted) (hterm : p.longTerm = false) (hlt : currentEntry < p.entries)
    (hcareful : p.header.decRefPicMarking.adaptiveRefPicMarkingModeFlag = true →
      CarefulOperations actuallyRelease p currentEntry s) :
    (s.manage actuallyRelease p currentEntry).Counted := by
  unfold ReferenceTable.manage
  split
  next hadaptive => exact (h.performAll hterm hlt (hcareful hadaptive)).discardOldest
  next => exact h.slide.discardOldest

end operations

theorem reset_counted (s : ReferenceTable) : s.resetReferenceFrameList.Counted :=
  ⟨(tally_unused (fun _ _ => rfl) _).symm, (tally_unused (fun _ _ => rfl) _).symm,
    fun _ _ => exclusive_unused⟩

theorem empty_counted : empty.Counted :=
  ⟨(tally_unused (fun _ _ => rfl) _).symm, (tally_unused (fun _ _ => rfl) _).symm,
    fun _ _ => exclusive_unused⟩

end ReferenceTable

open ReferenceTable

/-- A call meets a table in a state in which it adjusts the counters rightly: an IDR picture releases all
that is in use, and every operation is careful. -/
def MarkingCall.Careful (s : ReferenceTable) : MarkingCall → Prop
  | .reset => True
  | .mark actuallyRelease p =>
    (p.idr = true → s.firstField p = none → s.UnusedBeyond p) ∧
      ∀ r ∈ s.enter actuallyRelease p, p.idr = false →
        p.header.decRefPicMarking.adaptiveRefPicMarkingModeFlag = true →
          CarefulOperations actuallyRelease p r.2 r.1

theorem ReferenceTable.Counted.call {s : ReferenceTable} (h : s.Counted) {call : MarkingCall}
    (hcareful : call.Careful s) : (call.perform s).Counted := by
  cases call with
  | reset => exact s.reset_counted
  | mark actuallyRelease p =>
    obtain ⟨hidr, hoperations⟩ := hcareful
    change (s.markReferencePictures actuallyRelease p).1.Counted
    unfold markReferencePictures
    split
    next => exact h.enterSecondField actuallyRelease p
    next t currentEntry henter =>
      have ht := h.enter hidr henter
      split
      next => exact ht
      next hIdr =>
        have hterm : p.longTerm = false :=
          Bool.eq_false_iff.mpr fun hterm => hIdr (p.idr_of_longTerm hterm)
        exact ht.manage hterm (enter_cases henter).1
          (hoperations _ (Option.mem_def.mpr henter) (Bool.eq_false_iff.mpr hIdr))

/-- **The counters describe the table** after every call of a run of careful calls. -/
theorem MarkingCall.run_tallied {calls : List MarkingCall} {s : ReferenceTable}
    (hcareful : Lts.Along step Careful empty calls) (h : Lts.run step empty calls = some s) :
    s.Counted :=
  Lts.run_invariant_along (fun _ _ _ ht hcall hstep => Option.some.inj hstep ▸ ht.call hcall)
    empty_counted hcareful h

instance (p : ReferencePicture) (currentEntry : ℕ) (s : ReferenceTable) :
    DecidablePred (CarefulOperation p currentEntry s)
  | .assignLongTermIndexToShortTermPicture differenceOfPicNumsMinus1 _ =>
    inferInstanceAs (Decidable (∀ j ∈ s.shortTermEntry p (p.picNumX differenceOfPicNumsMinus1),
      HasAll (s.usage j) (s.shortTermCodes p j (p.picNumX differenceOfPicNumsMinus1))))
  | .markShortTermUnusedForReference _ | .markLongTermUnusedForReference _
  | .specifyMaxLongTermIndex _ => isTrue trivial
  | .clear => inferInstanceAs (Decidable (_ ∧ _ ∧ _))
  | .assignLongTermIndexToCurrentDecodedPicture _ => inferInstanceAs (Decidable (_ ∧ _))

instance (actuallyRelease : Bool) (p : ReferencePicture) (currentEntry : ℕ) (s : ReferenceTable) :
    Decidable (CarefulOperations actuallyRelease p currentEntry s) :=
  inferInstanceAs (Decidable (Lts.Along _ _ _ _))

instance (s : ReferenceTable) : DecidablePred (MarkingCall.Careful s)
  | .reset => isTrue trivial
  | .mark actuallyRelease p =>
    inferInstanceAs (Decidable ((p.idr = true → s.firstField p = none → s.UnusedBeyond p) ∧
      ∀ r ∈ s.enter actuallyRelease p, p.idr = false →
        p.header.decRefPicMarking.adaptiveRefPicMarkingModeFlag = true →
          CarefulOperations actuallyRelease p r.2 r.1))

/-- An IDR picture that allows one reference frame after three frames of a sequence that allows two: the
third entry is not released, and not counted either. -/
theorem MarkingCall.not_run_tallied_smaller :
    ¬ ∀ (calls : List MarkingCall) (s : ReferenceTable),
        Lts.run step empty calls = some s → s.Counted := by
  intro h
  have hcounted := h [.mark true (smallPicture 2 0 (some false) 0 0 none []),
    .mark true (smallPicture 2 1 none 1 2 none []), .mark true (smallPicture 2 2 none 2 4 none []),
    .mark true (smallPicture 1 3 (some false) 0 0 none [])] _ rfl
  have hshort := hcounted.short
  revert hshort
  decide +kernel

/-- An IDR picture, two fields that become long-term ones, a frame, one that turns it into a long-term
one, and one that starts over. -/
def carefulCalls : List MarkingCall :=
  [.mark true (smallPicture 3 0 (some false) 0 0 none []),
    .mark true (smallPicture 3 1 none 1 2 (some true)
      [.specifyMaxLongTermIndex 2, .assignLongTermIndexToCurrentDecodedPicture 0]),
    .mark true (smallPicture 3 2 none 1 3 (some false) [.assignLongTermIndexToCurrentDecodedPicture 0]),
    .mark true (smallPicture 3 3 none 2 4 none []),
    .mark true (smallPicture 3 4 none 3 6 none
      [.assignLongTermIndexToShortTermPicture 0 1, .markShortTermUnusedForReference 2]),
    .mark true (smallPicture 3 5 none 4 8 none [.clear])]

theorem MarkingCall.run_tallied_careful :
    ∃ s, Lts.run step empty carefulCalls = some s ∧ s.Counted := by
  have hcareful : Lts.Along step Careful empty carefulCalls := by decide +kernel
  exact ⟨_, rfl, run_tallied hcareful rfl⟩

end Player2.H264

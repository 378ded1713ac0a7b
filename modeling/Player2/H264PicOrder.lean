import Mathlib.Data.BitVec
import Mathlib.Algebra.BigOperators.Group.List.Basic
import Player2.H264Slice
import Player2.Run

/-! # Picture order counts

`CalculatePicOrderCnts` derives the order counts of the fields of a picture from its slice header
and from what the pictures before it left, in 32 bit words.  The derivation of the standard is over
the integers; what a picture leaves to the next ones is a `Carried`. -/

namespace Player2.H264

/-! ### The source -/

/-- The variables that `CalculatePicOrderCnts` reads and writes. -/
structure OrderState where
  prevPicOrderCntMsb : Word
  prevPicOrderCntLsb : Word
  prevFrameNum : Word
  prevFrameNumOffset : Word
  lastExitPicOrderCntMsb : Word
  picOrderCntOffset : BitVec 64
  picOrderCntOffsetAdjust : BitVec 64
  baseDpbValue : Word
  displayOrderByDpbValues : Bool
deriving DecidableEq

/-- The derived fields of the slice header. -/
structure PicOrderCnts where
  picOrderCntTop : Word
  picOrderCntBot : Word
  picOrderCnt : Word
  extendedPicOrderCnt : BitVec 64
deriving DecidableEq

namespace SliceHeader
variable (h : SliceHeader)

/-- The field order counts of a frame or a field, where the other field keeps its initial value. -/
def fieldOrderCnts (top bottom : Word) : Word × Word :=
  (if h.isBottom then 9999 else top,
    if h.fieldPicFlag && !h.bottomFieldFlag then 9999 else bottom)

/-- Picture order count type 0: `PicOrderCntMsb`. -/
def picOrderCntMsb (prevMsb prevLsb : Word) : Word :=
  let maxPicOrderCntLsb : Word := h.sequenceParameterSet.maxPicOrderCntLsb
  let lsb : Word := h.picOrderCntLsb
  if lsb < prevLsb ∧ maxPicOrderCntLsb / 2 ≤ prevLsb - lsb then prevMsb + maxPicOrderCntLsb
  else if prevLsb < lsb ∧ maxPicOrderCntLsb / 2 < lsb - prevLsb then prevMsb - maxPicOrderCntLsb
  else prevMsb

/-- Picture order count type 0. -/
def type0 (s : OrderState) : OrderState × Word × Word :=
  let prevMsb := if h.idr then 0 else s.prevPicOrderCntMsb
  let prevLsb := if h.idr then 0 else s.prevPicOrderCntLsb
  let msb := h.picOrderCntMsb prevMsb prevLsb
  let count := msb + h.picOrderCntLsb
  let (top, bottom) :=
    h.fieldOrderCnts count (if h.fieldPicFlag then count else count + h.deltaPicOrderCntBottom)
  let s := { s with prevPicOrderCntMsb := prevMsb, prevPicOrderCntLsb := prevLsb }
  let s :=
    if h.reference then
      if h.memoryControlClearSeen then
        { s with
          prevPicOrderCntMsb := 0
          prevPicOrderCntLsb := if h.isBottom then 0 else top
          lastExitPicOrderCntMsb := msb }
      else
        { s with
          prevPicOrderCntMsb := msb
          prevPicOrderCntLsb := h.picOrderCntLsb
          lastExitPicOrderCntMsb := msb }
    else s
  (s, top, bottom)

/-- `FrameNumOffset` of the types 1 and 2. -/
def frameNumOffset (s : OrderState) : Word :=
  if h.idr then 0
  else if (h.frameNum : Word) < s.prevFrameNum then
    s.prevFrameNumOffset + h.sequenceParameterSet.maxFrameNum
  else s.prevFrameNumOffset

/-- What the types 1 and 2 leave for the next picture. -/
def leaveFrameNum (s : OrderState) : OrderState :=
  { s with
    prevFrameNumOffset := if h.memoryControlClearSeen then 0 else h.frameNumOffset s
    prevFrameNum := h.frameNum }

/-- `AbsFrameNum` of type 1. -/
def absFrameNum (frameNumOffset : Word) : Word :=
  let a := if h.sequenceParameterSet.offsetForRefFrame.length ≠ 0 then frameNumOffset + h.frameNum
    else 0
  if !h.reference && decide (0 < a) then a - 1 else a

/-- The sum of some offsets, in words. -/
def sumWords (offsets : List ℤ) : Word :=
  offsets.foldl (fun (sum : Word) (offset : ℤ) => sum + offset) 0

/-- `ExpectedPicOrderCnt` of type 1. -/
def expectedPicOrderCnt (absFrameNum : Word) : Word :=
  let offsets := h.sequenceParameterSet.offsetForRefFrame
  let expected :=
    if 0 < absFrameNum then
      let count : Word := offsets.length
      let picOrderCntCycleCnt := (absFrameNum - 1) / count
      let frameNumInPicOrderCntCycle := (absFrameNum - 1) % count
      picOrderCntCycleCnt * sumWords offsets +
        sumWords (offsets.take (frameNumInPicOrderCntCycle.toNat + 1))
    else 0
  if h.reference then expected else expected + h.sequenceParameterSet.offsetForNonRefPic

/-- Picture order count type 1. -/
def type1 (s : OrderState) : OrderState × Word × Word :=
  let expected := h.expectedPicOrderCnt (h.absFrameNum (h.frameNumOffset s))
  let top := expected + h.deltaPicOrderCnt.1
  let bottom :=
    if h.fieldPicFlag then
      expected + h.sequenceParameterSet.offsetForTopToBottomField + h.deltaPicOrderCnt.1
    else top + h.sequenceParameterSet.offsetForTopToBottomField + h.deltaPicOrderCnt.2
  (h.leaveFrameNum s, h.fieldOrderCnts top bottom)

/-- Picture order count type 2. -/
def type2 (s : OrderState) : OrderState × Word × Word :=
  let temp :=
    if h.idr then 0
    else if h.reference then 2 * (h.frameNumOffset s + h.frameNum)
    else 2 * (h.frameNumOffset s + h.frameNum) - 1
  (h.leaveFrameNum s, h.fieldOrderCnts temp temp)

/-- The derivation by the type of the sequence. -/
def derive (s : OrderState) : OrderState × Word × Word :=
  match h.sequenceParameterSet.picOrderCntType with
  | 0 => h.type0 s
  | 1 => h.type1 s
  | 2 => h.type2 s
  | _ => (s, 9999, 9999)

/-- `CalculatePicOrderCnts`; `dpbOutputDelay` is that of the picture timing message. -/
def calculatePicOrderCnts (dpbOutputDelay : Word) (s : OrderState) : OrderState × PicOrderCnts :=
  let (s, top, bottom) := h.derive s
  let picOrderCnt :=
    if h.fieldPicFlag then if h.bottomFieldFlag then bottom else top
    else if top < bottom then top else bottom
  let s :=
    if h.idr then
      { s with
        picOrderCntOffset := s.picOrderCntOffset + s.picOrderCntOffsetAdjust
        baseDpbValue := 0 }
    else s
  let extended :=
    if s.displayOrderByDpbValues then
      s.picOrderCntOffset + s.baseDpbValue.zeroExtend 64 + dpbOutputDelay.zeroExtend 64
    else s.picOrderCntOffset + picOrderCnt.signExtend 64
  let s :=
    if h.memoryControlClearSeen && !s.displayOrderByDpbValues then
      { s with picOrderCntOffset := s.picOrderCntOffset + s.picOrderCntOffsetAdjust }
    else s
  (s, ⟨top, bottom, picOrderCnt, extended⟩)

/-- What the marking of a picture with a memory control clear does to the frame numbers before the
next picture. -/
def resetFrameNum (s : OrderState) : OrderState :=
  if h.memoryControlClearSeen then { s with prevFrameNum := 0 } else s

end SliceHeader

/-- A sequence of pictures, each with its `dpbOutputDelay`. -/
def picOrderCnts : OrderState → List (SliceHeader × Word) → List PicOrderCnts
  | _, [] => []
  | s, (h, dpbOutputDelay) :: rest =>
    let r := h.calculatePicOrderCnts dpbOutputDelay s
    r.2 :: picOrderCnts (h.resetFrameNum r.1) rest

/-! ### The standard -/

/-- What the pictures before leave: the previous reference picture's msb and lsb for type 0, the
previous picture's frame number and offset for the types 1 and 2.  A coded video sequence has one
type, so a picture leaves what its own type needs. -/
structure Carried where
  prevPicOrderCntMsb : ℤ
  prevPicOrderCntLsb : ℤ
  prevFrameNum : ℕ
  prevFrameNumOffset : ℕ
deriving DecidableEq

/-- `TopFieldOrderCnt`, `BottomFieldOrderCnt` and `PicOrderCnt` of a picture, none for the parity
that a field does not have. -/
structure Derived where
  top : Option ℤ
  bottom : Option ℤ
  picOrderCnt : ℤ
deriving DecidableEq

namespace Standard
variable (h : SliceHeader) (c : Carried)

/-- The counts of a frame, or of the field that the picture is. -/
def derived (top bottom : ℤ) : Derived :=
  if h.fieldPicFlag then
    if h.bottomFieldFlag then ⟨none, some bottom, bottom⟩ else ⟨some top, none, top⟩
  else ⟨some top, some bottom, min top bottom⟩

/-- `prevPicOrderCntMsb` and `prevPicOrderCntLsb`. -/
def previous : ℤ × ℤ := if h.idr then (0, 0) else (c.prevPicOrderCntMsb, c.prevPicOrderCntLsb)

def picOrderCntMsb (prev : ℤ × ℤ) : ℤ :=
  let maxPicOrderCntLsb : ℤ := h.sequenceParameterSet.maxPicOrderCntLsb
  if (h.picOrderCntLsb : ℤ) < prev.2 ∧ maxPicOrderCntLsb / 2 ≤ prev.2 - h.picOrderCntLsb then
    prev.1 + maxPicOrderCntLsb
  else if prev.2 < h.picOrderCntLsb ∧ maxPicOrderCntLsb / 2 < h.picOrderCntLsb - prev.2 then
    prev.1 - maxPicOrderCntLsb
  else prev.1

/-- The counts of type 0. -/
def type0 : Derived :=
  let count := picOrderCntMsb h (previous h c) + h.picOrderCntLsb
  derived h count (if h.fieldPicFlag then count else count + h.deltaPicOrderCntBottom)

def frameNumOffset : ℕ :=
  if h.idr then 0
  else if h.frameNum < c.prevFrameNum then
    c.prevFrameNumOffset + h.sequenceParameterSet.maxFrameNum
  else c.prevFrameNumOffset

def absFrameNum : ℕ :=
  let a := if h.sequenceParameterSet.offsetForRefFrame.length ≠ 0 then
    frameNumOffset h c + h.frameNum else 0
  if !h.reference && decide (0 < a) then a - 1 else a

def expectedPicOrderCnt : ℤ :=
  let offsets := h.sequenceParameterSet.offsetForRefFrame
  let a := absFrameNum h c
  let expected :=
    if 0 < a then
      ((a - 1) / offsets.length : ℕ) * offsets.sum +
        (offsets.take ((a - 1) % offsets.length + 1)).sum
    else 0
  if h.reference then expected else expected + h.sequenceParameterSet.offsetForNonRefPic

/-- The counts of type 1. -/
def type1 : Derived :=
  let expected := expectedPicOrderCnt h c
  let top := expected + h.deltaPicOrderCnt.1
  derived h top
    (if h.fieldPicFlag then
      expected + h.sequenceParameterSet.offsetForTopToBottomField + h.deltaPicOrderCnt.1
    else top + h.sequenceParameterSet.offsetForTopToBottomField + h.deltaPicOrderCnt.2)

/-- The counts of type 2. -/
def type2 : Derived :=
  let temp : ℤ :=
    if h.idr then 0
    else if h.reference then 2 * (frameNumOffset h c + h.frameNum : ℕ)
    else 2 * (frameNumOffset h c + h.frameNum : ℕ) - 1
  derived h temp temp

/-- The derivation by the type of the sequence. -/
def derive : Derived :=
  match h.sequenceParameterSet.picOrderCntType with
  | 0 => type0 h c
  | 1 => type1 h c
  | _ => type2 h c

/-- What a picture leaves.  After an operation 5 its counts are taken relative to its
`PicOrderCnt`, and it is taken to have had the frame number 0. -/
def leave : Carried :=
  if h.sequenceParameterSet.picOrderCntType = 0 then
    let prev := previous h c
    let next :=
      if h.reference then
        if h.memoryControlClearSeen then
          (0, ((type0 h c).top.map fun top => top - (type0 h c).picOrderCnt).getD 0)
        else (picOrderCntMsb h prev, (h.picOrderCntLsb : ℤ))
      else prev
    { c with prevPicOrderCntMsb := next.1, prevPicOrderCntLsb := next.2 }
  else
    { c with
      prevFrameNum := if h.memoryControlClearSeen then 0 else h.frameNum
      prevFrameNumOffset := if h.memoryControlClearSeen then 0 else frameNumOffset h c }

/-- The counts of a sequence of pictures. -/
def derivations : Carried → List SliceHeader → List Derived
  | _, [] => []
  | c, h :: rest => derive h c :: derivations (leave h c) rest

end Standard

/-- The computed counts are the derived ones, as signed integers. -/
structure PicOrderCnts.Agrees (d : Derived) (p : PicOrderCnts) : Prop where
  top : ∀ t ∈ d.top, p.picOrderCntTop.toInt = t
  bottom : ∀ b ∈ d.bottom, p.picOrderCntBot.toInt = b
  picOrderCnt : p.picOrderCnt.toInt = d.picOrderCnt

/-- A 32 bit signed integer. -/
def Fits (z : ℤ) : Prop := -2 ^ 31 ≤ z ∧ z < 2 ^ 31

/-- The counts of a frame fit and have the same sign. -/
structure Derived.Regular (d : Derived) : Prop where
  top : ∀ t ∈ d.top, Fits t
  bottom : ∀ b ∈ d.bottom, Fits b
  sign : ∀ t ∈ d.top, ∀ b ∈ d.bottom, (t < 0 ↔ b < 0)

/-- The counts of the picture are regular, an operation 5 of type 0 has nothing to subtract, and the
frame number offset fits. -/
structure Standard.Regular (c : Carried) (h : SliceHeader) : Prop where
  derived : (derive h c).Regular
  clear : h.sequenceParameterSet.picOrderCntType = 0 → h.memoryControlClearSeen →
    (derive h c).top.isSome → (derive h c).picOrderCnt = 0
  offset : h.sequenceParameterSet.picOrderCntType ≠ 0 → frameNumOffset h c + h.frameNum < 2 ^ 32

/-! ### Words and integers -/

theorem Fits.toInt {z : ℤ} (h : Fits z) : (z : Word).toInt = z := by
  rw [BitVec.toInt_intCast, Int.bmod_def]
  unfold Fits at h
  split <;> omega

theorem toNat_natCast {n : ℕ} (hn : n < 2 ^ 32) : (n : Word).toNat = n := by
  exact Nat.mod_eq_of_lt hn

theorem toNat_intCast (z : ℤ) : ((z : Word).toNat : ℤ) = z % 2 ^ 32 := by
  have h : (z : Word).toNat = (z % 2 ^ 32).toNat := BitVec.toNat_ofInt z
  omega

theorem intCast_lt_iff {t b : ℤ} (ht : Fits t) (hb : Fits b) (hsign : t < 0 ↔ b < 0) :
    (t : Word) < (b : Word) ↔ t < b := by
  have htop := toNat_intCast t
  have hbottom := toNat_intCast b
  unfold Fits at ht hb
  rw [BitVec.lt_def]
  omega

/-! ### One picture -/

theorem derived_agrees (h : SliceHeader) {top bottom : ℤ}
    (hd : (Standard.derived h top bottom).Regular) (extended : BitVec 64) :
    PicOrderCnts.Agrees (Standard.derived h top bottom)
      ⟨(h.fieldOrderCnts top bottom).1, (h.fieldOrderCnts top bottom).2,
        if h.fieldPicFlag then
          if h.bottomFieldFlag then (h.fieldOrderCnts top bottom).2
          else (h.fieldOrderCnts top bottom).1
        else if (h.fieldOrderCnts top bottom).1 < (h.fieldOrderCnts top bottom).2 then
          (h.fieldOrderCnts top bottom).1
        else (h.fieldOrderCnts top bottom).2, extended⟩ := by
  obtain ⟨htop, hbottom, hsign⟩ := hd
  unfold SliceHeader.fieldOrderCnts SliceHeader.isBottom Standard.derived at *
  cases hfield : h.fieldPicFlag with
  | true =>
    cases hparity : h.bottomFieldFlag with
    | true =>
      have hb : (bottom : Word).toInt = bottom := (hbottom bottom (by simp [hfield, hparity])).toInt
      exact ⟨by simp, by simpa using hb, by simpa using hb⟩
    | false =>
      have ht : (top : Word).toInt = top := (htop top (by simp [hfield, hparity])).toInt
      exact ⟨by simpa using ht, by simp, by simpa using ht⟩
  | false =>
    have ht : Fits top := htop top (by simp [hfield])
    have hb : Fits bottom := hbottom bottom (by simp [hfield])
    have hlt := intCast_lt_iff ht hb (hsign top (by simp [hfield]) bottom (by simp [hfield]))
    refine ⟨by simpa using ht.toInt, by simpa using hb.toInt, ?_⟩
    by_cases h' : top < bottom
    · simpa [hlt.mpr h', min_eq_left h'.le] using ht.toInt
    · simpa [mt hlt.mp h', min_eq_right (not_lt.mp h')] using hb.toInt

/-- The words of type 0 stand for what is carried. -/
structure RelatedLsb (s : OrderState) (c : Carried) : Prop where
  msb : s.prevPicOrderCntMsb = (c.prevPicOrderCntMsb : Word)
  lsb : (s.prevPicOrderCntLsb.toNat : ℤ) = c.prevPicOrderCntLsb

/-- The words of the types 1 and 2 stand for what is carried. -/
structure RelatedFrameNum (s : OrderState) (c : Carried) : Prop where
  frameNum : s.prevFrameNum.toNat = c.prevFrameNum
  offset : s.prevFrameNumOffset.toNat = c.prevFrameNumOffset

section type0
variable {h : SliceHeader} {s : OrderState} {c : Carried}

theorem picOrderCntMsb_eq {prevMsb prevLsb : Word} {prev : ℤ × ℤ} (hmsb : prevMsb = (prev.1 : Word))
    (hlsb : (prevLsb.toNat : ℤ) = prev.2) :
    h.picOrderCntMsb prevMsb prevLsb = (Standard.picOrderCntMsb h prev : Word) := by
  have hmax := h.sequenceParameterSet.maxPicOrderCntLsb_le
  have hlt := h.picOrderCntLsb_lt
  have hmaxNat : (h.sequenceParameterSet.maxPicOrderCntLsb : Word).toNat =
      h.sequenceParameterSet.maxPicOrderCntLsb := toNat_natCast (by omega)
  have hlsbNat : (h.picOrderCntLsb : Word).toNat = h.picOrderCntLsb := toNat_natCast (by omega)
  have hhalf : ((h.sequenceParameterSet.maxPicOrderCntLsb : Word) / 2).toNat =
      h.sequenceParameterSet.maxPicOrderCntLsb / 2 := by
    rw [BitVec.toNat_udiv, hmaxNat]
    rfl
  have hback : ((h.picOrderCntLsb : Word) < prevLsb ∧
      (h.sequenceParameterSet.maxPicOrderCntLsb : Word) / 2 ≤ prevLsb - h.picOrderCntLsb) ↔
      ((h.picOrderCntLsb : ℤ) < prev.2 ∧
        (h.sequenceParameterSet.maxPicOrderCntLsb : ℤ) / 2 ≤ prev.2 - h.picOrderCntLsb) := by
    rw [BitVec.lt_def, BitVec.le_def, hhalf, BitVec.toNat_sub, hlsbNat]
    omega
  have hforth : (prevLsb < (h.picOrderCntLsb : Word) ∧
      (h.sequenceParameterSet.maxPicOrderCntLsb : Word) / 2 < h.picOrderCntLsb - prevLsb) ↔
      (prev.2 < (h.picOrderCntLsb : ℤ) ∧
        (h.sequenceParameterSet.maxPicOrderCntLsb : ℤ) / 2 < h.picOrderCntLsb - prev.2) := by
    rw [BitVec.lt_def, BitVec.lt_def, hhalf, BitVec.toNat_sub, hlsbNat]
    omega
  simp only [SliceHeader.picOrderCntMsb, Standard.picOrderCntMsb, hback, hforth, hmsb]
  split
  · push_cast
    rfl
  · split
    · push_cast
      rfl
    · rfl

theorem type0_entry (hs : h.idr ∨ RelatedLsb s c) :
    (if h.idr then 0 else s.prevPicOrderCntMsb) = ((Standard.previous h c).1 : Word) ∧
      ((if h.idr then 0 else s.prevPicOrderCntLsb : Word).toNat : ℤ) = (Standard.previous h c).2 := by
  unfold Standard.previous
  rcases hs with hidr | hs
  · simp [hidr]
  · split
    · exact ⟨by simp, by simp⟩
    · exact ⟨hs.msb, hs.lsb⟩

theorem type0_counts (hs : h.idr ∨ RelatedLsb s c) :
    ∃ top bottom : ℤ, Standard.type0 h c = Standard.derived h top bottom ∧
      (h.type0 s).2 = h.fieldOrderCnts top bottom := by
  obtain ⟨hmsb, hlsb⟩ := type0_entry hs
  refine ⟨_, _, rfl, ?_⟩
  have hcount := picOrderCntMsb_eq (h := h) hmsb hlsb
  simp only [SliceHeader.type0, hcount]
  congr 1
  · push_cast
    rfl
  · split <;> push_cast <;> rfl

theorem type0_state (h : SliceHeader) (s : OrderState) :
    (h.type0 s).1.prevPicOrderCntMsb =
        (if h.reference then
          if h.memoryControlClearSeen then 0
          else h.picOrderCntMsb (if h.idr then 0 else s.prevPicOrderCntMsb)
            (if h.idr then 0 else s.prevPicOrderCntLsb)
        else if h.idr then 0 else s.prevPicOrderCntMsb) ∧
      (h.type0 s).1.prevPicOrderCntLsb =
        (if h.reference then
          if h.memoryControlClearSeen then if h.isBottom then 0 else (h.type0 s).2.1
          else (h.picOrderCntLsb : Word)
        else if h.idr then 0 else s.prevPicOrderCntLsb) := by
  unfold SliceHeader.type0
  cases h.reference <;> cases h.memoryControlClearSeen <;> exact ⟨rfl, rfl⟩

theorem clear_lsb {top bottom : ℤ} (hregular : (Standard.derived h top bottom).Regular)
    (hclear : (Standard.derived h top bottom).top.isSome →
      (Standard.derived h top bottom).picOrderCnt = 0) :
    (((if h.isBottom then 0 else (top : Word)) : Word).toNat : ℤ) =
      (((Standard.derived h top bottom).top.map
        fun t => t - (Standard.derived h top bottom).picOrderCnt).getD 0) := by
  have hfits := hregular.top
  unfold SliceHeader.isBottom
  unfold Standard.derived at hfits hclear ⊢
  cases hfield : h.fieldPicFlag with
  | true =>
    cases hparity : h.bottomFieldFlag with
    | true => simp
    | false =>
      have hzero : top = 0 := by simpa [hfield, hparity] using hclear
      simp [hzero]
  | false =>
    have hzero : min top bottom = 0 := by simpa [hfield] using hclear
    have htop : Fits top := hfits top (by simp [hfield])
    have hnat := toNat_intCast top
    have hle := min_le_left top bottom
    unfold Fits at htop
    simp only [Bool.false_and, Bool.false_eq_true, if_false, Option.map_some, Option.getD_some, hzero]
    omega

theorem type0_related (hs : h.idr ∨ RelatedLsb s c) (htype : h.sequenceParameterSet.picOrderCntType = 0)
    (hregular : (Standard.type0 h c).Regular)
    (hclear : h.memoryControlClearSeen → (Standard.type0 h c).top.isSome →
      (Standard.type0 h c).picOrderCnt = 0) :
    RelatedLsb (h.type0 s).1 (Standard.leave h c) := by
  obtain ⟨hmsb, hlsb⟩ := type0_entry hs
  obtain ⟨top, bottom, hderived, hcounts⟩ := type0_counts hs
  obtain ⟨hstateMsb, hstateLsb⟩ := type0_state h s
  rw [picOrderCntMsb_eq hmsb hlsb, hmsb] at hstateMsb
  rw [hderived] at hregular hclear
  rw [Standard.leave, if_pos htype, hderived]
  cases href : h.reference with
  | false =>
    rw [href] at hstateMsb hstateLsb
    exact ⟨hstateMsb, hstateLsb ▸ hlsb⟩
  | true =>
    rw [href] at hstateMsb hstateLsb
    cases hseen : h.memoryControlClearSeen with
    | true =>
      rw [hseen] at hstateMsb hstateLsb
      refine ⟨hstateMsb, ?_⟩
      have htop : (if h.isBottom then 0 else (h.type0 s).2.1) =
          if h.isBottom then 0 else (top : Word) := by
        rw [hcounts, SliceHeader.fieldOrderCnts]
        cases h.isBottom <;> rfl
      rw [hstateLsb, if_pos rfl, if_pos rfl, htop]
      exact clear_lsb hregular (hclear hseen)
    | false =>
      rw [hseen] at hstateMsb hstateLsb
      refine ⟨hstateMsb, ?_⟩
      have hlt := h.picOrderCntLsb_lt
      have hmax := h.sequenceParameterSet.maxPicOrderCntLsb_le
      rw [hstateLsb, if_pos rfl, if_neg (by decide), toNat_natCast (by omega)]
      rfl

end type0

section frameNum
variable {h : SliceHeader} {s : OrderState} {c : Carried}

theorem frameNumOffset_eq (hs : h.idr ∨ RelatedFrameNum s c)
    (hoffset : Standard.frameNumOffset h c + h.frameNum < 2 ^ 32) :
    (h.frameNumOffset s).toNat = Standard.frameNumOffset h c := by
  have hmax := h.sequenceParameterSet.maxFrameNum_le
  unfold SliceHeader.frameNumOffset
  unfold Standard.frameNumOffset at hoffset ⊢
  rcases hs with hidr | hs
  · simp [hidr]
  · have hless : (h.frameNum : Word) < s.prevFrameNum ↔ h.frameNum < c.prevFrameNum := by
      rw [BitVec.lt_def, toNat_natCast (by omega), hs.frameNum]
    rw [← hs.offset] at hoffset ⊢
    split
    · rfl
    next hidr =>
      rw [if_neg hidr] at hoffset
      by_cases hwrap : h.frameNum < c.prevFrameNum
      · rw [if_pos hwrap] at hoffset
        rw [if_pos (hless.mpr hwrap), if_pos hwrap, BitVec.toNat_add, toNat_natCast (by omega)]
        omega
      · rw [if_neg (mt hless.mp hwrap), if_neg hwrap]

theorem leaveFrameNum_related (hs : h.idr ∨ RelatedFrameNum s c)
    (htype : h.sequenceParameterSet.picOrderCntType ≠ 0)
    (hoffset : Standard.frameNumOffset h c + h.frameNum < 2 ^ 32) :
    RelatedFrameNum (h.resetFrameNum (h.leaveFrameNum s)) (Standard.leave h c) := by
  have hlt := h.frameNum_lt
  have hmax := h.sequenceParameterSet.maxFrameNum_le
  have heq := frameNumOffset_eq hs hoffset
  unfold SliceHeader.resetFrameNum SliceHeader.leaveFrameNum Standard.leave
  rw [if_neg htype]
  cases h.memoryControlClearSeen with
  | true => exact ⟨rfl, rfl⟩
  | false =>
    refine ⟨?_, heq⟩
    exact toNat_natCast (by omega)

theorem toNat_sub_one {a : Word} (ha : 0 < a.toNat) : (a - 1).toNat = a.toNat - 1 := by
  change (2 ^ 32 - 1 + a.toNat) % 2 ^ 32 = _
  omega

theorem absFrameNum_eq {offset : Word} (h' : offset.toNat = Standard.frameNumOffset h c)
    (hoffset : Standard.frameNumOffset h c + h.frameNum < 2 ^ 32) :
    (h.absFrameNum offset).toNat = Standard.absFrameNum h c := by
  have hsum : (offset + h.frameNum).toNat = Standard.frameNumOffset h c + h.frameNum := by
    rw [BitVec.toNat_add, h', toNat_natCast (by omega)]
    omega
  have hword : (if h.sequenceParameterSet.offsetForRefFrame.length ≠ 0 then offset + h.frameNum
      else 0 : Word).toNat =
      if h.sequenceParameterSet.offsetForRefFrame.length ≠ 0 then
        Standard.frameNumOffset h c + h.frameNum else 0 := by
    split
    · exact hsum
    · rfl
  unfold SliceHeader.absFrameNum Standard.absFrameNum
  dsimp only
  generalize (if h.sequenceParameterSet.offsetForRefFrame.length ≠ 0 then offset + h.frameNum
      else 0 : Word) = a at hword
  rw [← hword]
  have hpos : (0 : Word) < a ↔ 0 < a.toNat := by
    rfl
  rw [decide_eq_decide.mpr hpos]
  split
  next hdown =>
    have hpositive : 0 < a.toNat := of_decide_eq_true (Bool.and_eq_true_iff.mp hdown).2
    exact toNat_sub_one hpositive
  · rfl

theorem sumWords_eq (offsets : List ℤ) : SliceHeader.sumWords offsets = (offsets.sum : Word) := by
  have hfold : ∀ (l : List ℤ) (z : ℤ),
      l.foldl (fun (sum : Word) (offset : ℤ) => sum + offset) (z : Word) =
        ((z + l.sum : ℤ) : Word) := by
    intro l
    induction l with
    | nil => intro z; simp
    | cons x l ih =>
      intro z
      rw [List.foldl_cons, ← Int.cast_add, ih, List.sum_cons, add_assoc]
  have h := hfold offsets 0
  rw [Int.cast_zero, zero_add] at h
  exact h

theorem expectedPicOrderCnt_eq {a : Word} (ha : a.toNat = Standard.absFrameNum h c) :
    h.expectedPicOrderCnt a = (Standard.expectedPicOrderCnt h c : Word) := by
  have hlength := h.sequenceParameterSet.offsetForRefFrame_length_le
  have hcount : ((h.sequenceParameterSet.offsetForRefFrame.length : ℕ) : Word).toNat =
      h.sequenceParameterSet.offsetForRefFrame.length := toNat_natCast (by omega)
  have hpos : (0 : Word) < a ↔ 0 < a.toNat := by
    rfl
  have hexpected : (if 0 < a then
        (a - 1) / (h.sequenceParameterSet.offsetForRefFrame.length : Word) *
            SliceHeader.sumWords h.sequenceParameterSet.offsetForRefFrame +
          SliceHeader.sumWords (h.sequenceParameterSet.offsetForRefFrame.take
            (((a - 1) % (h.sequenceParameterSet.offsetForRefFrame.length : Word)).toNat + 1))
      else 0) =
      ((if 0 < a.toNat then
        ((a.toNat - 1) / h.sequenceParameterSet.offsetForRefFrame.length : ℕ) *
            h.sequenceParameterSet.offsetForRefFrame.sum +
          (h.sequenceParameterSet.offsetForRefFrame.take
            ((a.toNat - 1) % h.sequenceParameterSet.offsetForRefFrame.length + 1)).sum
      else 0 : ℤ) : Word) := by
    by_cases hpositive : 0 < a.toNat
    · have hdiv : (a - 1) / (h.sequenceParameterSet.offsetForRefFrame.length : Word) =
          (((a.toNat - 1) / h.sequenceParameterSet.offsetForRefFrame.length : ℕ) : Word) := by
        have hle := Nat.div_le_self (a.toNat - 1) h.sequenceParameterSet.offsetForRefFrame.length
        apply BitVec.eq_of_toNat_eq
        rw [BitVec.toNat_udiv, hcount, toNat_sub_one hpositive, toNat_natCast (by omega)]
      rw [if_pos (hpos.mpr hpositive), if_pos hpositive, hdiv, BitVec.toNat_umod, hcount,
        toNat_sub_one hpositive, sumWords_eq, sumWords_eq, Int.cast_add, Int.cast_mul, Int.cast_natCast]
    · rw [if_neg (mt hpos.mp hpositive), if_neg hpositive, Int.cast_zero]
  unfold SliceHeader.expectedPicOrderCnt Standard.expectedPicOrderCnt
  dsimp only
  rw [hexpected, ha]
  split
  · rfl
  · exact (Int.cast_add _ _).symm

theorem type1_counts (hs : h.idr ∨ RelatedFrameNum s c)
    (hoffset : Standard.frameNumOffset h c + h.frameNum < 2 ^ 32) :
    ∃ top bottom : ℤ, Standard.type1 h c = Standard.derived h top bottom ∧
      (h.type1 s).2 = h.fieldOrderCnts top bottom := by
  have habs := absFrameNum_eq (frameNumOffset_eq hs hoffset) hoffset
  refine ⟨_, _, rfl, ?_⟩
  simp only [SliceHeader.type1, expectedPicOrderCnt_eq habs]
  congr 1
  · exact (Int.cast_add _ _).symm
  · split <;> push_cast <;> rfl

theorem type2_counts (hs : h.idr ∨ RelatedFrameNum s c)
    (hoffset : Standard.frameNumOffset h c + h.frameNum < 2 ^ 32) :
    ∃ top bottom : ℤ, Standard.type2 h c = Standard.derived h top bottom ∧
      (h.type2 s).2 = h.fieldOrderCnts top bottom := by
  have hword : h.frameNumOffset s = (Standard.frameNumOffset h c : Word) := by
    apply BitVec.eq_of_toNat_eq
    rw [frameNumOffset_eq hs hoffset, toNat_natCast (by omega)]
  refine ⟨_, _, rfl, ?_⟩
  have htemp : (if h.idr then 0
      else if h.reference then 2 * (h.frameNumOffset s + h.frameNum)
      else 2 * (h.frameNumOffset s + h.frameNum) - 1 : Word) =
      ((if h.idr then 0
      else if h.reference then 2 * (Standard.frameNumOffset h c + h.frameNum : ℕ)
      else 2 * (Standard.frameNumOffset h c + h.frameNum : ℕ) - 1 : ℤ) : Word) := by
    rw [hword]
    split
    · exact Int.cast_zero.symm
    · split <;> push_cast <;> rfl
  simp only [SliceHeader.type2, htemp]

end frameNum

/-- The words of a sequence stand for what is carried in it. -/
def Related (h : SliceHeader) (s : OrderState) (c : Carried) : Prop :=
  if h.sequenceParameterSet.picOrderCntType = 0 then RelatedLsb s c else RelatedFrameNum s c

section picture
variable {h : SliceHeader} {s : OrderState} {c : Carried}

theorem derive_counts (hs : h.idr ∨ Related h s c) (hr : Standard.Regular c h) :
    ∃ top bottom : ℤ, Standard.derive h c = Standard.derived h top bottom ∧
      (h.derive s).2 = h.fieldOrderCnts top bottom := by
  have htype := h.sequenceParameterSet.picOrderCntType_le
  have hoffset := hr.offset
  unfold Related at hs
  unfold Standard.derive SliceHeader.derive
  generalize h.sequenceParameterSet.picOrderCntType = t at htype hoffset hs
  obtain rfl | rfl | rfl : t = 0 ∨ t = 1 ∨ t = 2 := by omega
  · exact type0_counts hs
  · exact type1_counts hs (hoffset (by decide))
  · exact type2_counts hs (hoffset (by decide))

/-- The two states carry the same to the next picture. -/
structure SameCarried (s s' : OrderState) : Prop where
  msb : s.prevPicOrderCntMsb = s'.prevPicOrderCntMsb
  lsb : s.prevPicOrderCntLsb = s'.prevPicOrderCntLsb
  frameNum : s.prevFrameNum = s'.prevFrameNum
  offset : s.prevFrameNumOffset = s'.prevFrameNumOffset

theorem SameCarried.related {s' : OrderState} (h' : SameCarried s s') (hrelated : Related h s' c) :
    Related h s c := by
  unfold Related at hrelated ⊢
  split at hrelated
  next htype =>
    rw [if_pos htype]
    exact ⟨h'.msb.trans hrelated.msb, h'.lsb ▸ hrelated.lsb⟩
  next htype =>
    rw [if_neg htype]
    exact ⟨h'.frameNum ▸ hrelated.frameNum, h'.offset ▸ hrelated.offset⟩

theorem SameCarried.resetFrameNum {s' : OrderState} (h' : SameCarried s s') (h : SliceHeader) :
    SameCarried (h.resetFrameNum s) (h.resetFrameNum s') := by
  unfold SliceHeader.resetFrameNum
  split
  · exact ⟨h'.msb, h'.lsb, rfl, h'.offset⟩
  · exact h'

theorem calculatePicOrderCnts_sameCarried (h : SliceHeader) (dpbOutputDelay : Word) (s : OrderState) :
    SameCarried (h.calculatePicOrderCnts dpbOutputDelay s).1 (h.derive s).1 := by
  unfold SliceHeader.calculatePicOrderCnts
  dsimp only
  generalize (h.derive s).1 = t
  have hidr : SameCarried (if h.idr then
      { t with
        picOrderCntOffset := t.picOrderCntOffset + t.picOrderCntOffsetAdjust
        baseDpbValue := 0 }
      else t) t := by
    split <;> exact ⟨rfl, rfl, rfl, rfl⟩
  generalize (if h.idr then
      { t with
        picOrderCntOffset := t.picOrderCntOffset + t.picOrderCntOffsetAdjust
        baseDpbValue := 0 }
      else t) = u at hidr ⊢
  split
  · exact ⟨hidr.msb, hidr.lsb, hidr.frameNum, hidr.offset⟩
  · exact hidr

theorem derive_related (hs : h.idr ∨ Related h s c) (hr : Standard.Regular c h) :
    Related h (h.resetFrameNum (h.derive s).1) (Standard.leave h c) := by
  have htype := h.sequenceParameterSet.picOrderCntType_le
  have hregular := hr.derived
  have hclear := hr.clear
  unfold Related at hs ⊢
  unfold Standard.derive at hregular hclear
  unfold SliceHeader.derive
  by_cases h0 : h.sequenceParameterSet.picOrderCntType = 0
  · rw [if_pos h0] at hs ⊢
    simp only [h0] at hregular hclear ⊢
    have hrelated := type0_related hs h0 hregular (hclear trivial)
    unfold SliceHeader.resetFrameNum
    split
    · exact ⟨hrelated.msb, hrelated.lsb⟩
    · exact hrelated
  · rw [if_neg h0] at hs ⊢
    have hleave := leaveFrameNum_related hs h0 (hr.offset h0)
    obtain h1 | h2 : h.sequenceParameterSet.picOrderCntType = 1 ∨
        h.sequenceParameterSet.picOrderCntType = 2 := by omega
    · simp only [h1]
      exact hleave
    · simp only [h2]
      exact hleave

/-- **One picture**: its counts are the derived ones, and what it leaves is what is carried. -/
theorem calculatePicOrderCnts_agrees (hs : h.idr ∨ Related h s c) (hr : Standard.Regular c h)
    (dpbOutputDelay : Word) :
    (h.calculatePicOrderCnts dpbOutputDelay s).2.Agrees (Standard.derive h c) ∧
      Related h (h.resetFrameNum (h.calculatePicOrderCnts dpbOutputDelay s).1)
        (Standard.leave h c) := by
  constructor
  · obtain ⟨top, bottom, hderived, hcounts⟩ := derive_counts hs hr
    have hregular := hr.derived
    rw [hderived] at hregular ⊢
    have hagrees := derived_agrees h hregular
      (h.calculatePicOrderCnts dpbOutputDelay s).2.extendedPicOrderCnt
    rw [← hcounts] at hagrees
    exact hagrees
  · have hsame := calculatePicOrderCnts_sameCarried h dpbOutputDelay s
    exact (hsame.resetFrameNum h).related (derive_related hs hr)

end picture

/-! ### Sequences of pictures -/

/-- A picture other than an IDR picture refers to the active sequence parameter set. -/
def Continues (h next : SliceHeader) : Prop :=
  next.idr ∨ next.sequenceParameterSet.picOrderCntType = h.sequenceParameterSet.picOrderCntType

/-- What is carried, as a step of a run. -/
def Standard.step (c : Carried) (h : SliceHeader) : Option Carried := some (Standard.leave h c)

/-- The computed counts of all the pictures are the derived ones. -/
def CountsAgree (s : OrderState) (c : Carried) (pictures : List (SliceHeader × Word)) : Prop :=
  List.Forall₂ (fun d p => PicOrderCnts.Agrees d p) (Standard.derivations c (pictures.map Prod.fst))
    (picOrderCnts s pictures)

theorem Related.continues {h next : SliceHeader} {s : OrderState} {c : Carried}
    (hs : Related h s c) (hnext : Continues h next) : next.idr ∨ Related next s c := by
  refine hnext.imp_right fun htype => ?_
  unfold Related
  rw [htype]
  exact hs

theorem countsAgree_of_related {rest : List (SliceHeader × Word)} {first : SliceHeader × Word}
    {s : OrderState} {c : Carried} (hs : first.1.idr ∨ Related first.1 s c)
    (hchain : ((first :: rest).map Prod.fst).IsChain Continues)
    (hregular : Lts.Along Standard.step Standard.Regular c ((first :: rest).map Prod.fst)) :
    CountsAgree s c (first :: rest) := by
  induction rest generalizing first s c with
  | nil =>
    have hfirst := (calculatePicOrderCnts_agrees hs hregular.1 first.2).1
    exact List.Forall₂.cons hfirst List.Forall₂.nil
  | cons second rest ih =>
    obtain ⟨hfirst, hrelated⟩ := calculatePicOrderCnts_agrees hs hregular.1 first.2
    obtain ⟨hnext, hchain⟩ := List.isChain_cons_cons.mp hchain
    exact List.Forall₂.cons hfirst (ih (hrelated.continues hnext) hchain (hregular.2 _ rfl))

/-- **Picture order counts**: in every sequence of pictures that starts at an IDR picture and in
which all pictures are regular, the counts are those of the standard. -/
theorem picOrderCnts_agree (s : OrderState) (c : Carried) {first : SliceHeader × Word}
    {rest : List (SliceHeader × Word)} (hidr : first.1.idr)
    (hchain : ((first :: rest).map Prod.fst).IsChain Continues)
    (hregular : Lts.Along Standard.step Standard.Regular c ((first :: rest).map Prod.fst)) :
    CountsAgree s c (first :: rest) :=
  countsAgree_of_related (.inl hidr) hchain hregular

/-! ### Two concrete sequences -/

instance (z : ℤ) : Decidable (Fits z) := inferInstanceAs (Decidable (-2 ^ 31 ≤ z ∧ z < 2 ^ 31))

instance (d : Derived) : Decidable d.Regular :=
  decidable_of_iff ((∀ t ∈ d.top, Fits t) ∧ (∀ b ∈ d.bottom, Fits b) ∧
      ∀ t ∈ d.top, ∀ b ∈ d.bottom, (t < 0 ↔ b < 0))
    ⟨fun h => ⟨h.1, h.2.1, h.2.2⟩, fun h => ⟨h.top, h.bottom, h.sign⟩⟩

instance (c : Carried) (h : SliceHeader) : Decidable (Standard.Regular c h) :=
  decidable_of_iff ((Standard.derive h c).Regular ∧
      (h.sequenceParameterSet.picOrderCntType = 0 → h.memoryControlClearSeen →
        (Standard.derive h c).top.isSome → (Standard.derive h c).picOrderCnt = 0) ∧
      (h.sequenceParameterSet.picOrderCntType ≠ 0 →
        Standard.frameNumOffset h c + h.frameNum < 2 ^ 32))
    ⟨fun h => ⟨h.1, h.2.1, h.2.2⟩, fun h => ⟨h.derived, h.clear, h.offset⟩⟩

/-- A reference frame of the short sequence. -/
def shortFrame (idr : Bool) (frameNum lsb : Fin 16) (bottom : ℤ) (mmc : List Mmc) : SliceHeader where
  sequenceParameterSet := shortSequence
  idr := idr
  reference := true
  frameNum := frameNum
  fieldPicFlag := false
  bottomFieldFlag := false
  picOrderCntLsb := lsb
  deltaPicOrderCntBottom := bottom
  deltaPicOrderCnt := (0, 0)
  decRefPicMarking := ⟨false, !mmc.isEmpty, mmc⟩
  frameNum_lt := frameNum.isLt
  picOrderCntLsb_lt := lsb.isLt

/-- The same with numbers that are taken modulo 16. -/
def shortPicture (idr : Bool) (frameNum lsb : ℕ) (mmc : List Mmc) : SliceHeader :=
  shortFrame idr (Fin.ofNat 16 frameNum) (Fin.ofNat 16 lsb) 0 mmc

/-- The variables of a new parser. -/
def OrderState.initial : OrderState where
  prevPicOrderCntMsb := 0
  prevPicOrderCntLsb := 0
  prevFrameNum := 0
  prevFrameNumOffset := 0
  lastExitPicOrderCntMsb := 0
  picOrderCntOffset := 0x100000000
  picOrderCntOffsetAdjust := 0x100000000
  baseDpbValue := 0
  displayOrderByDpbValues := false

/-- An IDR frame whose bottom field comes first: the unsigned minimum is not the negative count. -/
theorem not_picOrderCnts_agree_bottom_first :
    ¬ CountsAgree OrderState.initial ⟨0, 0, 0, 0⟩ [(shortFrame true 0 0 (-1) [], 0)] := by
  intro h
  obtain ⟨hfirst, -⟩ := List.forall₂_cons.mp h
  have hcount := hfirst.picOrderCnt
  revert hcount
  decide +kernel

/-- An operation 5 resets the counts, and the lsb wraps. -/
def wrappingPictures : List (SliceHeader × Word) :=
  [(shortFrame false 1 1 (-1) [.clear], 0), (shortFrame false 1 9 1 [], 0),
    (shortFrame false 2 1 1 [], 0)]

theorem picOrderCnts_agree_wrapping :
    CountsAgree OrderState.initial ⟨0, 0, 0, 0⟩ ((shortFrame true 0 0 1 [], 0) :: wrappingPictures) := by
  refine picOrderCnts_agree OrderState.initial ⟨0, 0, 0, 0⟩ rfl ?_ ?_
  · unfold Continues
    decide
  · decide +kernel

end Player2.H264

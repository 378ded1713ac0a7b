import Mathlib.Algebra.Order.Ring.Nat
import Mathlib.Data.List.Basic
import Mathlib.Data.Nat.Notation
import Mathlib.Data.Int.Notation

/-! # Slice headers of H.264 pictures

The fields of the sequence parameter set and of the slice header that the order counts and the
reference marking of `FrameParser_VideoH264_c` read.  The bounds are what the parser asserts of a
sequence parameter set and the number of bits it reads of a slice header. -/

namespace Player2.H264

/-- `unsigned int` and `int`. -/
abbrev Word := BitVec 32

/-- `H264SequenceParameterSetHeader_t`, as far as it is read. -/
structure SequenceParameterSet where
  log2MaxFrameNumMinus4 : ℕ
  picOrderCntType : ℕ
  log2MaxPicOrderCntLsbMinus4 : ℕ
  offsetForNonRefPic : ℤ
  offsetForTopToBottomField : ℤ
  offsetForRefFrame : List ℤ
  numRefFrames : ℕ
  log2MaxFrameNumMinus4_le : log2MaxFrameNumMinus4 ≤ 12
  picOrderCntType_le : picOrderCntType ≤ 2
  log2MaxPicOrderCntLsbMinus4_le : log2MaxPicOrderCntLsbMinus4 ≤ 12
  offsetForRefFrame_length_le : offsetForRefFrame.length ≤ 255
  numRefFrames_le : numRefFrames ≤ 16

def SequenceParameterSet.maxFrameNum (sps : SequenceParameterSet) : ℕ :=
  2 ^ (sps.log2MaxFrameNumMinus4 + 4)

def SequenceParameterSet.maxPicOrderCntLsb (sps : SequenceParameterSet) : ℕ :=
  2 ^ (sps.log2MaxPicOrderCntLsbMinus4 + 4)

/-- A memory management control operation with its operands. -/
inductive Mmc
  | markShortTermUnusedForReference (differenceOfPicNumsMinus1 : ℕ)
  | markLongTermUnusedForReference (longTermPicNum : ℕ)
  | assignLongTermIndexToShortTermPicture (differenceOfPicNumsMinus1 longTermFrameIdx : ℕ)
  | specifyMaxLongTermIndex (maxLongTermFrameIdxPlus1 : ℕ)
  | clear
  | assignLongTermIndexToCurrentDecodedPicture (longTermFrameIdx : ℕ)
deriving DecidableEq, Repr

/-- `H264DecRefPicMarking_t`: the operations up to `H264_MMC_END`, if the mode is adaptive. -/
structure DecRefPicMarking where
  longTermReferenceFlag : Bool
  adaptiveRefPicMarkingModeFlag : Bool
  memoryManagementControlOperation : List Mmc
deriving DecidableEq, Repr

/-- `H264SliceHeader_t` with the nal header, as far as it is read. -/
structure SliceHeader where
  sequenceParameterSet : SequenceParameterSet
  idr : Bool
  reference : Bool
  frameNum : ℕ
  fieldPicFlag : Bool
  bottomFieldFlag : Bool
  picOrderCntLsb : ℕ
  deltaPicOrderCntBottom : ℤ
  deltaPicOrderCnt : ℤ × ℤ
  decRefPicMarking : DecRefPicMarking
  frameNum_lt : frameNum < sequenceParameterSet.maxFrameNum
  picOrderCntLsb_lt : picOrderCntLsb < sequenceParameterSet.maxPicOrderCntLsb

namespace SliceHeader

/-- The picture is a bottom field. -/
def isBottom (h : SliceHeader) : Bool := h.fieldPicFlag && h.bottomFieldFlag

def memoryControlClearSeen (h : SliceHeader) : Bool :=
  h.reference && h.decRefPicMarking.adaptiveRefPicMarkingModeFlag &&
    h.decRefPicMarking.memoryManagementControlOperation.contains .clear

end SliceHeader

theorem SequenceParameterSet.maxFrameNum_le (sps : SequenceParameterSet) :
    sps.maxFrameNum ≤ 2 ^ 16 :=
  Nat.pow_le_pow_right (by omega) (Nat.add_le_add_right sps.log2MaxFrameNumMinus4_le 4)

theorem SequenceParameterSet.maxPicOrderCntLsb_le (sps : SequenceParameterSet) :
    sps.maxPicOrderCntLsb ≤ 2 ^ 16 :=
  Nat.pow_le_pow_right (by omega) (Nat.add_le_add_right sps.log2MaxPicOrderCntLsbMinus4_le 4)

/-- A sequence of type 0 with 4 bit frame numbers and lsbs. -/
def shortSequence : SequenceParameterSet where
  log2MaxFrameNumMinus4 := 0
  picOrderCntType := 0
  log2MaxPicOrderCntLsbMinus4 := 0
  offsetForNonRefPic := 0
  offsetForTopToBottomField := 0
  offsetForRefFrame := []
  numRefFrames := 2
  log2MaxFrameNumMinus4_le := by decide
  picOrderCntType_le := by decide
  log2MaxPicOrderCntLsbMinus4_le := by decide
  offsetForRefFrame_length_le := by decide
  numRefFrames_le := by decide

end Player2.H264

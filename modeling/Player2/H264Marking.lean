import Mathlib.Data.BitVec
import Mathlib.Logic.Function.Basic
import Player2.H264Slice
import Player2.Run

/-! # Decoded reference picture marking

`MarkReferencePictures` keeps `ReferenceFrames`, the table of the pictures that later ones may be
predicted from.  An entry is a frame; each of its two fields is unused, used for short-term reference
or used for long-term reference (`Usage`).  A picture is entered, as the second field of an entry or
into an unused one, and then other entries are released, by the sliding window or by the memory
management control operations of the slice header.

Only the entries up to `NumReferenceFrames` are looked at.  What the codec is told is recorded in
`events`. -/

namespace Player2.H264

/-! ### Usage codes -/

/-- The usage of the two fields of an entry, a set of codes. -/
abbrev Usage := BitVec 4

def notUsedForReference : Usage := 0
def usedForTopShortTermReference : Usage := 1
def usedForTopLongTermReference : Usage := 2
def usedForBotShortTermReference : Usage := 4
def usedForBotLongTermReference : Usage := 8

def anyUsedForShortTermReference : Usage :=
  usedForTopShortTermReference ||| usedForBotShortTermReference

def anyUsedForLongTermReference : Usage :=
  usedForTopLongTermReference ||| usedForBotLongTermReference

def anyUsedForReference : Usage := anyUsedForShortTermReference ||| anyUsedForLongTermReference

/-- One of the codes is set. -/
def isUsed (usage codes : Usage) : Bool := usage &&& codes != 0

/-! ### Pictures and entries -/

/-- `H264ReferenceFrameData_t`. -/
structure ReferenceFrame where
  decodeFrameIndex : ℕ
  field : Bool
  usage : Usage
  longTermFrameIdx : ℕ
  frameNum : ℕ
  picNum : ℤ
  longTermPicNum : ℕ
  picOrderCnt : Word
  picOrderCntTop : Word
  picOrderCntBot : Word
  extendedPicOrderCnt : ℕ
deriving DecidableEq, Repr

/-- A picture to be marked.  `long_term_reference_flag` is read for an IDR picture only. -/
structure ReferencePicture where
  header : SliceHeader
  decodeFrameIndex : ℕ
  picOrderCnt : Word
  picOrderCntTop : Word
  picOrderCntBot : Word
  extendedPicOrderCnt : ℕ
  idr_of_longTerm : header.decRefPicMarking.longTermReferenceFlag = true → header.idr = true

namespace ReferencePicture

def numReferenceFrames (p : ReferencePicture) : ℕ := p.header.sequenceParameterSet.numRefFrames

/-- The number of entries that are looked at. -/
def entries (p : ReferencePicture) : ℕ := p.numReferenceFrames + 1

def idr (p : ReferencePicture) : Bool := p.header.idr

def frameNum (p : ReferencePicture) : ℕ := p.header.frameNum

def field (p : ReferencePicture) : Bool := p.header.fieldPicFlag

def top (p : ReferencePicture) : Bool := p.field && !p.header.bottomFieldFlag

def longTerm (p : ReferencePicture) : Bool := p.header.decRefPicMarking.longTermReferenceFlag

/-- The codes of the picture itself. -/
def usedForShortTermReference (p : ReferencePicture) : Usage :=
  if p.field then
    if p.top then usedForTopShortTermReference else usedForBotShortTermReference
  else usedForTopShortTermReference ||| usedForBotShortTermReference

def usedForLongTermReference (p : ReferencePicture) : Usage :=
  if p.field then
    if p.top then usedForTopLongTermReference else usedForBotLongTermReference
  else usedForTopLongTermReference ||| usedForBotLongTermReference

/-- The codes of the field of the other parity. -/
def otherFieldUsedForShortTermReference (p : ReferencePicture) : Usage :=
  if p.field then
    if p.top then usedForBotShortTermReference else usedForTopShortTermReference
  else 0

def otherFieldUsedForLongTermReference (p : ReferencePicture) : Usage :=
  if p.field then
    if p.top then usedForBotLongTermReference else usedForTopLongTermReference
  else 0

def fieldUsed (p : ReferencePicture) : Usage :=
  p.usedForShortTermReference ||| p.usedForLongTermReference

def otherFieldUsed (p : ReferencePicture) : Usage :=
  p.otherFieldUsedForShortTermReference ||| p.otherFieldUsedForLongTermReference

/-- `FrameNumWrap` of an entry, seen from the picture. -/
def frameNumWrap (p : ReferencePicture) (frameNum : ℕ) : ℤ :=
  if p.frameNum < frameNum then frameNum - p.header.sequenceParameterSet.maxFrameNum else frameNum

/-- `PicNumX`, on machine words. -/
def picNumX (p : ReferencePicture) (differenceOfPicNumsMinus1 : ℕ) : ℤ :=
  ((if p.field then 2 * (p.frameNum : Word) + 1 else (p.frameNum : Word)) -
    ((differenceOfPicNumsMinus1 : Word) + 1)).toInt

/-- The picture is the second field of an entry. -/
def isSecondFieldOf (p : ReferencePicture) (e : ReferenceFrame) : Bool :=
  e.usage != notUsedForReference && e.field && e.frameNum == p.frameNum &&
    e.decodeFrameIndex + 1 == p.decodeFrameIndex

/-- The smaller of two order counts. -/
def minCount (a b : Word) : Word := if a.slt b then a else b

/-- An entry with the picture as its second field. -/
def secondFieldOf (p : ReferencePicture) (e : ReferenceFrame) : ReferenceFrame :=
  let top := if p.top then p.picOrderCntTop else e.picOrderCntTop
  let bot := if p.top then e.picOrderCntBot else p.picOrderCntBot
  { e with
    picOrderCntTop := top
    picOrderCntBot := bot
    picOrderCnt := minCount top bot
    usage := e.usage ||| if p.longTerm then p.usedForLongTermReference
      else p.usedForShortTermReference
    longTermFrameIdx := if p.longTerm then p.frameNum else e.longTermFrameIdx
    frameNum := if p.longTerm then e.frameNum else p.frameNum }

/-- An unused entry with the picture in it. -/
def entryIn (p : ReferencePicture) (e : ReferenceFrame) : ReferenceFrame :=
  { e with
    field := p.field
    decodeFrameIndex := p.decodeFrameIndex
    picOrderCnt := p.picOrderCnt
    picOrderCntTop := p.picOrderCntTop
    picOrderCntBot := p.picOrderCntBot
    extendedPicOrderCnt := p.extendedPicOrderCnt
    frameNum := p.frameNum
    usage := if p.longTerm then p.usedForLongTermReference else p.usedForShortTermReference
    longTermFrameIdx := if p.longTerm then p.frameNum else e.longTermFrameIdx }

end ReferencePicture

/-! ### The table -/

/-- What is done to the outside. -/
inductive MarkingEvent
  | releaseReferenceFrame (decodeFrameIndex : ℕ)
  | processDeferredDFIandPTSUpto (extendedPicOrderCnt : ℕ)
  | releaseAll
deriving DecidableEq, Repr

/-- The fields of the frame parser, and what has been done so far. -/
structure ReferenceTable where
  referenceFrames : ℕ → ReferenceFrame
  numShortTerm : Word
  numLongTerm : Word
  events : List MarkingEvent

/-- `H264_MAX_REFERENCE_FRAMES + 1`, the size of the table. -/
def tableSize : ℕ := 17

namespace ReferenceTable

/-- The usage of an entry. -/
def usage (s : ReferenceTable) (i : ℕ) : Usage := (s.referenceFrames i).usage

/-- The first of the entries looked at that meets a condition. -/
def first (p : ReferencePicture) (condition : ℕ → Bool) : Option ℕ :=
  (List.range p.entries).find? condition

/-- Change an entry. -/
def modify (s : ReferenceTable) (i : ℕ) (f : ReferenceFrame → ReferenceFrame) : ReferenceTable :=
  { s with referenceFrames := Function.update s.referenceFrames i (f (s.referenceFrames i)) }

def releaseReference (s : ReferenceTable) (actuallyRelease : Bool) (entry : ℕ)
    (releaseUsage : Usage) : ReferenceTable :=
  let e := s.referenceFrames entry
  let usage := e.usage &&& ~~~releaseUsage
  { referenceFrames := Function.update s.referenceFrames entry { e with usage := usage }
    numShortTerm :=
      if isUsed e.usage anyUsedForShortTermReference && !isUsed usage anyUsedForShortTermReference then
        s.numShortTerm - 1
      else s.numShortTerm
    numLongTerm :=
      if isUsed e.usage anyUsedForLongTermReference && !isUsed usage anyUsedForLongTermReference then
        s.numLongTerm - 1
      else s.numLongTerm
    events := s.events ++
      if usage = notUsedForReference ∧ actuallyRelease = true then
        [.releaseReferenceFrame e.decodeFrameIndex,
          .processDeferredDFIandPTSUpto e.extendedPicOrderCnt]
      else [] }

/-! ### Entering the picture -/

/-- Add a second field to an entry; its own buffer is released at once. -/
def addSecondField (s : ReferenceTable) (actuallyRelease : Bool) (p : ReferencePicture) (i : ℕ) :
    ReferenceTable :=
  let e := p.secondFieldOf (s.referenceFrames i)
  { referenceFrames := Function.update s.referenceFrames i e
    numShortTerm :=
      if !p.longTerm && !isUsed e.usage p.otherFieldUsedForShortTermReference then
        s.numShortTerm + 1
      else s.numShortTerm
    numLongTerm :=
      if p.longTerm && !isUsed e.usage p.otherFieldUsedForLongTermReference then s.numLongTerm + 1
      else s.numLongTerm
    events := s.events ++
      if actuallyRelease then [.releaseReferenceFrame p.decodeFrameIndex] else [] }

/-- The loop that looks for the first field of a second one. -/
structure SecondFieldSearch where
  table : ReferenceTable
  currentEntry : Option ℕ
  failed : Bool

/-- Look at one entry. -/
def lookAt (actuallyRelease : Bool) (p : ReferencePicture) (r : SecondFieldSearch) (i : ℕ) :
    SecondFieldSearch :=
  let e := r.table.referenceFrames i
  if r.failed || !p.isSecondFieldOf e then r
  else if isUsed e.usage p.fieldUsed || !isUsed e.usage p.otherFieldUsed then
    { r with failed := true }
  else ⟨r.table.addSecondField actuallyRelease p i, some i, false⟩

/-- Enter a field of a frame that is in the table. -/
def enterSecondField (s : ReferenceTable) (actuallyRelease : Bool) (p : ReferencePicture) :
    SecondFieldSearch :=
  if p.field then (List.range p.entries).foldl (lookAt actuallyRelease p) ⟨s, none, false⟩
  else ⟨s, none, false⟩

/-- Release everyone. -/
def releaseEveryone (s : ReferenceTable) (actuallyRelease : Bool) (p : ReferencePicture) :
    ReferenceTable where
  referenceFrames i :=
    if i < p.entries then { s.referenceFrames i with usage := notUsedForReference }
    else s.referenceFrames i
  numShortTerm := 0
  numLongTerm := 0
  events := s.events ++
    if actuallyRelease then
      ((List.range p.entries).filter fun i => s.usage i != notUsedForReference).map fun i =>
        .releaseReferenceFrame (s.referenceFrames i).decodeFrameIndex
    else []

/-- Put the picture into an entry. -/
def put (s : ReferenceTable) (p : ReferencePicture) (i : ℕ) : ReferenceTable :=
  { s.modify i p.entryIn with
    numShortTerm := if p.longTerm then s.numShortTerm else s.numShortTerm + 1
    numLongTerm := if p.longTerm then s.numLongTerm + 1 else s.numLongTerm }

/-- Insert the current frame into an unused entry; without one `CurrentEntry` stays `0`. -/
def insertCurrent (s : ReferenceTable) (p : ReferencePicture) : ReferenceTable × ℕ :=
  match first p fun i => s.usage i == notUsedForReference with
  | none => (s, 0)
  | some i => (s.put p i, i)

/-! ### The sliding window -/

/-- The lowest `FrameNumWrap` so far and its entry. -/
def lower (s : ReferenceTable) (p : ReferencePicture) (currentEntry : ℕ) (r : ℤ × ℕ) (i : ℕ) :
    ℤ × ℕ :=
  if i ≠ currentEntry ∧ isUsed (s.usage i) anyUsedForShortTermReference = true ∧
      p.frameNumWrap (s.referenceFrames i).frameNum < r.1 then
    (p.frameNumWrap (s.referenceFrames i).frameNum, i)
  else r

/-- The entry that falls out of the window. -/
def oldestShortTerm (s : ReferenceTable) (p : ReferencePicture) (currentEntry : ℕ) : ℕ :=
  ((List.range p.entries).foldl (s.lower p currentEntry) (0x7fffffff, 0)).2

/-- There are more reference frames than allowed. -/
def isOverfull (s : ReferenceTable) (p : ReferencePicture) : Bool :=
  p.numReferenceFrames < (s.numLongTerm + s.numShortTerm).toNat

/-- The sliding window decoded reference picture marking process. -/
def slide (s : ReferenceTable) (actuallyRelease : Bool) (p : ReferencePicture) (currentEntry : ℕ) :
    ReferenceTable :=
  if s.isOverfull p then
    s.releaseReference actuallyRelease (s.oldestShortTerm p currentEntry)
      anyUsedForShortTermReference
  else s

/-! ### Memory management control operations -/

/-- Calculate the picture numbers of the entries in use. -/
def numberPictures (s : ReferenceTable) (p : ReferencePicture) : ReferenceTable :=
  { s with
    referenceFrames := fun i =>
      let e := s.referenceFrames i
      if i < p.entries ∧ e.usage ≠ notUsedForReference then
        { e with
          picNum := if p.field then 2 * p.frameNumWrap e.frameNum else p.frameNumWrap e.frameNum
          longTermPicNum :=
            if p.field then 2 * e.longTermFrameIdx % 2 ^ 32 else e.longTermFrameIdx }
      else e }

/-- The short-term entry that `PicNumX` is about; in field decoding it is one of the two fields. -/
def shortTermEntry (s : ReferenceTable) (p : ReferencePicture) (picNumX : ℤ) : Option ℕ :=
  first p fun j =>
    isUsed (s.usage j) anyUsedForShortTermReference &&
      ((s.referenceFrames j).picNum == picNumX ||
        p.field && (s.referenceFrames j).picNum + 1 == picNumX)

/-- The long-term entry that `long_term_pic_num` is about. -/
def longTermEntry (s : ReferenceTable) (p : ReferencePicture) (longTermPicNum : ℕ) : Option ℕ :=
  first p fun j =>
    isUsed (s.usage j) anyUsedForLongTermReference &&
      ((s.referenceFrames j).longTermPicNum == longTermPicNum ||
        p.field && (s.referenceFrames j).longTermPicNum + 1 == longTermPicNum)

/-- Release the first entry, other than `except`, that uses a long-term frame index. -/
def releaseIndex (s : ReferenceTable) (actuallyRelease : Bool) (p : ReferencePicture)
    (longTermFrameIdx : ℕ) (except : Option ℕ) : ReferenceTable :=
  match first p fun j =>
      isUsed (s.usage j) anyUsedForLongTermReference &&
        (s.referenceFrames j).longTermFrameIdx == longTermFrameIdx && some j != except with
  | none => s
  | some j => s.releaseReference actuallyRelease j anyUsedForLongTermReference

/-- The short-term codes that an operation on `PicNumX` changes: of a frame, or of the field of the
other parity, which has the even number, or of the same parity. -/
def shortTermCodes (s : ReferenceTable) (p : ReferencePicture) (j : ℕ) (picNumX : ℤ) : Usage :=
  if p.field && (s.referenceFrames j).picNum == picNumX then p.otherFieldUsedForShortTermReference
  else p.usedForShortTermReference

/-- The long-term codes of the same fields. -/
def longTermCodes (s : ReferenceTable) (p : ReferencePicture) (j : ℕ) (picNumX : ℤ) : Usage :=
  if p.field && (s.referenceFrames j).picNum == picNumX then p.otherFieldUsedForLongTermReference
  else p.usedForLongTermReference

/-- Mark a short-term picture as unused. -/
def markShortTermUnused (s : ReferenceTable) (actuallyRelease : Bool) (p : ReferencePicture)
    (differenceOfPicNumsMinus1 : ℕ) : ReferenceTable :=
  let picNumX := p.picNumX differenceOfPicNumsMinus1
  match s.shortTermEntry p picNumX with
  | none => s
  | some j =>
    s.releaseReference actuallyRelease j
      (if p.field then s.shortTermCodes p j picNumX else anyUsedForShortTermReference)

/-- Mark a long-term picture as unused. -/
def markLongTermUnused (s : ReferenceTable) (actuallyRelease : Bool) (p : ReferencePicture)
    (longTermPicNum : ℕ) : ReferenceTable :=
  match s.longTermEntry p longTermPicNum with
  | none => s
  | some j =>
    s.releaseReference actuallyRelease j
      (if p.field then
        if (s.referenceFrames j).longTermPicNum = longTermPicNum then
          p.otherFieldUsedForLongTermReference
        else p.usedForLongTermReference
      else anyUsedForLongTermReference)

/-- Toggle the short-term codes of an entry and set the long-term ones. -/
def toLongTerm (e : ReferenceFrame) (longTermFrameIdx : ℕ) (short long : Usage) : ReferenceFrame :=
  { e with
    longTermFrameIdx := longTermFrameIdx
    usage := (e.usage ^^^ short) ||| long }

/-- The assignment of a long-term index to a short-term frame. -/
def assignFrame (s : ReferenceTable) (p : ReferencePicture) (longTermFrameIdx j : ℕ) :
    ReferenceTable :=
  { s.modify j fun e =>
      toLongTerm e longTermFrameIdx p.usedForShortTermReference p.usedForLongTermReference with
    numShortTerm := s.numShortTerm - 1
    numLongTerm := s.numLongTerm + 1 }

/-- The assignment of a long-term index to a short-term field. -/
def assignField (s : ReferenceTable) (p : ReferencePicture) (picNumX : ℤ)
    (longTermFrameIdx j : ℕ) : ReferenceTable :=
  let e := toLongTerm (s.referenceFrames j) longTermFrameIdx (s.shortTermCodes p j picNumX)
    (s.longTermCodes p j picNumX)
  { referenceFrames := Function.update s.referenceFrames j e
    numShortTerm :=
      if isUsed e.usage anyUsedForShortTermReference then s.numShortTerm else s.numShortTerm - 1
    numLongTerm :=
      if e.usage &&& anyUsedForLongTermReference ≠ anyUsedForLongTermReference then s.numLongTerm + 1
      else s.numLongTerm
    events := s.events }

/-- Assign a long-term index to a short-term picture.  In field decoding the entry that uses the index
already is released after the assignment, so that the other field of the picture is kept. -/
def assignToShortTerm (s : ReferenceTable) (actuallyRelease : Bool) (p : ReferencePicture)
    (differenceOfPicNumsMinus1 longTermFrameIdx : ℕ) : ReferenceTable :=
  let picNumX := p.picNumX differenceOfPicNumsMinus1
  if p.field then
    match s.shortTermEntry p picNumX with
    | none => s.releaseIndex actuallyRelease p longTermFrameIdx none
    | some j =>
      (s.assignField p picNumX longTermFrameIdx j).releaseIndex actuallyRelease p
        longTermFrameIdx (some j)
  else
    let t := s.releaseIndex actuallyRelease p longTermFrameIdx none
    match t.shortTermEntry p picNumX with
    | none => t
    | some j => t.assignFrame p longTermFrameIdx j

/-- Release the frames above the maximal long-term index, which is one below the operand, on words. -/
def specifyMaxLongTermIndex (s : ReferenceTable) (actuallyRelease : Bool) (p : ReferencePicture)
    (maxLongTermFrameIdxPlus1 : ℕ) : ReferenceTable :=
  (List.range p.entries).foldl (fun s j =>
    if isUsed (s.usage j) anyUsedForLongTermReference &&
        (maxLongTermFrameIdxPlus1 + (2 ^ 32 - 1)) % 2 ^ 32 < (s.referenceFrames j).longTermFrameIdx then
      s.releaseReference actuallyRelease j anyUsedForLongTermReference
    else s) s

/-- Release every entry but the current one. -/
def releaseOthers (s : ReferenceTable) (actuallyRelease : Bool) (p : ReferencePicture)
    (currentEntry : ℕ) : ReferenceTable :=
  (List.range p.entries).foldl (fun s j =>
    if j ≠ currentEntry then s.releaseReference actuallyRelease j anyUsedForReference else s) s

/-- Release every entry but the current one, and restart the counts from it. -/
def clear (s : ReferenceTable) (actuallyRelease : Bool) (p : ReferencePicture) (currentEntry : ℕ) :
    ReferenceTable :=
  { (s.releaseOthers actuallyRelease p currentEntry).modify currentEntry fun e =>
      { e with
        picOrderCnt := 0
        picOrderCntTop := e.picOrderCntTop - p.picOrderCnt
        picOrderCntBot := e.picOrderCntBot - p.picOrderCnt
        frameNum := 0 } with
    numShortTerm := if p.longTerm then 0 else 1
    numLongTerm := if p.longTerm then 1 else 0 }

/-- The assignment of a long-term index to the current picture. -/
def assignCurrent (s : ReferenceTable) (p : ReferencePicture) (currentEntry longTermFrameIdx : ℕ) :
    ReferenceTable :=
  let e := s.referenceFrames currentEntry
  let usage := (e.usage &&& ~~~p.usedForShortTermReference) ||| p.usedForLongTermReference
  { referenceFrames := Function.update s.referenceFrames currentEntry
      { e with
        longTermFrameIdx := longTermFrameIdx
        usage := usage }
    numShortTerm :=
      if !p.longTerm && !isUsed usage anyUsedForShortTermReference then s.numShortTerm - 1
      else s.numShortTerm
    numLongTerm :=
      if !p.longTerm && (!p.field ||
          usage &&& anyUsedForLongTermReference != anyUsedForLongTermReference) then
        s.numLongTerm + 1
      else s.numLongTerm
    events := s.events }

/-- One operation. -/
def perform (actuallyRelease : Bool) (p : ReferencePicture) (currentEntry : ℕ)
    (s : ReferenceTable) : Mmc → ReferenceTable
  | .markShortTermUnusedForReference differenceOfPicNumsMinus1 =>
    s.markShortTermUnused actuallyRelease p differenceOfPicNumsMinus1
  | .markLongTermUnusedForReference longTermPicNum =>
    s.markLongTermUnused actuallyRelease p longTermPicNum
  | .assignLongTermIndexToShortTermPicture differenceOfPicNumsMinus1 longTermFrameIdx =>
    s.assignToShortTerm actuallyRelease p differenceOfPicNumsMinus1 longTermFrameIdx
  | .specifyMaxLongTermIndex maxLongTermFrameIdxPlus1 =>
    s.specifyMaxLongTermIndex actuallyRelease p maxLongTermFrameIdxPlus1
  | .clear => s.clear actuallyRelease p currentEntry
  | .assignLongTermIndexToCurrentDecodedPicture longTermFrameIdx =>
    (s.releaseIndex actuallyRelease p longTermFrameIdx (some currentEntry)).assignCurrent p
      currentEntry longTermFrameIdx

/-- The operations of the slice header. -/
def performAll (s : ReferenceTable) (actuallyRelease : Bool) (p : ReferencePicture)
    (currentEntry : ℕ) : ReferenceTable :=
  p.header.decRefPicMarking.memoryManagementControlOperation.foldl
    (perform actuallyRelease p currentEntry) (s.numberPictures p)

/-! ### The whole process -/

/-- The entry with the lowest decode index of those looked at. -/
def oldest (s : ReferenceTable) (p : ReferencePicture) : ℕ :=
  ((List.range p.entries).drop 1).foldl (fun i j =>
    if (s.referenceFrames j).decodeFrameIndex < (s.referenceFrames i).decodeFrameIndex then j else i) 0

/-- After the operations the oldest entry is discarded if there are too many, with the codes of the
current one. -/
def discardOldest (s : ReferenceTable) (p : ReferencePicture) (currentEntry : ℕ) : ReferenceTable :=
  if s.isOverfull p then s.releaseReference true (s.oldest p) (s.usage currentEntry) else s

/-- The list management for a picture that is no IDR. -/
def manage (s : ReferenceTable) (actuallyRelease : Bool) (p : ReferencePicture) (currentEntry : ℕ) :
    ReferenceTable :=
  let t :=
    if p.header.decRefPicMarking.adaptiveRefPicMarkingModeFlag then
      s.performAll actuallyRelease p currentEntry
    else s.slide actuallyRelease p currentEntry
  t.discardOldest p currentEntry

/-- Enter the picture; none if it is not a second field that can be entered. -/
def enter (s : ReferenceTable) (actuallyRelease : Bool) (p : ReferencePicture) :
    Option (ReferenceTable × ℕ) :=
  let r := s.enterSecondField actuallyRelease p
  if r.failed then none
  else
    some (r.currentEntry.elim
      ((if p.idr then r.table.releaseEveryone actuallyRelease p else r.table).insertCurrent p)
      fun i => (r.table, i))

/-- `MarkReferencePictures`, with whether it succeeds. -/
def markReferencePictures (s : ReferenceTable) (actuallyRelease : Bool) (p : ReferencePicture) :
    ReferenceTable × Bool :=
  match s.enter actuallyRelease p with
  | none => ((s.enterSecondField actuallyRelease p).table, false)
  | some (t, currentEntry) =>
    (if p.idr then t else t.manage actuallyRelease p currentEntry, true)

def resetReferenceFrameList (s : ReferenceTable) : ReferenceTable :=
  ⟨fun _ => ⟨0, false, notUsedForReference, 0, 0, 0, 0, 0, 0, 0, 0⟩, 0, 0, s.events ++ [.releaseAll]⟩

/-- The table of a new frame parser. -/
def empty : ReferenceTable :=
  ⟨fun _ => ⟨0, false, notUsedForReference, 0, 0, 0, 0, 0, 0, 0, 0⟩, 0, 0, []⟩

end ReferenceTable

/-! ### Runs of calls -/

/-- A call. -/
inductive MarkingCall
  | mark (actuallyReleaseReferenceFrames : Bool) (p : ReferencePicture)
  | reset

/-- Perform a call. -/
def MarkingCall.perform (s : ReferenceTable) : MarkingCall → ReferenceTable
  | .mark actuallyRelease p => (s.markReferencePictures actuallyRelease p).1
  | .reset => s.resetReferenceFrameList

/-- Calls never fail: a picture that cannot be entered leaves its table. -/
def MarkingCall.step (s : ReferenceTable) (call : MarkingCall) : Option ReferenceTable :=
  some (call.perform s)

/-! ### Small pictures -/

/-- A short sequence with some number of reference frames. -/
def smallSequence (numRefFrames : ℕ) : SequenceParameterSet :=
  { shortSequence with
    numRefFrames := min numRefFrames 16
    numRefFrames_le := Nat.min_le_right _ _ }

/-- A picture of such a sequence: an IDR picture if `idr` says whether it is a long-term one, a field if
`top` says which. -/
def smallPicture (numRefFrames decodeFrameIndex : ℕ) (idr : Option Bool) (frameNum lsb : ℕ)
    (top : Option Bool) (mmc : List Mmc) : ReferencePicture where
  header :=
    { sequenceParameterSet := smallSequence numRefFrames
      idr := idr.isSome
      reference := true
      frameNum := frameNum % 16
      fieldPicFlag := top.isSome
      bottomFieldFlag := top == some false
      picOrderCntLsb := lsb % 16
      deltaPicOrderCntBottom := 0
      deltaPicOrderCnt := (0, 0)
      decRefPicMarking := ⟨idr == some true, !mmc.isEmpty, mmc⟩
      frameNum_lt := Nat.mod_lt _ (by decide)
      picOrderCntLsb_lt := Nat.mod_lt _ (by decide) }
  decodeFrameIndex := decodeFrameIndex
  picOrderCnt := (lsb % 16 : ℕ)
  picOrderCntTop := (lsb % 16 : ℕ)
  picOrderCntBot := (lsb % 16 : ℕ)
  extendedPicOrderCnt := 2 ^ 32 + lsb % 16
  idr_of_longTerm h := by rw [beq_iff_eq.mp h]; rfl

/-! ### The codes of a picture -/

/-- The short-term code of a field. -/
def parityShort (top : Bool) : Usage :=
  if top then usedForTopShortTermReference else usedForBotShortTermReference

/-- The long-term code of a field. -/
def parityLong (top : Bool) : Usage :=
  if top then usedForTopLongTermReference else usedForBotLongTermReference

variable {p : ReferencePicture}

theorem ReferencePicture.codes_field (h : p.field = true) :
    p.usedForShortTermReference = parityShort p.top ∧
      p.usedForLongTermReference = parityLong p.top ∧
      p.otherFieldUsedForShortTermReference = parityShort (!p.top) ∧
      p.otherFieldUsedForLongTermReference = parityLong (!p.top) := by
  unfold usedForShortTermReference usedForLongTermReference otherFieldUsedForShortTermReference
    otherFieldUsedForLongTermReference
  rw [h]
  cases p.top <;> exact ⟨rfl, rfl, rfl, rfl⟩

theorem ReferencePicture.codes_frame (h : p.field = false) :
    p.usedForShortTermReference = anyUsedForShortTermReference ∧
      p.usedForLongTermReference = anyUsedForLongTermReference := by
  unfold usedForShortTermReference usedForLongTermReference
  rw [h]
  exact ⟨rfl, rfl⟩

/-! ### The entries -/

theorem ReferencePicture.entries_le (p : ReferencePicture) : p.entries ≤ tableSize :=
  Nat.add_le_add_right p.header.sequenceParameterSet.numRefFrames_le 1

theorem ReferencePicture.entries_pos (p : ReferencePicture) : 0 < p.entries := Nat.succ_pos _

namespace ReferenceTable

variable {p : ReferencePicture}

theorem first_some {condition : ℕ → Bool} {i : ℕ}
    (h : first p condition = some i) : i < p.entries ∧ condition i = true :=
  ⟨List.mem_range.mp (List.mem_of_find?_eq_some h), List.find?_some h⟩

theorem foldl_entries {α : Type*} {I : α → Prop} {f : α → ℕ → α} {a : α}
    (h0 : I a) (hstep : ∀ a i, i < p.entries → I a → I (f a i)) :
    I ((List.range p.entries).foldl f a) :=
  List.foldlRecOn _ f h0 fun a ha i hi => hstep a i (List.mem_range.mp hi) ha

theorem oldestShortTerm_lt (s : ReferenceTable) (p : ReferencePicture) (currentEntry : ℕ) :
    s.oldestShortTerm p currentEntry < p.entries := by
  refine foldl_entries (I := fun r : ℤ × ℕ => r.2 < p.entries) p.entries_pos fun r i hi hr => ?_
  unfold lower
  split
  next => exact hi
  next => exact hr

theorem oldest_lt (s : ReferenceTable) (p : ReferencePicture) : s.oldest p < p.entries := by
  refine List.foldlRecOn _ _ (motive := fun i => i < p.entries) p.entries_pos fun i hi j hj => ?_
  have hlt : j < p.entries := List.mem_range.mp (List.drop_subset _ _ hj)
  split
  next => exact hlt
  next => exact hi

theorem insertCurrent_lt (s : ReferenceTable) (p : ReferencePicture) :
    (s.insertCurrent p).2 < p.entries := by
  unfold insertCurrent
  split
  next => exact p.entries_pos
  next i hi => exact (first_some hi).1

@[simp] theorem releaseReference_usage (s : ReferenceTable) (actuallyRelease : Bool) (i j : ℕ)
    (released : Usage) :
    (s.releaseReference actuallyRelease i released).usage j =
      if j = i then s.usage i &&& ~~~released else s.usage j := by
  unfold usage releaseReference
  dsimp only
  split
  next h => rw [h, Function.update_self]
  next h => rw [Function.update_of_ne h]

theorem releaseReference_frame (s : ReferenceTable) (actuallyRelease : Bool) (i j : ℕ)
    (released : Usage) :
    (s.releaseReference actuallyRelease i released).referenceFrames j =
      { s.referenceFrames j with usage := (s.releaseReference actuallyRelease i released).usage j } := by
  rw [releaseReference_usage]
  unfold releaseReference usage
  dsimp only
  split
  next h => rw [h, Function.update_self]
  next h => rw [Function.update_of_ne h]

theorem shortTermEntry_congr {s t : ReferenceTable}
    (h : ∀ j, isUsed (t.usage j) anyUsedForShortTermReference =
        isUsed (s.usage j) anyUsedForShortTermReference ∧
      (t.referenceFrames j).picNum = (s.referenceFrames j).picNum) (picNumX : ℤ) :
    t.shortTermEntry p picNumX = s.shortTermEntry p picNumX := by
  unfold shortTermEntry
  congr 1
  funext j
  rw [(h j).1, (h j).2]

theorem releaseOthers_usage (s : ReferenceTable) (actuallyRelease : Bool) (p : ReferencePicture)
    (currentEntry j : ℕ) :
    (s.releaseOthers actuallyRelease p currentEntry).usage j =
      if j < p.entries ∧ j ≠ currentEntry then notUsedForReference else s.usage j := by
  have hlist : ∀ (l : List ℕ) (s : ReferenceTable),
      (l.foldl (fun s j => if j ≠ currentEntry then
          s.releaseReference actuallyRelease j anyUsedForReference else s) s).usage j =
        if j ∈ l ∧ j ≠ currentEntry then notUsedForReference else s.usage j := by
    have hzero : ∀ u : Usage, u &&& ~~~anyUsedForReference = notUsedForReference := by decide
    intro l
    induction l with
    | nil => intro s; exact (if_neg fun h => absurd h.1 List.not_mem_nil).symm
    | cons i l ih =>
      intro s
      rw [List.foldl_cons, ih]
      by_cases hi : i = currentEntry
      · rw [if_neg (not_not.mpr hi)]
        refine if_congr ⟨fun h => ⟨.tail _ h.1, h.2⟩, ?_⟩ rfl rfl
        rintro ⟨hmem, hne⟩
        exact ⟨(List.mem_cons.mp hmem).resolve_left fun h => hne (h.trans hi), hne⟩
      · rw [if_pos hi, releaseReference_usage, hzero]
        by_cases hji : j = i
        · have hne : j ≠ currentEntry := fun h => hi (hji.symm.trans h)
          have hmem : j ∈ i :: l ∧ j ≠ currentEntry := ⟨List.mem_cons.mpr (.inl hji), hne⟩
          rw [if_pos hji, if_pos hmem, ite_self]
        · rw [if_neg hji]
          refine if_congr ⟨fun h => ⟨.tail _ h.1, h.2⟩, ?_⟩ rfl rfl
          rintro ⟨hmem, hne⟩
          exact ⟨(List.mem_cons.mp hmem).resolve_left hji, hne⟩
  have hall := hlist (List.range p.entries) s
  simp only [List.mem_range] at hall
  exact hall

/-! ### The search for the first field -/

section search
variable {actuallyRelease : Bool} {p : ReferencePicture}

variable {r : SecondFieldSearch}

theorem lookAt_failed (l : List ℕ) (h : r.failed = true) :
    l.foldl (lookAt actuallyRelease p) r = r := by
  induction l with
  | nil => rfl
  | cons i l ih =>
    have hstay : lookAt actuallyRelease p r i = r := by
      unfold lookAt
      rw [h]
      rfl
    rw [List.foldl_cons, hstay]
    exact ih

theorem lookAt_found (l : List ℕ) (h : r.currentEntry.isSome) :
    (l.foldl (lookAt actuallyRelease p) r).currentEntry.isSome := by
  refine List.foldlRecOn l _ (motive := fun r : SecondFieldSearch => r.currentEntry.isSome)
    h fun r hr i _ => ?_
  unfold lookAt
  dsimp only
  split
  next => exact hr
  next =>
    split
    next => exact hr
    next => rfl

variable {s : ReferenceTable}

theorem lookAt_none (l : List ℕ)
    (hnone : (l.foldl (lookAt actuallyRelease p) ⟨s, none, false⟩).currentEntry = none)
    (hfailed : (l.foldl (lookAt actuallyRelease p) ⟨s, none, false⟩).failed = false) :
    (l.foldl (lookAt actuallyRelease p) ⟨s, none, false⟩).table = s ∧
      ∀ i ∈ l, p.isSecondFieldOf (s.referenceFrames i) = false := by
  induction l with
  | nil => exact ⟨rfl, fun i hi => absurd hi List.not_mem_nil⟩
  | cons i l ih =>
    rw [List.foldl_cons] at hnone hfailed ⊢
    cases hsecond : p.isSecondFieldOf (s.referenceFrames i) with
    | false =>
      have hstay : lookAt actuallyRelease p ⟨s, none, false⟩ i = ⟨s, none, false⟩ := by
        unfold lookAt
        dsimp only
        rw [hsecond]
        rfl
      rw [hstay] at hnone hfailed ⊢
      obtain ⟨htable, hall⟩ := ih hnone hfailed
      exact ⟨htable, List.forall_mem_cons.mpr ⟨hsecond, hall⟩⟩
    | true =>
      cases hbad : isUsed (s.referenceFrames i).usage p.fieldUsed ||
          !isUsed (s.referenceFrames i).usage p.otherFieldUsed with
      | true =>
        have hfail : (lookAt actuallyRelease p ⟨s, none, false⟩ i).failed = true := by
          unfold lookAt
          dsimp only
          rw [hsecond, hbad]
          rfl
        rw [lookAt_failed l hfail, hfail] at hfailed
        cases hfailed
      | false =>
        have hfound : (lookAt actuallyRelease p ⟨s, none, false⟩ i).currentEntry.isSome := by
          unfold lookAt
          dsimp only
          rw [hsecond, hbad]
          rfl
        rw [← Option.not_isSome_iff_eq_none] at hnone
        exact absurd (lookAt_found l hfound) hnone

/-- The entry that the search for the first field finds. -/
def firstField (s : ReferenceTable) (p : ReferencePicture) : Option ℕ :=
  first p fun i => p.field && p.isSecondFieldOf (s.referenceFrames i)

theorem enterSecondField_none (hnone : (s.enterSecondField actuallyRelease p).currentEntry = none)
    (hfailed : (s.enterSecondField actuallyRelease p).failed = false) :
    (s.enterSecondField actuallyRelease p).table = s ∧ s.firstField p = none := by
  unfold ReferenceTable.enterSecondField at hnone hfailed ⊢
  unfold firstField first
  cases hfield : p.field with
  | false =>
    refine ⟨rfl, List.find?_eq_none.mpr fun i _ => ?_⟩
    exact Bool.false_ne_true
  | true =>
    rw [hfield] at hnone hfailed
    obtain ⟨htable, hall⟩ := lookAt_none _ hnone hfailed
    refine ⟨htable, List.find?_eq_none.mpr fun i hi => ?_⟩
    rw [Bool.true_and, hall i hi]
    exact Bool.false_ne_true

theorem enterSecondField_lt {i : ℕ}
    (h : (s.enterSecondField actuallyRelease p).currentEntry = some i) : i < p.entries := by
  have hall : ∀ i, (s.enterSecondField actuallyRelease p).currentEntry = some i → i < p.entries := by
    unfold ReferenceTable.enterSecondField
    split
    next =>
      refine foldl_entries
        (I := fun r : SecondFieldSearch => ∀ i, r.currentEntry = some i → i < p.entries)
        (fun i hi => by cases hi) fun r j hj hr => ?_
      unfold lookAt
      dsimp only
      split
      next => exact hr
      next =>
        split
        next => exact hr
        next =>
          intro i hi
          exact Option.some.inj hi ▸ hj
    next => exact fun i hi => by cases hi
  exact hall i h

/-- What entering a picture does: it becomes the second field of an entry, or it is put into an
unused one, after everyone has been released if it is an IDR picture. -/
theorem enter_cases {s t : ReferenceTable} {currentEntry : ℕ}
    (h : s.enter actuallyRelease p = some (t, currentEntry)) :
    currentEntry < p.entries ∧
      (((s.enterSecondField actuallyRelease p).currentEntry = some currentEntry ∧
          t = (s.enterSecondField actuallyRelease p).table) ∨
        (s.firstField p = none ∧ (t, currentEntry) =
          (if p.idr then s.releaseEveryone actuallyRelease p else s).insertCurrent p)) := by
  unfold enter at h
  dsimp only at h
  split at h
  next => cases h
  next hgood =>
    have hresult := Option.some.inj h
    cases hcurrent : (s.enterSecondField actuallyRelease p).currentEntry with
    | some i =>
      rw [hcurrent] at hresult
      obtain ⟨rfl, rfl⟩ := Prod.mk.inj hresult
      exact ⟨enterSecondField_lt hcurrent, .inl ⟨rfl, rfl⟩⟩
    | none =>
      obtain ⟨htable, hnone⟩ := enterSecondField_none hcurrent (Bool.eq_false_iff.mpr hgood)
      rw [hcurrent, htable] at hresult
      have hlt := insertCurrent_lt
        (if p.idr then s.releaseEveryone actuallyRelease p else s) p
      rw [Option.elim_none] at hresult
      rw [hresult] at hlt
      exact ⟨hlt, .inr ⟨hnone, hresult.symm⟩⟩

end search

end ReferenceTable

end Player2.H264

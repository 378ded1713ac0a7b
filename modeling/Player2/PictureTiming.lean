import Mathlib.Algebra.Order.Ring.Int
import Player2.BitStream

/-! # Picture timing messages

`ReadSeiPictureTimingMessage` reads the delays, the picture structure and up to three clock timestamps, under
conditions that the last sequence parameter set has left in the parser (`TimingContext`).

The messages are written by the syntax of the standard: a time stamp ends with a time offset whenever time
offsets have a length.  The parser looks for one only in a time stamp that is not full, and takes it for an
unsigned number.  A message is recovered exactly when these two do not matter
(`readSeiPictureTimingMessage_recovers`): no time offset is negative, and where time offsets have a length, a
full time stamp has the offset zero and is the last one of the message. -/

namespace Player2

open BitField

namespace PictureTiming

/-! ### What a sequence parameter set leaves -/

/-- The variables that say what a picture timing message has. -/
structure TimingContext where
  cpbDpbDelaysPresentFlag : Bool
  cpbRemovalDelayLength : ℕ
  dpbOutputDelayLength : ℕ
  picStructPresentFlag : Bool
  timeOffsetLength : ℕ
deriving DecidableEq, Repr

namespace TimingContext

/-- `SetDefaultSequenceParameterSet`. -/
def default : TimingContext where
  cpbDpbDelaysPresentFlag := false
  cpbRemovalDelayLength := 0
  dpbOutputDelayLength := 0
  picStructPresentFlag := false
  timeOffsetLength := 0

/-- The lengths are those that fields of five bits allow. -/
structure WellFormed (c : TimingContext) : Prop where
  cpbRemovalDelayLength : c.cpbRemovalDelayLength ≤ 32
  dpbOutputDelayLength : c.dpbOutputDelayLength ≤ 32
  timeOffsetLength : c.timeOffsetLength < 32

theorem wellFormed_default : default.WellFormed := ⟨Nat.zero_le _, Nat.zero_le _, Nat.two_pow_pos 5⟩

end TimingContext

/-- `H264_HRD_MAX_CPB_CNT`. -/
def hrdMaxCpbCnt : ℕ := 8

/-- `H264HrdParameters_t`. -/
structure HrdParameters where
  cpbCntMinus1 : ℕ
  bitRateScale : ℕ
  cpbSizeScale : ℕ
  cpbs : List (ℕ × ℕ × ℕ)
  initialCpbRemovalDelayLengthMinus1 : ℕ
  cpbRemovalDelayLengthMinus1 : ℕ
  cpbOutputDelayLengthMinus1 : ℕ
  timeOffsetLength : ℕ
deriving DecidableEq, Repr

/-- The rates of one coded picture buffer: `bit_rate_value_minus1`, `cpb_size_value_minus1`, `cbr_flag`. -/
def readCpb : BitProgram (ℕ × ℕ × ℕ) := do
  let bitRateValueMinus1 ← BitStream.ue
  let cpbSizeValueMinus1 ← BitStream.ue
  let cbrFlag ← BitProgram.get 1
  pure (bitRateValueMinus1, cpbSizeValueMinus1, cbrFlag)

/-- `ReadHrdParameters`, `none` for `FrameParserError`. -/
def readHrdParameters (c : TimingContext) : BitProgram (Option HrdParameters × TimingContext) := do
  let cpbCntMinus1 ← BitStream.ue
  if cpbCntMinus1 ≥ hrdMaxCpbCnt then pure (none, c)
  else
    let bitRateScale ← BitProgram.get 4
    let cpbSizeScale ← BitProgram.get 4
    let cpbs ← BitProgram.times readCpb (cpbCntMinus1 + 1)
    let initialLength ← BitProgram.get 5
    let removalLength ← BitProgram.get 5
    let outputLength ← BitProgram.get 5
    let offsetLength ← BitProgram.get 5
    pure (some ⟨cpbCntMinus1, bitRateScale, cpbSizeScale, cpbs, initialLength, removalLength, outputLength,
        offsetLength⟩,
      { c with
        cpbDpbDelaysPresentFlag := true
        cpbRemovalDelayLength := removalLength + 1
        dpbOutputDelayLength := outputLength + 1
        timeOffsetLength := offsetLength })

theorem wellFormed_readHrdParameters {c : TimingContext} (hc : c.WellFormed) (b : ℕ → Bool) (p : ℕ) :
    ((readHrdParameters c).run b p).1.2.WellFormed := by
  unfold readHrdParameters
  rw [BitProgram.run_bind]
  split
  · exact hc
  · simp only [BitProgram.run_bind, BitProgram.run_get, BitProgram.run_pure]
    exact ⟨field_lt b _ 5, field_lt b _ 5, field_lt b _ 5⟩

/-! ### Reading a message -/

/-- A clock timestamp, as an element of the arrays of `H264SEIPictureTiming_t`. -/
structure ClockTimestamp where
  clockTimestampFlag : ℕ
  ctType : ℕ
  nuitFieldBasedFlag : ℕ
  countingType : ℕ
  fullTimestampFlag : ℕ
  discontinuityFlag : ℕ
  cntDroppedFlag : ℕ
  nFrames : ℕ
  secondsFlag : ℕ
  secondsValue : ℕ
  minutesFlag : ℕ
  minutesValue : ℕ
  hoursFlag : ℕ
  hoursValue : ℕ
  timeOffset : ℕ
deriving DecidableEq, Repr

/-- The arrays after `memset`. -/
def ClockTimestamp.zero : ClockTimestamp := ⟨0, 0, 0, 0, 0, 0, 0, 0, 0, 0, 0, 0, 0, 0, 0⟩

/-- `H264SEIPictureTiming_t`; the arrays have the first `NumClockTS` elements. -/
structure SEIPictureTiming where
  cpbRemovalDelay : ℕ
  dpbOutputDelay : ℕ
  picStruct : ℕ
  numClockTS : ℕ
  clockTimestamps : List ClockTimestamp
  valid : Bool
deriving DecidableEq, Repr

/-- What a message changes besides. -/
structure Interlacing where
  seenDpbValue : Bool
  forceInterlacedProgressive : Bool
  forcedInterlacedFlag : Bool
deriving DecidableEq, Repr

/-- The time of a full time stamp. -/
def readFullTime (t : ClockTimestamp) : BitProgram ClockTimestamp := do
  let secondsValue ← BitProgram.get 6
  let minutesValue ← BitProgram.get 6
  let hoursValue ← BitProgram.get 5
  pure { t with secondsValue := secondsValue, minutesValue := minutesValue, hoursValue := hoursValue }

/-- The seconds of a time stamp that is not full. -/
def readSeconds (t : ClockTimestamp) : BitProgram ClockTimestamp := do
  let secondsFlag ← BitProgram.get 1
  if secondsFlag ≠ 0 then
    let secondsValue ← BitProgram.get 6
    let minutesFlag ← BitProgram.get 1
    pure { t with secondsFlag := secondsFlag, secondsValue := secondsValue, minutesFlag := minutesFlag }
  else pure { t with secondsFlag := secondsFlag }

/-- The minutes of a time stamp that is not full. -/
def readMinutes (t : ClockTimestamp) : BitProgram ClockTimestamp :=
  if t.minutesFlag ≠ 0 then do
    let minutesValue ← BitProgram.get 6
    let hoursFlag ← BitProgram.get 1
    pure { t with minutesValue := minutesValue, hoursFlag := hoursFlag }
  else pure t

/-- The hours of a time stamp that is not full. -/
def readHours (t : ClockTimestamp) : BitProgram ClockTimestamp :=
  if t.hoursFlag ≠ 0 then do
    let hoursValue ← BitProgram.get 5
    pure { t with hoursValue := hoursValue }
  else pure t

/-- The time offset. -/
def readTimeOffset (c : TimingContext) (t : ClockTimestamp) : BitProgram ClockTimestamp :=
  if c.timeOffsetLength > 0 then do
    let timeOffset ← BitProgram.get c.timeOffsetLength
    pure { t with timeOffset := timeOffset }
  else pure t

/-- The time of a time stamp that is not full. -/
def readPartialTime (c : TimingContext) (t : ClockTimestamp) : BitProgram ClockTimestamp := do
  let t ← readSeconds t
  let t ← readMinutes t
  let t ← readHours t
  readTimeOffset c t

/-- One clock timestamp. -/
def readClockTimestamp (c : TimingContext) : BitProgram ClockTimestamp := do
  let clockTimestampFlag ← BitProgram.get 1
  if clockTimestampFlag ≠ 0 then
    let ctType ← BitProgram.get 2
    let nuitFieldBasedFlag ← BitProgram.get 1
    let countingType ← BitProgram.get 5
    let fullTimestampFlag ← BitProgram.get 1
    let discontinuityFlag ← BitProgram.get 1
    let cntDroppedFlag ← BitProgram.get 1
    let nFrames ← BitProgram.get 8
    let t : ClockTimestamp := { ClockTimestamp.zero with
      clockTimestampFlag := clockTimestampFlag
      ctType := ctType
      nuitFieldBasedFlag := nuitFieldBasedFlag
      countingType := countingType
      fullTimestampFlag := fullTimestampFlag
      discontinuityFlag := discontinuityFlag
      cntDroppedFlag := cntDroppedFlag
      nFrames := nFrames }
    if fullTimestampFlag ≠ 0 then readFullTime t else readPartialTime c t
  else pure { ClockTimestamp.zero with clockTimestampFlag := clockTimestampFlag }

/-- A time stamp that is there forces the interlacing, by its `ct_type`. -/
def Interlacing.force (i : Interlacing) (t : ClockTimestamp) : Interlacing :=
  if t.clockTimestampFlag = 0 then i
  else if t.ctType = 0 then { i with forceInterlacedProgressive := true, forcedInterlacedFlag := false }
  else if t.ctType = 1 then { i with forceInterlacedProgressive := true, forcedInterlacedFlag := true }
  else i

/-- The loop over the clock timestamps. -/
def readClockTimestamps (c : TimingContext) :
    ℕ → Interlacing → BitProgram (List ClockTimestamp × Interlacing)
  | 0, i => pure ([], i)
  | n + 1, i => do
      let t ← readClockTimestamp c
      let r ← readClockTimestamps c n (i.force t)
      pure (t :: r.1, r.2)

/-- `NumClockTS`, `none` for an invalid `pic_struct`. -/
def numClockTS (picStruct : ℕ) : Option ℕ :=
  match picStruct with
  | 0 | 1 | 2 => some 1
  | 3 | 4 | 7 => some 2
  | 5 | 6 | 8 => some 3
  | 12 => some 2
  | _ => none

/-- The delays. -/
def readDelays (c : TimingContext) : BitProgram (ℕ × ℕ) :=
  if c.cpbDpbDelaysPresentFlag then do
    let cpbRemovalDelay ← BitProgram.get c.cpbRemovalDelayLength
    let dpbOutputDelay ← BitProgram.get c.dpbOutputDelayLength
    pure (cpbRemovalDelay, dpbOutputDelay)
  else pure (0, 0)

/-- The picture structure and its clock timestamps; the flag says whether there was no syntax error. -/
def readPicStruct (c : TimingContext) (timing : SEIPictureTiming) (i : Interlacing) :
    BitProgram (Bool × SEIPictureTiming × Interlacing) := do
  let picStruct ← BitProgram.get 4
  match numClockTS picStruct with
  | none => pure (false, { timing with picStruct := picStruct }, i)
  | some n =>
    let r ← readClockTimestamps c n i
    pure (true, { timing with
      picStruct := picStruct, numClockTS := n, clockTimestamps := r.1, valid := true }, r.2)

/-- `ReadSeiPictureTimingMessage`; the flag says whether there was no syntax error. -/
def readSeiPictureTimingMessage (c : TimingContext) (i : Interlacing) :
    BitProgram (Bool × SEIPictureTiming × Interlacing) := do
  let delays ← readDelays c
  let i := { i with
    forceInterlacedProgressive := false
    seenDpbValue := i.seenDpbValue || c.cpbDpbDelaysPresentFlag }
  let timing : SEIPictureTiming := ⟨delays.1, delays.2, 0, 0, [], false⟩
  if c.picStructPresentFlag then readPicStruct c timing i
  else pure (true, { timing with valid := true }, i)

/-! ### Writing a message -/

/-- The time of a time stamp: full, or as far as it goes. -/
inductive TimeSyntax
  | full (seconds minutes : Fin 64) (hours : Fin 32)
  | none
  | seconds (seconds : Fin 64)
  | minutes (seconds minutes : Fin 64)
  | hours (seconds minutes : Fin 64) (hours : Fin 32)
deriving DecidableEq, Repr

/-- `full_timestamp_flag`. -/
def TimeSyntax.isFull : TimeSyntax → Bool
  | full .. => true
  | _ => false

/-- A clock timestamp that is there; the offset is zero where time offsets have no length. -/
structure TimestampSyntax where
  ctType : Fin 4
  nuitFieldBasedFlag : Bool
  countingType : Fin 32
  discontinuityFlag : Bool
  cntDroppedFlag : Bool
  nFrames : Fin 256
  time : TimeSyntax
  timeOffset : ℤ
deriving DecidableEq, Repr

/-- A picture timing message, for the settings of a sequence parameter set. -/
structure Message (c : TimingContext) where
  cpbRemovalDelay : ℕ
  dpbOutputDelay : ℕ
  picStruct : Fin 9
  timestamps : List (Option TimestampSyntax)
  cpbRemovalDelay_lt : cpbRemovalDelay < 2 ^ c.cpbRemovalDelayLength
  dpbOutputDelay_lt : dpbOutputDelay < 2 ^ c.dpbOutputDelayLength
  numClockTS_eq : numClockTS picStruct = some timestamps.length
  timeOffset_range : ∀ t, some t ∈ timestamps →
    -(2 ^ c.timeOffsetLength : ℤ) ≤ 2 * t.timeOffset ∧ 2 * t.timeOffset < 2 ^ c.timeOffsetLength

/-- The fields of a time. -/
def TimeSyntax.fields : TimeSyntax → List (ℕ × ℕ)
  | full s m h => [(6, s), (6, m), (5, h)]
  | none => [(1, 0)]
  | seconds s => [(1, 1), (6, s), (1, 0)]
  | minutes s m => [(1, 1), (6, s), (1, 1), (6, m), (1, 0)]
  | hours s m h => [(1, 1), (6, s), (1, 1), (6, m), (1, 1), (5, h)]

/-- The bits of a time offset, as a number. -/
def offsetBits (length : ℕ) (timeOffset : ℤ) : ℕ := (timeOffset % 2 ^ length).toNat

/-- The fields of a time stamp, but for its time offset. -/
def TimestampSyntax.fields (t : TimestampSyntax) : List (ℕ × ℕ) :=
  [(1, 1), (2, t.ctType.val), (1, t.nuitFieldBasedFlag.toNat), (5, t.countingType.val),
    (1, t.time.isFull.toNat), (1, t.discontinuityFlag.toNat), (1, t.cntDroppedFlag.toNat),
    (8, t.nFrames.val)] ++ t.time.fields

/-- The time offset of a time stamp, where time offsets have a length. -/
def offsetFields (c : TimingContext) (t : TimestampSyntax) : List (ℕ × ℕ) :=
  if c.timeOffsetLength > 0 then [(c.timeOffsetLength, offsetBits c.timeOffsetLength t.timeOffset)] else []

/-- The fields of a clock timestamp. -/
def timestampFields (c : TimingContext) : Option TimestampSyntax → List (ℕ × ℕ)
  | none => [(1, 0)]
  | some t => t.fields ++ offsetFields c t

/-- The bits of a message. -/
def Message.bits {c : TimingContext} (m : Message c) : List Bool :=
  spell ((if c.cpbDpbDelaysPresentFlag then
      [(c.cpbRemovalDelayLength, m.cpbRemovalDelay), (c.dpbOutputDelayLength, m.dpbOutputDelay)]
    else []) ++
    if c.picStructPresentFlag then (4, m.picStruct.val) :: m.timestamps.flatMap (timestampFields c) else [])

/-! ### What is to be recovered -/

/-- The time of a time stamp, in the fields of the parser. -/
def TimeSyntax.record (t : ClockTimestamp) : TimeSyntax → ClockTimestamp
  | full s m h => { t with fullTimestampFlag := 1, secondsValue := s, minutesValue := m, hoursValue := h }
  | none => t
  | seconds s => { t with secondsFlag := 1, secondsValue := s, minutesFlag := 0 }
  | minutes s m => { t with
      secondsFlag := 1, secondsValue := s, minutesFlag := 1, minutesValue := m, hoursFlag := 0 }
  | hours s m h => { t with
      secondsFlag := 1, secondsValue := s, minutesFlag := 1, minutesValue := m, hoursFlag := 1,
      hoursValue := h }

/-- A clock timestamp, in the fields of the parser, with a value for the time offset. -/
def TimestampSyntax.record (t : TimestampSyntax) (timeOffset : ℕ) : ClockTimestamp :=
  t.time.record { ClockTimestamp.zero with
    clockTimestampFlag := 1
    ctType := t.ctType
    nuitFieldBasedFlag := t.nuitFieldBasedFlag.toNat
    countingType := t.countingType
    discontinuityFlag := t.discontinuityFlag.toNat
    cntDroppedFlag := t.cntDroppedFlag.toNat
    nFrames := t.nFrames
    timeOffset := timeOffset }

/-- A clock timestamp as it is to be recovered: the time offset is a 32-bit word. -/
def encoded : Option TimestampSyntax → ClockTimestamp
  | none => ClockTimestamp.zero
  | some t => t.record (offsetBits 32 t.timeOffset)

/-- A message as it is to be recovered. -/
def Message.encoded {c : TimingContext} (m : Message c) : SEIPictureTiming where
  cpbRemovalDelay := if c.cpbDpbDelaysPresentFlag then m.cpbRemovalDelay else 0
  dpbOutputDelay := if c.cpbDpbDelaysPresentFlag then m.dpbOutputDelay else 0
  picStruct := if c.picStructPresentFlag then m.picStruct.val else 0
  numClockTS := if c.picStructPresentFlag then m.timestamps.length else 0
  clockTimestamps := if c.picStructPresentFlag then m.timestamps.map PictureTiming.encoded else []
  valid := true

/-- The clock timestamps that are recovered: no offset is negative, and where time offsets have a length, a
full time stamp has the offset zero and no other time stamp after it. -/
def Recoverable (c : TimingContext) : List (Option TimestampSyntax) → Prop
  | [] => True
  | none :: l => Recoverable c l
  | some t :: l =>
    if t.time.isFull ∧ c.timeOffsetLength > 0 then t.timeOffset = 0 ∧ ∀ u ∈ l, u = none
    else 0 ≤ t.timeOffset ∧ Recoverable c l

instance decidableRecoverable (c : TimingContext) :
    ∀ l : List (Option TimestampSyntax), Decidable (Recoverable c l)
  | [] => isTrue trivial
  | none :: l => decidableRecoverable c l
  | some t :: l =>
    have := decidableRecoverable c l
    inferInstanceAs (Decidable (if t.time.isFull ∧ c.timeOffsetLength > 0 then
      t.timeOffset = 0 ∧ ∀ u ∈ l, u = none else 0 ≤ t.timeOffset ∧ Recoverable c l))

/-! ### One clock timestamp -/

variable {c : TimingContext} {b : ℕ → Bool} {p : ℕ}

/-- What the parser reads of a time stamp that is there. -/
def readFields (c : TimingContext) (t : TimestampSyntax) : List (ℕ × ℕ) :=
  t.fields ++ if t.time.isFull then [] else offsetFields c t

/-- What the parser takes for the time offset. -/
def readOffset (c : TimingContext) (t : TimestampSyntax) : ℕ :=
  if t.time.isFull then 0 else offsetBits c.timeOffsetLength t.timeOffset

theorem offsetBits_lt (n : ℕ) (v : ℤ) : offsetBits n v < 2 ^ n := by
  have hpos : (0 : ℤ) < 2 ^ n := Int.pow_pos (by decide)
  have h := Int.emod_lt_of_pos v hpos
  have h0 := Int.emod_nonneg v (Int.ne_of_gt hpos)
  unfold offsetBits
  rw [Int.toNat_lt h0]
  exact h

theorem reads_fullTime (u : ClockTimestamp) (s m : Fin 64) (h : Fin 32) (hu : u.fullTimestampFlag = 1) :
    BitProgram.Reads 32 (readFullTime u) (spell (TimeSyntax.full s m h).fields)
      ((TimeSyntax.full s m h).record u) := by
  have e : (TimeSyntax.full s m h).record u =
      { u with secondsValue := s, minutesValue := m, hoursValue := h } := by
    unfold TimeSyntax.record
    rw [← hu]
  rw [e]
  refine .get_spell (by decide) s.isLt (.get_spell (by decide) m.isLt (.get_spell (by decide) h.isLt ?_))
  exact .pure _

theorem reads_readSeconds_none (u : ClockTimestamp) (hu : u.secondsFlag = 0) :
    BitProgram.Reads 32 (readSeconds u) (spell [(1, 0)]) u := by
  have e : { u with secondsFlag := 0 } = u := by rw [← hu]
  refine .get_spell (by decide) (by decide) ?_
  rw [if_neg (by decide), e]
  exact .pure _

theorem reads_readSeconds (u : ClockTimestamp) (s : Fin 64) (flag : Fin 2) :
    BitProgram.Reads 32 (readSeconds u) (spell [(1, 1), (6, s), (1, flag)])
      { u with secondsFlag := 1, secondsValue := s, minutesFlag := flag } := by
  refine .get_spell (by decide) (by decide) ?_
  exact .get_spell (by decide) s.isLt (.get_spell (by decide) flag.isLt (.pure _))

theorem reads_readMinutes_none (u : ClockTimestamp) (hu : u.minutesFlag = 0) :
    BitProgram.Reads 32 (readMinutes u) (spell []) u := by
  unfold readMinutes
  rw [if_neg (not_not.mpr hu)]
  exact .pure _

theorem reads_readMinutes (u : ClockTimestamp) (m : Fin 64) (flag : Fin 2) (hu : u.minutesFlag = 1) :
    BitProgram.Reads 32 (readMinutes u) (spell [(6, m), (1, flag)])
      { u with minutesValue := m, hoursFlag := flag } := by
  unfold readMinutes
  rw [if_pos (by rw [hu]; decide)]
  exact .get_spell (by decide) m.isLt (.get_spell (by decide) flag.isLt (.pure _))

theorem reads_readHours_none (u : ClockTimestamp) (hu : u.hoursFlag = 0) :
    BitProgram.Reads 32 (readHours u) (spell []) u := by
  unfold readHours
  rw [if_neg (not_not.mpr hu)]
  exact .pure _

theorem reads_readHours (u : ClockTimestamp) (h : Fin 32) (hu : u.hoursFlag = 1) :
    BitProgram.Reads 32 (readHours u) (spell [(5, h)]) { u with hoursValue := h } := by
  unfold readHours
  rw [if_pos (by rw [hu]; decide)]
  exact .get_spell (by decide) h.isLt (.pure _)

theorem reads_readTimeOffset (hc : c.WellFormed) (t : TimestampSyntax) (u : ClockTimestamp)
    (hu : u.timeOffset = 0) : BitProgram.Reads 32 (readTimeOffset c u) (spell (offsetFields c t))
      { u with timeOffset := offsetBits c.timeOffsetLength t.timeOffset } := by
  unfold readTimeOffset offsetFields
  split
  · exact .get_spell (Nat.le_of_lt hc.timeOffsetLength) (offsetBits_lt _ _) (.pure _)
  next h =>
    have hzero : offsetBits c.timeOffsetLength t.timeOffset = 0 := by
      have hlt := offsetBits_lt c.timeOffsetLength t.timeOffset
      rw [Nat.eq_zero_of_not_pos h] at hlt ⊢
      omega
    have e : { u with timeOffset := 0 } = u := by rw [← hu]
    rw [hzero, e]
    exact .pure _

theorem reads_time (u : ClockTimestamp) (x : TimeSyntax) (f : ClockTimestamp → BitProgram ClockTimestamp)
    {fields : List (ℕ × ℕ)} {v : ClockTimestamp} (hx : x.isFull = false) (hs : u.secondsFlag = 0)
    (hm : u.minutesFlag = 0) (hh : u.hoursFlag = 0)
    (hf : BitProgram.Reads 32 (f (x.record u)) (spell fields) v) :
    BitProgram.Reads 32 (readSeconds u >>= fun t => readMinutes t >>= fun t => readHours t >>= f)
      (spell (x.fields ++ fields)) v := by
  cases x with
  | full s m h => cases hx
  | none =>
    exact (reads_readSeconds_none u hs).bind_spell ((reads_readMinutes_none u hm).bind_spell
      ((reads_readHours_none u hh).bind_spell hf))
  | seconds s =>
    exact (reads_readSeconds u s 0).bind_spell ((reads_readMinutes_none _ rfl).bind_spell
      ((reads_readHours_none _ (by exact hh)).bind_spell hf))
  | minutes s m =>
    exact (reads_readSeconds u s 1).bind_spell ((reads_readMinutes _ m 0 rfl).bind_spell
      ((reads_readHours_none _ rfl).bind_spell hf))
  | hours s m h =>
    exact (reads_readSeconds u s 1).bind_spell ((reads_readMinutes _ m 1 rfl).bind_spell
      ((reads_readHours _ h rfl).bind_spell hf))

theorem TimeSyntax.record_timeOffset (x : TimeSyntax) (u : ClockTimestamp) (timeOffset : ℕ) :
    { x.record u with timeOffset := timeOffset } = x.record { u with timeOffset := timeOffset } := by
  cases x with
  | full s m h => rfl
  | none => rfl
  | seconds s => rfl
  | minutes s m => rfl
  | hours s m h => rfl

theorem TimeSyntax.timeOffset_record (x : TimeSyntax) (u : ClockTimestamp) :
    (x.record u).timeOffset = u.timeOffset := by
  cases x with
  | full s m h => rfl
  | none => rfl
  | seconds s => rfl
  | minutes s m => rfl
  | hours s m h => rfl

theorem TimeSyntax.clockTimestampFlag_record (x : TimeSyntax) (u : ClockTimestamp) :
    (x.record u).clockTimestampFlag = u.clockTimestampFlag := by
  cases x with
  | full s m h => rfl
  | none => rfl
  | seconds s => rfl
  | minutes s m => rfl
  | hours s m h => rfl

theorem reads_timeOffset_record (hc : c.WellFormed) (t : TimestampSyntax) (u : ClockTimestamp)
    (hu : u.timeOffset = 0) :
    BitProgram.Reads 32 (readTimeOffset c (t.time.record u)) (spell (offsetFields c t))
      (t.time.record { u with timeOffset := offsetBits c.timeOffsetLength t.timeOffset }) := by
  have h := reads_readTimeOffset hc t (t.time.record u) ((t.time.timeOffset_record u).trans hu)
  rw [TimeSyntax.record_timeOffset] at h
  exact h

theorem toNat_lt_two (x : Bool) : x.toNat < 2 ^ 1 := Nat.lt_succ_of_le (Bool.toNat_le x)

theorem reads_readClockTimestamp (hc : c.WellFormed) (t : TimestampSyntax) :
    BitProgram.Reads 32 (readClockTimestamp c) (spell (readFields c t)) (t.record (readOffset c t)) := by
  refine .get_spell (by decide) (by decide) ?_
  refine .get_spell (by decide) t.ctType.isLt (.get_spell (by decide) (toNat_lt_two _) ?_)
  refine .get_spell (by decide) t.countingType.isLt (.get_spell (by decide) (toNat_lt_two _) ?_)
  refine .get_spell (by decide) (toNat_lt_two _) (.get_spell (by decide) (toNat_lt_two _) ?_)
  refine .get_spell (by decide) t.nFrames.isLt ?_
  change BitProgram.Reads 32 _ (spell (t.time.fields ++ _)) _
  unfold readOffset
  cases hx : t.time.isFull with
  | true =>
    cases ht : t.time with
    | full s m h =>
      unfold TimestampSyntax.record
      rw [ht]
      exact reads_fullTime _ s m h rfl
    | none =>
      rw [ht] at hx
      cases hx
    | seconds s =>
      rw [ht] at hx
      cases hx
    | minutes s m =>
      rw [ht] at hx
      cases hx
    | hours s m h =>
      rw [ht] at hx
      cases hx
  | false =>
    refine reads_time _ t.time (readTimeOffset c) hx rfl rfl rfl ?_
    exact reads_timeOffset_record hc t _ rfl

theorem reads_readClockTimestamp_none (c : TimingContext) :
    BitProgram.Reads 32 (readClockTimestamp c) (spell [(1, 0)]) ClockTimestamp.zero := by
  refine .get_spell (by decide) (by decide) ?_
  exact .pure _

/-! ### All clock timestamps -/

theorem TimeSyntax.record_inj (x : TimeSyntax) {u u' : ClockTimestamp} :
    x.record u = x.record u' → u.timeOffset = u'.timeOffset := by
  intro h
  rw [← x.timeOffset_record u, h, x.timeOffset_record u']

theorem TimestampSyntax.record_eq_iff (t : TimestampSyntax) {m n : ℕ} :
    t.record m = t.record n ↔ m = n :=
  ⟨fun h => t.time.record_inj h, fun h => h ▸ rfl⟩

theorem offsetBits_eq_iff {n : ℕ} (hn : n < 32) {v : ℤ} (hv : -(2 ^ n : ℤ) ≤ 2 * v ∧ 2 * v < 2 ^ n) :
    offsetBits n v = offsetBits 32 v ↔ 0 ≤ v := by
  have hpow : (2 : ℤ) ^ n ≤ 2 ^ 31 := pow_le_pow_right₀ (by decide) (by omega)
  have hpos : (0 : ℤ) < 2 ^ n := Int.pow_pos (by decide)
  unfold offsetBits
  rcases Int.lt_or_le v 0 with h | h
  · have e1 : v % 2 ^ n = v + 2 ^ n := by
      rw [← Int.add_emod_right]
      exact Int.emod_eq_of_lt (by omega) (by omega)
    have e2 : v % 2 ^ 32 = v + 2 ^ 32 := by
      rw [← Int.add_emod_right]
      exact Int.emod_eq_of_lt (by omega) (by omega)
    omega
  · have e1 : v % 2 ^ n = v := Int.emod_eq_of_lt h (by omega)
    have e2 : v % 2 ^ 32 = v := Int.emod_eq_of_lt h (by omega)
    omega

theorem zero_eq_offsetBits_iff {n : ℕ} (hn : n < 32) {v : ℤ}
    (hv : -(2 ^ n : ℤ) ≤ 2 * v ∧ 2 * v < 2 ^ n) : 0 = offsetBits 32 v ↔ v = 0 := by
  have hpow : (2 : ℤ) ^ n ≤ 2 ^ 31 := pow_le_pow_right₀ (by decide) (by omega)
  unfold offsetBits
  omega

theorem run_readClockTimestamps_succ (n : ℕ) (i : Interlacing) :
    ((readClockTimestamps c (n + 1) i).run b p).1.1 =
      ((readClockTimestamp c).run b p).1 ::
        ((readClockTimestamps c n (i.force ((readClockTimestamp c).run b p).1)).run b
          ((readClockTimestamp c).run b p).2).1.1 := by
  rw [readClockTimestamps, BitProgram.run_bind, BitProgram.run_bind, BitProgram.run_pure]

theorem spells_readFields {t : TimestampSyntax} (h : Spells b p (spell (timestampFields c (some t)))) :
    Spells b p (spell (readFields c t)) := by
  unfold readFields
  unfold timestampFields at h
  rw [spell_append] at h ⊢
  split
  · rw [spells_append] at h
    rw [spell, List.append_nil]
    exact h.1
  · exact h

theorem readFields_eq {t : TimestampSyntax} (h : ¬(t.time.isFull = true ∧ c.timeOffsetLength > 0)) :
    readFields c t = timestampFields c (some t) ∧
      readOffset c t = offsetBits c.timeOffsetLength t.timeOffset := by
  unfold readFields readOffset timestampFields
  split
  next hfull =>
    have hzero : c.timeOffsetLength = 0 := Nat.eq_zero_of_not_pos fun hpos => h ⟨hfull, hpos⟩
    have hlt := offsetBits_lt c.timeOffsetLength t.timeOffset
    unfold offsetFields
    rw [hzero] at hlt ⊢
    exact ⟨rfl, by omega⟩
  · exact ⟨rfl, rfl⟩

theorem encoded_ne_zero (t : TimestampSyntax) : ClockTimestamp.zero ≠ encoded (some t) := by
  intro h
  have hflag : (encoded (some t)).clockTimestampFlag = 1 := t.time.clockTimestampFlag_record _
  rw [← h] at hflag
  exact absurd hflag (by decide)

theorem zeros_recovered_iff (l : List (Option TimestampSyntax)) (n : ℕ) (i : Interlacing)
    (h : Spells b p (List.replicate (n + 1) false ++ spell (l.flatMap (timestampFields c)))) :
    ((readClockTimestamps c l.length i).run b p).1.1 = l.map encoded ↔ ∀ u ∈ l, u = none := by
  induction l generalizing p i with
  | nil => exact iff_of_true rfl fun u hu => absurd hu List.not_mem_nil
  | cons u l ih =>
    obtain ⟨hb, hrest⟩ := h
    have hread := (reads_readClockTimestamp_none c b p ⟨hb, trivial⟩).1
    rw [List.length_cons, run_readClockTimestamps_succ, hread, List.map_cons, List.cons.injEq,
      List.forall_mem_cons]
    cases u with
    | some t => exact iff_of_false (fun e => encoded_ne_zero t e.1) fun e => nomatch e.1
    | none =>
      -- the bit of the time stamp that is not there is one more zero
      have hzeros : Spells b (p + 1)
          (List.replicate (n + 1) false ++ spell (l.flatMap (timestampFields c))) := by
        have e : List.replicate n false ++ spell ((none :: l).flatMap (timestampFields c)) =
            List.replicate (n + 1) false ++ spell (l.flatMap (timestampFields c)) := by
          rw [List.replicate_succ', List.append_assoc]
          rfl
        exact e ▸ hrest
      exact and_congr (iff_of_true rfl rfl) (ih _ hzeros)

/-- The clock timestamps that follow each other are recovered when that is so of each, and nothing is left
over between them. -/
theorem timestamps_recovered_iff (hc : c.WellFormed) (l : List (Option TimestampSyntax)) (i : Interlacing)
    (hrange : ∀ t, some t ∈ l →
      -(2 ^ c.timeOffsetLength : ℤ) ≤ 2 * t.timeOffset ∧ 2 * t.timeOffset < 2 ^ c.timeOffsetLength)
    (h : Spells b p (spell (l.flatMap (timestampFields c)))) :
    ((readClockTimestamps c l.length i).run b p).1.1 = l.map encoded ↔ Recoverable c l := by
  induction l generalizing p i with
  | nil => exact iff_of_true rfl trivial
  | cons u l ih =>
    have hrange' := fun t ht => hrange t (List.mem_cons_of_mem u ht)
    rw [List.flatMap_cons, spell_append] at h
    obtain ⟨hu, hl⟩ := spells_append.mp h
    rw [List.length_cons, run_readClockTimestamps_succ, List.map_cons, List.cons.injEq]
    cases u with
    | none =>
      rw [(reads_readClockTimestamp_none c b p hu).1]
      have hrest := ih i hrange' hl
      exact ⟨fun e => hrest.mp e.2, fun e => ⟨rfl, hrest.mpr e⟩⟩
    | some t =>
      have ht := hrange t List.mem_cons_self
      obtain ⟨hread, _⟩ := reads_readClockTimestamp hc t b p (spells_readFields hu)
      rw [hread]
      unfold Recoverable
      split
      next hfull =>
        -- the offset is left, and read for the flags of the time stamps that follow
        have efields : readFields c t = t.fields := by
          unfold readFields
          rw [if_pos hfull.1, List.append_nil]
        have eoffset : readOffset c t = 0 := if_pos hfull.1
        have hrest : Spells b (p + (spell t.fields).length)
            (spell (offsetFields c t) ++ spell (l.flatMap (timestampFields c))) := by
          unfold timestampFields at hu hl
          rw [spell_append] at hu hl
          rw [spells_append]
          refine ⟨(spells_append.mp hu).2, ?_⟩
          rw [List.length_append, ← Nat.add_assoc] at hl
          exact hl
        have ehead : t.record 0 = encoded (some t) ↔ t.timeOffset = 0 :=
          t.record_eq_iff.trans (zero_eq_offsetBits_iff hc.timeOffsetLength ht)
        rw [efields, eoffset]
        rw [ehead]
        refine and_congr_right fun hzero => ?_
        obtain ⟨n, hn⟩ := Nat.exists_eq_succ_of_ne_zero (Nat.ne_of_gt hfull.2)
        refine zeros_recovered_iff l n _ ?_
        have ebits : spell (offsetFields c t) = List.replicate (n + 1) false := by
          unfold offsetFields offsetBits
          rw [if_pos hfull.2, hzero, Int.zero_emod, hn]
          exact (List.append_nil _).trans (bitsOf_zero _)
        exact ebits ▸ hrest
      next hpart =>
        obtain ⟨efields, eoffset⟩ := readFields_eq hpart
        rw [efields, eoffset]
        exact and_congr (t.record_eq_iff.trans (offsetBits_eq_iff hc.timeOffsetLength ht))
          (ih _ hrange' hl)

/-! ### Messages -/

theorem small_readPartialTime (hc : c.WellFormed) (u : ClockTimestamp) : (readPartialTime c u).Small 32 := by
  have hseconds : (readSeconds u).Small 32 := by
    refine .bind (BitProgram.small_get (by decide)) fun flag => ?_
    split
    · refine .bind (BitProgram.small_get (by decide)) fun _ => ?_
      exact .bind (BitProgram.small_get (by decide)) fun _ => BitProgram.small_pure _
    · exact BitProgram.small_pure _
  have hminutes : ∀ t, (readMinutes t).Small 32 := by
    intro t
    unfold readMinutes
    split
    · refine .bind (BitProgram.small_get (by decide)) fun _ => ?_
      exact .bind (BitProgram.small_get (by decide)) fun _ => BitProgram.small_pure _
    · exact BitProgram.small_pure _
  have hhours : ∀ t, (readHours t).Small 32 := by
    intro t
    unfold readHours
    split
    · exact .bind (BitProgram.small_get (by decide)) fun _ => BitProgram.small_pure _
    · exact BitProgram.small_pure _
  have hoffset : ∀ t, (readTimeOffset c t).Small 32 := by
    intro t
    unfold readTimeOffset
    split
    · exact .bind (BitProgram.small_get (Nat.le_of_lt hc.timeOffsetLength)) fun _ => BitProgram.small_pure _
    · exact BitProgram.small_pure _
  exact hseconds.bind fun t => (hminutes t).bind fun t => (hhours t).bind hoffset

theorem small_readClockTimestamp (hc : c.WellFormed) : (readClockTimestamp c).Small 32 := by
  refine .bind (BitProgram.small_get (by decide)) fun flag => ?_
  split
  · refine .bind (BitProgram.small_get (by decide)) fun _ => ?_
    refine .bind (BitProgram.small_get (by decide)) fun _ => ?_
    refine .bind (BitProgram.small_get (by decide)) fun _ => ?_
    refine .bind (BitProgram.small_get (by decide)) fun fullFlag => ?_
    refine .bind (BitProgram.small_get (by decide)) fun _ => ?_
    refine .bind (BitProgram.small_get (by decide)) fun _ => ?_
    refine .bind (BitProgram.small_get (by decide)) fun _ => ?_
    split
    · refine .bind (BitProgram.small_get (by decide)) fun _ => ?_
      refine .bind (BitProgram.small_get (by decide)) fun _ => ?_
      exact .bind (BitProgram.small_get (by decide)) fun _ => BitProgram.small_pure _
    · exact small_readPartialTime hc _
  · exact BitProgram.small_pure _

theorem small_readClockTimestamps (hc : c.WellFormed) (n : ℕ) (i : Interlacing) :
    (readClockTimestamps c n i).Small 32 := by
  induction n generalizing i with
  | zero => exact BitProgram.small_pure _
  | succ n ih =>
    refine (small_readClockTimestamp hc).bind fun t => ?_
    exact (ih (i.force t)).bind fun _ => BitProgram.small_pure _

theorem small_readSeiPictureTimingMessage (hc : c.WellFormed) (i : Interlacing) :
    (readSeiPictureTimingMessage c i).Small 32 := by
  have hdelays : (readDelays c).Small 32 := by
    unfold readDelays
    split
    · refine .bind (BitProgram.small_get hc.cpbRemovalDelayLength) fun _ => ?_
      exact .bind (BitProgram.small_get hc.dpbOutputDelayLength) fun _ => BitProgram.small_pure _
    · exact BitProgram.small_pure _
  refine hdelays.bind fun delays => ?_
  split
  · refine .bind (BitProgram.small_get (by decide)) fun picStruct => ?_
    split
    · exact BitProgram.small_pure _
    · exact (small_readClockTimestamps hc _ _).bind fun _ => BitProgram.small_pure _
  · exact BitProgram.small_pure _

/-- The delays that a message has. -/
def delayFields (m : Message c) : List (ℕ × ℕ) :=
  if c.cpbDpbDelaysPresentFlag then
    [(c.cpbRemovalDelayLength, m.cpbRemovalDelay), (c.dpbOutputDelayLength, m.dpbOutputDelay)]
  else []

theorem reads_readDelays (hc : c.WellFormed) (m : Message c) :
    BitProgram.Reads 32 (readDelays c) (spell (delayFields m))
      (m.encoded.cpbRemovalDelay, m.encoded.dpbOutputDelay) := by
  unfold readDelays delayFields Message.encoded
  split
  · exact .get_spell hc.cpbRemovalDelayLength m.cpbRemovalDelay_lt
      (.get_spell hc.dpbOutputDelayLength m.dpbOutputDelay_lt (.pure _))
  · exact .pure _

/-- **Picture timing messages are recovered.**  Where the bit stream stands at a message, the parser reads
what was encoded exactly when no time offset is negative and, where time offsets have a length, a full time
stamp has the offset zero and is the last one. -/
theorem readSeiPictureTimingMessage_recovers (hc : c.WellFormed) (m : Message c) {mem : ℕ → UInt8}
    {s : BitStream} (hs : BitStream.At mem s p) (h : Spells (BitStream.bits mem) p m.bits) (i : Interlacing) :
    (((readSeiPictureTimingMessage c i).runOn (BitStream.stream mem) s).1.1 = true ∧
        ((readSeiPictureTimingMessage c i).runOn (BitStream.stream mem) s).1.2.1 = m.encoded) ↔
      (c.picStructPresentFlag = true → Recoverable c m.timestamps) := by
  have hsmall := (small_readSeiPictureTimingMessage hc i).fits (BitStream.bits mem) p
  rw [(BitStream.runOn_stream _ hs hsmall).1]
  unfold Message.bits at h
  rw [spell_append] at h
  obtain ⟨hdelays, hstruct⟩ := spells_append.mp h
  have erun := (reads_readDelays hc m _ p hdelays).1
  unfold readSeiPictureTimingMessage
  rw [BitProgram.run_bind, erun]
  cases hflag : c.picStructPresentFlag with
  | false =>
    refine iff_of_true ⟨rfl, ?_⟩ fun e => absurd e Bool.false_ne_true
    unfold Message.encoded
    rw [hflag]
    rfl
  | true =>
    rw [hflag, if_pos rfl] at hstruct
    obtain ⟨hpic, htimes⟩ := spells_append.mp hstruct
    have epic : field (BitStream.bits mem) (p + (spell (delayFields m)).length) 4 = m.picStruct.val :=
      field_of_spells hpic (Nat.lt_trans m.picStruct.isLt (show 9 < 2 ^ 4 by decide))
    have htimestamps := timestamps_recovered_iff hc m.timestamps
      { i with forceInterlacedProgressive := false, seenDpbValue := i.seenDpbValue || c.cpbDpbDelaysPresentFlag }
      m.timeOffset_range htimes
    rw [if_pos rfl]
    unfold readPicStruct
    rw [BitProgram.run_bind, BitProgram.run_get, epic]
    rw [m.numClockTS_eq]
    rw [BitProgram.run_bind, BitProgram.run_pure]
    have hrec : ∀ l : List ClockTimestamp,
        (SEIPictureTiming.mk m.encoded.cpbRemovalDelay m.encoded.dpbOutputDelay m.picStruct
          m.timestamps.length l true = m.encoded) ↔ l = m.timestamps.map encoded := by
      intro l
      unfold Message.encoded
      rw [hflag]
      constructor
      · exact fun e => congrArg SEIPictureTiming.clockTimestamps e
      · exact fun e => e ▸ rfl
    rw [← htimestamps]
    exact ⟨fun e _ => (hrec _).mp e.2, fun e => ⟨rfl, (hrec _).mpr (e rfl)⟩⟩

/-- A message for two fields that are given 24 bits for time offsets and no delays, with two time stamps. -/
def twoFields (first second : TimestampSyntax)
    (h : ∀ t ∈ [first, second], -(2 ^ 24 : ℤ) ≤ 2 * t.timeOffset ∧ 2 * t.timeOffset < 2 ^ 24) :
    Message ⟨false, 0, 0, true, 24⟩ where
  cpbRemovalDelay := 0
  dpbOutputDelay := 0
  picStruct := 3
  timestamps := [some first, some second]
  cpbRemovalDelay_lt := Nat.one_pos
  dpbOutputDelay_lt := Nat.one_pos
  numClockTS_eq := rfl
  timeOffset_range := by
    intro t ht
    refine h t ?_
    rcases List.mem_cons.mp ht with e | ht
    · exact Option.some.inj e ▸ List.mem_cons_self
    · exact Option.some.inj (List.mem_singleton.mp ht) ▸ List.mem_cons_of_mem _ (List.mem_singleton.mpr rfl)

/-- Two time stamps that are not full, with their time offsets. -/
theorem readSeiPictureTimingMessage_recovers_twoFields :
    let m := twoFields ⟨0, true, 4, false, false, 12, .hours 56 34 12, 5⟩
      ⟨1, true, 4, false, false, 13, .minutes 56 34, 7⟩ (by decide)
    let mem (a : ℕ) : UInt8 :=
      [57, 32, 12, 241, 138, 192, 0, 0, 91, 32, 13, 241, 136, 0, 0, 14].getD a 0
    let r := (readSeiPictureTimingMessage ⟨false, 0, 0, true, 24⟩ ⟨false, false, false⟩).runOn
      (BitStream.stream mem) (BitStream.setPointer mem 0)
    r.1.1 = true ∧ r.1.2.1 = m.encoded := by
  intro m mem r
  exact (readSeiPictureTimingMessage_recovers ⟨by decide, by decide, by decide⟩ m
    (BitStream.at_setPointer 0) (by decide +kernel) _).mpr fun _ => by decide

/-- Two full time stamps with time offsets: the first offset is not read, and the second time stamp is read
from it. -/
theorem readSeiPictureTimingMessage_full :
    let m := twoFields ⟨0, true, 4, false, false, 12, .full 56 34 12, 5⟩
      ⟨0, true, 4, false, false, 13, .full 56 34 12, 5⟩ (by decide)
    let mem (a : ℕ) : UInt8 :=
      [57, 36, 12, 226, 38, 0, 0, 2, 201, 32, 111, 17, 48, 0, 0, 20].getD a 0
    let r := (readSeiPictureTimingMessage ⟨false, 0, 0, true, 24⟩ ⟨false, false, false⟩).runOn
      (BitStream.stream mem) (BitStream.setPointer mem 0)
    Spells (BitStream.bits mem) 0 m.bits ∧ r.1.2.1 ≠ m.encoded ∧
      (r.1.2.1.clockTimestamps.map ClockTimestamp.clockTimestampFlag) = [1, 0] := by
  decide +kernel

end PictureTiming

end Player2

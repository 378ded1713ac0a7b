import Player2.OutputTimer

/-! # Whole frames are dropped

A frame is decoded in one or more units, of which only the first one is decided on.  Its decision is put on
record if the second test is made and finds the meta data, or does not support the speed (`records`).  From
then on the record is right for the other units, unless one of them meets a speed that is not supported; they
are decided like the first one as long as the policy lets the tests be made, or keeps all of them from being
made (`along_whole`). -/

namespace Player2.OutputTimer

open Lts

/-! ### Sequences of units -/

/-- The output timer, whether the first unit of the frame was dropped, and whether its tests were such that
the decision is on record. -/
structure InFrame where
  timer : OutputTimer
  frameDropped : Bool
  recorded : Bool
deriving DecidableEq, Repr

/-- The state before the first frame. -/
def beforeFrames (timer : OutputTimer) : InFrame := ⟨timer, false, false⟩

/-- The tests of a first unit put its decision on record: the second test can be made, and either of them
obtains the meta data that it needs. -/
def records (configuration : OutputTimerConfiguration) (u : DecodeUnit) : Bool :=
  (!u.window.synchronization || u.window.metaData) && u.decode.synchronization &&
    (unsupported configuration u.decode || u.decode.metaData)

variable {configuration : OutputTimerConfiguration} {s : InFrame} {u : DecodeUnit}

/-- A decode unit is tested. -/
def next (configuration : OutputTimerConfiguration) (s : InFrame) (u : DecodeUnit) : InFrame where
  timer := (s.timer.testForFrameDrop configuration u).1
  frameDropped :=
    if u.parameters.firstParsedParametersForOutputFrame then s.timer.drops configuration u
    else s.frameDropped
  recorded :=
    if u.parameters.firstParsedParametersForOutputFrame then records configuration u else s.recorded

def step (configuration : OutputTimerConfiguration) (s : InFrame) (u : DecodeUnit) : Option InFrame :=
  some (next configuration s u)

/-- A unit that is not the first one of its frame is decided like it. -/
def Whole (configuration : OutputTimerConfiguration) (s : InFrame) (u : DecodeUnit) : Prop :=
  u.parameters.firstParsedParametersForOutputFrame = false →
    s.timer.drops configuration u = s.frameDropped

/-- A later unit, by what its tests read.  Of a frame that was dropped on record, one test is made; of one that
was kept, the tests that are made obtain the meta data and support the speed.  Where no decision was recorded, a
unit is dropped by its own tests, and kept if none is made. -/
def Alike (configuration : OutputTimerConfiguration) (s : InFrame) (u : DecodeUnit) : Prop :=
  u.parameters.firstParsedParametersForOutputFrame = false →
    if s.recorded then
      if s.frameDropped then u.window.synchronization = true ∨ u.decode.synchronization = true
      else (u.window.synchronization = true → u.window.metaData = true) ∧
        (u.decode.synchronization = true →
          unsupported configuration u.decode = false ∧ u.decode.metaData = true)
    else
      if s.frameDropped then u.window.synchronization = true ∧ u.window.metaData = false ∨
        u.decode.synchronization = true ∧
          (unsupported configuration u.decode = true ∨ u.decode.metaData = false)
      else u.window.synchronization = false ∧ u.decode.synchronization = false

/-- The decision on every frame is put on record. -/
def OnRecord (configuration : OutputTimerConfiguration) (s : InFrame) (u : DecodeUnit) : Prop :=
  if u.parameters.firstParsedParametersForOutputFrame then records configuration u = true
  else s.recorded = true

/-- The last decision on record is to drop. -/
def recordsDrop (s : OutputTimer) : Bool := s.lastFrameDropPreDecodeDecision ≠ .noError

/-- What is on record is the decision on the frame. -/
def Recorded (s : InFrame) : Prop := s.recorded = true → s.timer.recordsDrop = s.frameDropped

instance : DecidablePred (Whole configuration s) := fun _ => inferInstanceAs (Decidable (_ → _))

instance : DecidablePred (Alike configuration s) := fun _ => inferInstanceAs (Decidable (_ → ite _ _ _))

instance : DecidablePred (OnRecord configuration s) := fun _ => inferInstanceAs (Decidable (ite _ _ _))

/-! ### First units -/

theorem dropTestBeforeDecodeWindow_first {s : OutputTimer} {p : DecodeUnitParameters} {w : WindowInput}
    (hmeta : w.metaData = true) (h : p.firstParsedParametersForOutputFrame = true)
    (hdrop : (s.dropTestBeforeDecodeWindow p w).2 ≠ .noError) :
    (s.dropTestBeforeDecodeWindow p w).1.recordsDrop = true := by
  revert hdrop
  unfold dropTestBeforeDecodeWindow
  rw [hmeta, h]
  simp only [Bool.not_true, Bool.false_eq_true, if_false]
  split
  · exact fun _ => rfl
  · split
    · exact fun _ => rfl
    · split
      · exact fun _ => rfl
      · split
        · exact fun _ => rfl
        · exact fun h => absurd rfl h

theorem dropTestBeforeDecode_first {s : OutputTimer} {p : DecodeUnitParameters} {d : DecodeInput}
    (hmeta : unsupported configuration d = true ∨ d.metaData = true)
    (h : p.firstParsedParametersForOutputFrame = true) :
    (s.dropTestBeforeDecode configuration p d).1.recordsDrop =
      decide ((s.dropTestBeforeDecode configuration p d).2.2 ≠ .noError) := by
  unfold dropTestBeforeDecode
  split
  · rfl
  next hsupported =>
    rw [hmeta.resolve_left hsupported, h]
    rfl

theorem recordsDrop_first {s : OutputTimer} (h : u.parameters.firstParsedParametersForOutputFrame = true)
    (hrecords : records configuration u = true) :
    (s.testForFrameDrop configuration u).1.recordsDrop = s.drops configuration u := by
  unfold records at hrecords
  rw [Bool.and_eq_true, Bool.and_eq_true, Bool.or_eq_true, Bool.or_eq_true] at hrecords
  obtain ⟨⟨hwindow, hdecode⟩, hmeta⟩ := hrecords
  unfold drops testForFrameDrop
  dsimp only
  split
  · unfold testBeforeDecode
    rw [hdecode]
    exact dropTestBeforeDecode_first hmeta h
  next hdropped =>
    rw [decide_eq_true hdropped]
    unfold testBeforeDecodeWindow at hdropped ⊢
    split at hdropped
    · exact absurd rfl hdropped
    next hmade =>
      rw [if_neg hmade]
      exact dropTestBeforeDecodeWindow_first (hwindow.resolve_left hmade) h hdropped

/-! ### Later units -/

theorem testBeforeDecodeWindow_later {s : OutputTimer}
    (h : u.parameters.firstParsedParametersForOutputFrame = false) :
    (s.testBeforeDecodeWindow u).1 = s ∧ ((s.testBeforeDecodeWindow u).2 ≠ .noError ↔
      u.window.synchronization = true ∧ (u.window.metaData = false ∨ s.recordsDrop = true)) := by
  unfold testBeforeDecodeWindow dropTestBeforeDecodeWindow recordsDrop
  rw [h]
  cases u.window.synchronization with
  | false => simp
  | true =>
    cases u.window.metaData with
    | false => simp
    | true => simp

theorem testBeforeDecode_later {s : OutputTimer}
    (h : u.parameters.firstParsedParametersForOutputFrame = false) :
    (s.testBeforeDecode configuration u).2.2 ≠ .noError ↔
      u.decode.synchronization = true ∧ (unsupported configuration u.decode = true ∨
        u.decode.metaData = false ∨ s.recordsDrop = true) := by
  unfold testBeforeDecode dropTestBeforeDecode recordsDrop
  rw [h]
  cases u.decode.synchronization with
  | false => simp
  | true =>
    cases unsupported configuration u.decode with
    | true => simp
    | false =>
      cases u.decode.metaData with
      | false => simp
      | true => simp

/-- A later unit is dropped by a test that is made and sees the decision, cannot obtain the meta data or, the
second one, does not support the speed. -/
theorem drops_later (configuration : OutputTimerConfiguration) (s : OutputTimer)
    (h : u.parameters.firstParsedParametersForOutputFrame = false) :
    s.drops configuration u = true ↔
      u.window.synchronization = true ∧ (u.window.metaData = false ∨ s.recordsDrop = true) ∨
        u.decode.synchronization = true ∧ (unsupported configuration u.decode = true ∨
          u.decode.metaData = false ∨ s.recordsDrop = true) := by
  obtain ⟨hs, hw⟩ := testBeforeDecodeWindow_later (s := s) h
  unfold drops testForFrameDrop
  rw [decide_eq_true_iff, ← hw, ← testBeforeDecode_later h]
  by_cases e : (s.testBeforeDecodeWindow u).2 = .noError
  · rw [if_pos e, hs]
    exact ⟨Or.inr, fun h => h.resolve_left (not_not.mpr e)⟩
  · rw [if_neg e]
    exact iff_of_true e (Or.inl e)

/-- A later unit leaves the record alone, or finds a speed that is not supported. -/
theorem record_later (configuration : OutputTimerConfiguration) (s : OutputTimer)
    (h : u.parameters.firstParsedParametersForOutputFrame = false) :
    (s.testForFrameDrop configuration u).1.recordsDrop = s.recordsDrop ∨
      (s.testForFrameDrop configuration u).1.recordsDrop = true ∧ u.decode.synchronization = true ∧
        unsupported configuration u.decode = true := by
  obtain ⟨hs, -⟩ := testBeforeDecodeWindow_later (s := s) h
  unfold testForFrameDrop
  dsimp only
  rw [hs]
  split
  · unfold testBeforeDecode dropTestBeforeDecode
    rw [h]
    split
    · exact .inl rfl
    next hmade =>
      split
      next hspeed => exact .inr ⟨rfl, by simpa using hmade, hspeed⟩
      next => split <;> exact .inl rfl
  · exact .inl rfl

theorem whole_of_alike (hs : Recorded s) (h : Alike configuration s u) : Whole configuration s u := by
  intro hlater
  have hmeant := h hlater
  have hdrops := drops_later configuration s.timer hlater
  unfold Recorded at hs
  cases hr : s.recorded <;> cases hd : s.frameDropped <;> simp_all <;> grind

/-- Where the decision is on record, the condition is exact. -/
theorem whole_iff_alike (hs : Recorded s) (hrecord : OnRecord configuration s u) :
    Whole configuration s u ↔ Alike configuration s u := by
  refine ⟨fun h hlater => ?_, whole_of_alike hs⟩
  unfold OnRecord at hrecord
  rw [hlater, if_neg Bool.false_ne_true] at hrecord
  have hwhole := h hlater
  have hdrops := drops_later configuration s.timer hlater
  rw [hs hrecord, hwhole] at hdrops
  cases hd : s.frameDropped <;> simp_all

theorem recorded_next (hs : Recorded s) (h : Alike configuration s u) : Recorded (next configuration s u) := by
  unfold Recorded next
  cases hfirst : u.parameters.firstParsedParametersForOutputFrame with
  | true => exact recordsDrop_first hfirst
  | false =>
    intro hrecorded
    simp only [Bool.false_eq_true, if_false] at hrecorded ⊢
    have hmeant := h hfirst
    rw [if_pos hrecorded] at hmeant
    rcases record_later configuration s.timer hfirst with hsame | ⟨hdrop, hmade, hspeed⟩
    · exact hsame.trans (hs hrecorded)
    · -- a frame that was kept meets no such speed
      rw [hdrop]
      by_contra hkept
      rw [if_neg (fun hd => hkept hd.symm)] at hmeant
      exact Bool.false_ne_true ((hmeant.2 hmade).1.symm.trans hspeed)

/-- **A frame is dropped whole.**  In every sequence of units that read the policies, the speed and the meta
data like the first ones of their frames, every unit is decided like the first one of its frame; where all
decisions are put on record, in no other sequence. -/
theorem along_whole (configuration : OutputTimerConfiguration) (timer : OutputTimer) (us : List DecodeUnit) :
    (Along (step configuration) (Alike configuration) (beforeFrames timer) us →
      Along (step configuration) (Whole configuration) (beforeFrames timer) us) ∧
    (Along (step configuration) (OnRecord configuration) (beforeFrames timer) us →
      (Along (step configuration) (Whole configuration) (beforeFrames timer) us ↔
        Along (step configuration) (Alike configuration) (beforeFrames timer) us)) := by
  have hstart : Recorded (beforeFrames timer) := fun h => absurd h Bool.false_ne_true
  have hkeep : ∀ s u s', Recorded s → Alike configuration s u → step configuration s u = some s' → Recorded s' :=
    fun s u s' hs hu hstep => Option.some.inj hstep ▸ recorded_next hs hu
  constructor
  · exact along_of_along hkeep (fun _ _ hs hu => whole_of_alike hs hu) hstart
  · exact along_iff_of_keeping (fun s u s' hs _ hu => hkeep s u s' hs hu)
      (fun _ _ hs hrecord => whole_iff_alike hs hrecord) hstart

/-- The tests read no interval, and a duration of 40 milliseconds. -/
def plainWindow (synchronization : Bool) : WindowInput :=
  ⟨synchronization, true, false, false, NativeTime.invalidTime, NativeTime.invalidTime, some 40000⟩

/-- A field of a reference frame, at a speed. -/
def field (first synchronization : Bool) (speed : UInt64) : DecodeUnit :=
  ⟨⟨first, false, first, first, true, 1000000, false⟩, plainWindow synchronization,
    ⟨synchronization, true, ⟨false, speed, 1⟩, false, some (.decodeAll, ⟨false, 0, 1⟩), true⟩⟩

def upTo32 : OutputTimerConfiguration := ⟨true, ⟨false, 1, 100000⟩, ⟨false, 32, 1⟩⟩

/-- A frame is kept while the speed changes, one is dropped at 64 times the speed, although its second field
comes at normal speed, and one is kept without the policy. -/
theorem along_whole_threeFrames : Along (step upTo32) (Whole upTo32) (beforeFrames reset)
      [field true true 1, field false true 2, field true true 64, field false true 1, field true false 1,
        field false false 64] ∧
    (Along (step upTo32) (Whole upTo32) (beforeFrames reset) [field true true 1, field false true 64] ↔
      Along (step upTo32) (Alike upTo32) (beforeFrames reset) [field true true 1, field false true 64]) :=
  ⟨(along_whole upTo32 reset _).1 (by decide +kernel), (along_whole upTo32 reset _).2 (by decide +kernel)⟩

/-- A field is kept at normal speed; before the other field of the frame is tested, playback goes on at 64
times the speed, and the field is dropped. -/
theorem not_along_whole : reset.drops upTo32 (field true true 1) = false ∧
    ¬Along (step upTo32) (Whole upTo32) (beforeFrames reset) [field true true 1, field false true 64] := by
  decide +kernel

end Player2.OutputTimer

import Player2.CodecBuffers
import Player2.Run

/-! # Reports of frames that are not decoded

The stage that puts frames into display order waits for each of them: either its decode buffer comes
through the output ring, or it is recorded with `RecordNonDecodedFrame`.  For the H.264 codec this is the
intermediate process's business.  It passes a unit (a frame or a field) to `Codec_MmeVideo_c::Input`; if
that fails and the unit is the first of a frame, it records the frame and calls
`OutputPartialDecodeBuffers`.

Units reach the process in the order of the chain.  Frames are numbered from 1, as their first units
reach it; `owners` says which frame each use of a decode buffer was obtained for, and `withheld` which
frames a discard kept from being passed on.  These numbers are not in the source. -/

namespace Player2.Codec

/-! ### Data -/

/-- What becomes of a unit that the process has reached: the pre-processor failed on it, a discard is
queued behind it, or it is passed on. -/
inductive Reached
  | junked
  | withheld
  | passedOn
deriving DecidableEq

/-- The codec, and what the intermediate process knows: whether the unit that it passes on is the first
of its frame, and whether `Codec_MmeVideo_c::Input` has met an error. -/
structure ReportState where
  codec : CodecState
  passing : Option Bool
  failed : Bool
  frames : ℕ
  owners : List ℕ
  recorded : List ℕ
  withheld : List ℕ

/-- A unit is reached, a step of the codec, or `Codec_MmeVideo_c::Input` returns. -/
inductive ReportLabel
  | reach (f : Frame) (reached : Reached)
  | codec (label : Label)
  | returned
deriving DecidableEq

/-- After this step `Codec_MmeVideo_c::Input` returns an error. -/
def Label.isError (label : Label) : Bool := label == .error || label == .send false

/-- The step obtains a decode buffer. -/
def Label.obtains : Label → Bool
  | .getDecodeBuffer _ => true
  | _ => false

namespace ReportState

/-! ### Steps -/

/-- The steps of the codec that come of themselves; the calls of the process come one at a time, and it
is neither halted nor reset. -/
def Allowed (s : ReportState) : Label → Bool
  | .input _ => false
  | .halt => false
  | .newSession => false
  | .outputPartialDecodeBuffers => s.passing.isNone
  | .inputMarker => s.passing.isNone
  | _ => true

/-- The process reaches a unit. -/
def reach (s : ReportState) (f : Frame) : Reached → Option ReportState
  | .junked => some s
  | .withheld => some { s with withheld := s.withheld ++ [s.frames] }
  | .passedOn => (s.codec.step (.input f)).map fun codec =>
    { s with codec := codec, passing := some f.firstParsedParametersForOutputFrame, failed := false }

/-- The first unit of a frame. -/
def count (s : ReportState) (f : Frame) : ReportState :=
  if f.firstParsedParametersForOutputFrame then { s with frames := s.frames + 1 } else s

/-- `Codec_MmeVideo_c::Input` has returned. -/
def afterInput (s : ReportState) (first : Bool) : Option ReportState :=
  if s.failed && first then
    (s.codec.step .outputPartialDecodeBuffers).map fun codec =>
      { s with codec := codec, passing := none, recorded := s.recorded ++ [s.frames] }
  else some { s with passing := none }

/-- A step of the codec. -/
def codecStep (s : ReportState) (label : Label) : Option ReportState :=
  (s.codec.step label).map fun codec =>
    { s with
      codec := codec
      failed := s.failed || label.isError
      owners := if label.obtains then s.owners ++ [s.frames] else s.owners }

def step (s : ReportState) : ReportLabel → Option ReportState
  | .reach f reached =>
    if s.passing = none ∧ s.codec.input = .idle then (s.count f).reach f reached else none
  | .codec label => if s.Allowed label then s.codecStep label else none
  | .returned => s.passing.bind fun first => if s.codec.input = .idle then s.afterInput first else none

def start : ReportState where
  codec := .start
  passing := none
  failed := false
  frames := 0
  owners := []
  recorded := []
  withheld := []

/-! ### What a step of the codec does to a first unit -/

/-- Where `Codec_MmeVideo_c::Input` stands with a first unit: before it has obtained a decode buffer, or
after; it has not failed after it has one. -/
def InFlight (failed : Bool) (owned : ℕ) (current : Option ℕ) : InputPhase → Prop
  | .parameters f => failed = false ∧ owned = 0 ∧ f.newFrameParameters = true ∧
      f.firstParsedParametersForOutputFrame = true
  | .parametersCounted f _ => failed = false ∧ owned = 0 ∧ f.newFrameParameters = true ∧
      f.firstParsedParametersForOutputFrame = true
  | .frame f => failed = false ∧ owned = 0 ∧ f.firstParsedParametersForOutputFrame = true
  | .closing _ next => failed = false ∧ owned = 0 ∧ next.isSome = true
  | .closed next => failed = false ∧ owned = 0 ∧ next.isSome = true
  | .obtain _ => failed = false ∧ owned = 0 ∧ current = none
  | .fill _ => failed = false ∧ owned = 1
  | .launched _ _ _ => failed = false ∧ owned = 1
  | .counted _ _ _ _ => failed = false ∧ owned = 1
  | .sent _ => failed = false ∧ owned = 1
  | .idle => owned = if failed then 0 else 1
  | _ => False

/-- A decode buffer was obtained, and the decode can still fail. -/
def mayFailLate : InputPhase → Bool
  | .fill _ => true
  | .counted _ _ _ _ => true
  | _ => false

/-- A frame is not to fail after its decode buffer was obtained. -/
def FailsEarly (s : CodecState) (label : Label) : Prop :=
  label.isError = true → mayFailLate s.input = false

instance (s : CodecState) (label : Label) : Decidable (FailsEarly s label) :=
  inferInstanceAs (Decidable (_ → _))

variable {f : Frame} {current : Option ℕ}

theorem inFlight_afterParameters (hnew : f.newFrameParameters = true)
    (hfirst : f.firstParsedParametersForOutputFrame = true) :
    InFlight false 0 current (CodecState.afterParameters f) := by
  unfold CodecState.afterParameters
  rw [if_pos hnew]
  exact ⟨rfl, rfl, hfirst⟩

variable {failed : Bool} {owned : ℕ} {phase : InputPhase}

theorem InFlight.discard
    (h : InFlight failed owned current phase) : InFlight failed owned current phase.discard := by
  cases phase with
  | _ => exact h

theorem InFlight.forget {current current' : Option ℕ}
    (h : InFlight failed owned current phase) (hcurrent : current' = none ∨ current' = current) :
    InFlight failed owned current' phase := by
  rcases hcurrent with rfl | rfl
  · cases phase with
    | obtain f => exact ⟨h.1, h.2.1, rfl⟩
    | _ => exact h
  · exact h

theorem forgetIndex_current (s : CodecState) (i : ℕ) :
    (s.forgetIndex i).currentDecodeBufferIndex = none ∨
      (s.forgetIndex i).currentDecodeBufferIndex = s.currentDecodeBufferIndex := by
  unfold CodecState.forgetIndex
  split
  · exact .inl rfl
  · exact .inr rfl

theorem releaseDecodeContext_current (s : CodecState) (i : ℕ) :
    (s.releaseDecodeContext i).1.currentDecodeBufferIndex = none ∨
      (s.releaseDecodeContext i).1.currentDecodeBufferIndex = s.currentDecodeBufferIndex := by
  obtain ⟨-, h⟩ | ⟨-, -, h⟩ | ⟨-, -, -, h⟩ | ⟨-, -, -, h⟩ := s.releaseDecodeContext_cases i
  · rw [h]
    exact .inr rfl
  · rw [h]
    exact forgetIndex_current (s.decodeDone i) i
  · rw [h]
    exact .inr rfl
  · rw [h]
    exact forgetIndex_current ((s.decodeDone i).insertBuffer i) i

theorem complete_current (s : CodecState) (c : Command) :
    (s.complete c).currentDecodeBufferIndex = none ∨
      (s.complete c).currentDecodeBufferIndex = s.currentDecodeBufferIndex := by
  obtain ⟨kind, number, discarded⟩ := c
  cases kind with
  | setGlobalTransformParams => exact .inr rfl
  | transform i use =>
    have hcurrent := releaseDecodeContext_current s i
    unfold CodecState.complete
    dsimp only
    split
    next => exact hcurrent
    next => exact hcurrent
    next => exact hcurrent

theorem complete_uses (s : CodecState) (c : Command) : (s.complete c).uses = s.uses := by
  obtain ⟨kind, number, discarded⟩ := c
  cases kind with
  | setGlobalTransformParams => rfl
  | transform i use =>
    obtain ⟨states, current, ring, hframe⟩ := s.releaseDecodeContext_frame i
    unfold CodecState.complete
    dsimp only
    split
    next => rw [hframe]
    next => rw [hframe]
    next => rw [hframe]

variable {label : Label}

theorem uses_step {s t : CodecState} (h : Step s label t) :
    t.uses = s.uses + if label.obtains then 1 else 0 := by
  cases h with
  | @close i next hphase =>
    obtain ⟨states, ring, hframe⟩ := s.closeBuffer_frame i
    rw [hframe]
    rfl
  | @release i use hphase =>
    obtain ⟨states, current, ring, hframe⟩ := s.releaseDecodeContext_frame i
    rw [hframe]
    rfl
  | @relock i use hphase =>
    obtain ⟨current, hframe⟩ := s.forgetIndex_frame i
    rw [hframe]
    rfl
  | @testMarker t hphase =>
    obtain ⟨held, ring, hframe⟩ := s.passMarker_frame t
    rw [hframe]
    rfl
  | callback hphase hhead => exact complete_uses _ _
  | @callbackRelock c i use hphase =>
    obtain ⟨current, hframe⟩ := s.forgetIndex_frame i
    rw [hframe]
    rfl
  | @callbackTestMarker t hphase =>
    obtain ⟨held, ring, hframe⟩ := s.passMarker_frame t
    rw [hframe]
    rfl
  | _ => rfl

/-- A first unit that does not fail late owns no buffer before it has obtained one, and one after. -/
theorem inFlight_step {s t : CodecState} (h : Step s label t)
    (hflight : InFlight failed owned s.currentDecodeBufferIndex s.input) (hrunning : s.halted = false)
    (hearly : FailsEarly s label) (hinput : ∀ f, label ≠ .input f)
    (houtput : label ≠ .outputPartialDecodeBuffers) (hmarker : label ≠ .inputMarker)
    (hhalt : label ≠ .halt) :
    InFlight (failed || label.isError) (if label.obtains then owned + 1 else owned)
      t.currentDecodeBufferIndex t.input := by
  cases h with
  | input f hphase hrunning => exact absurd rfl (hinput f)
  | partialOutput hphase => exact absurd rfl houtput
  | inputMarker hphase hrunning => exact absurd rfl hmarker
  | parametersError hphase =>
    rw [hphase] at hflight
    obtain ⟨rfl, rfl, -⟩ := hflight
    rfl
  | obtainError hphase =>
    rw [hphase] at hflight
    obtain ⟨rfl, rfl, hnone⟩ := hflight
    rw [hnone]
    rfl
  | fillError hphase =>
    have hlate := hearly rfl
    rw [hphase] at hlate
    cases hlate
  | markerError hphase =>
    rw [hphase] at hflight
    exact hflight.elim
  | abortParameters hphase hhalted =>
    rw [hrunning] at hhalted
    cases hhalted
  | countParameters hphase hrunning =>
    rw [hphase] at hflight
    obtain ⟨rfl, rfl, hnew, hfirst⟩ := hflight
    exact ⟨rfl, rfl, hnew, hfirst⟩
  | abortDecode hphase hhalted =>
    rw [hrunning] at hhalted
    cases hhalted
  | countDecode hphase hrunning =>
    rw [hphase] at hflight
    obtain ⟨rfl, rfl⟩ := hflight
    exact ⟨rfl, rfl⟩
  | sendParameters hphase =>
    rw [hphase] at hflight
    obtain ⟨rfl, rfl, hnew, hfirst⟩ := hflight
    exact inFlight_afterParameters hnew hfirst
  | refuseParameters hphase =>
    rw [hphase] at hflight
    obtain ⟨rfl, rfl, -⟩ := hflight
    rfl
  | sendDecode hphase =>
    rw [hphase] at hflight
    obtain ⟨rfl, rfl⟩ := hflight
    exact ⟨rfl, rfl⟩
  | refuseDecode hphase =>
    have hlate := hearly rfl
    rw [hphase] at hlate
    cases hlate
  | look hphase =>
    rw [hphase] at hflight
    obtain ⟨rfl, rfl, hfirst⟩ := hflight
    unfold CodecState.lookAtCurrent
    cases hcurrent : s.currentDecodeBufferIndex with
    | none => exact ⟨rfl, rfl, rfl⟩
    | some i =>
      simp only [hfirst, Bool.or_true, if_true]
      exact ⟨rfl, rfl, rfl⟩
  | @close i next hphase =>
    rw [hphase] at hflight
    obtain ⟨rfl, rfl, hnext⟩ := hflight
    exact ⟨rfl, rfl, hnext⟩
  | @forget next hphase =>
    rw [hphase] at hflight
    obtain ⟨rfl, rfl, hnext⟩ := hflight
    obtain ⟨f, rfl⟩ := Option.isSome_iff_exists.mp hnext
    exact ⟨rfl, rfl, rfl⟩
  | getDecodeBuffer i hphase hnone hfree =>
    rw [hphase] at hflight
    obtain ⟨rfl, rfl, -⟩ := hflight
    exact ⟨rfl, rfl⟩
  | reuse hphase hcurrent =>
    rw [hphase] at hflight
    obtain ⟨rfl, rfl, hnone⟩ := hflight
    rw [hnone] at hcurrent
    cases hcurrent
  | launch hphase hcurrent huse =>
    rw [hphase] at hflight
    obtain ⟨rfl, rfl⟩ := hflight
    exact ⟨rfl, rfl⟩
  | finish hphase =>
    rw [hphase] at hflight
    obtain ⟨rfl, rfl⟩ := hflight
    rfl
  | release hphase =>
    rw [hphase] at hflight
    exact hflight.elim
  | drop hphase =>
    rw [hphase] at hflight
    exact hflight.elim
  | relock hphase =>
    rw [hphase] at hflight
    exact hflight.elim
  | setMarkerTime hphase =>
    rw [hphase] at hflight
    exact hflight.elim
  | setMarker hphase =>
    rw [hphase] at hflight
    exact hflight.elim
  | testMarker hphase =>
    rw [hphase] at hflight
    exact hflight.elim
  | @callback c rest hphase hhead =>
    rw [CodecState.complete_input]
    change InFlight (failed || false) owned _ s.input
    rw [Bool.or_false]
    exact hflight.forget (complete_current { s with transformer := rest } c)
  | callbackDrop hphase => exact (Bool.or_false failed).symm ▸ hflight
  | @callbackRelock c i use hphase =>
    obtain ⟨current, hframe⟩ := s.forgetIndex_frame i
    have hcurrent := forgetIndex_current s i
    rw [hframe] at hcurrent ⊢
    exact (Bool.or_false failed).symm ▸ hflight.forget hcurrent
  | callbackCount hphase => exact (Bool.or_false failed).symm ▸ hflight
  | @callbackTestMarker t hphase =>
    obtain ⟨held, ring, hframe⟩ := s.passMarker_frame t
    rw [hframe]
    exact (Bool.or_false failed).symm ▸ hflight
  | discard => exact (Bool.or_false failed).symm ▸ hflight.discard
  | halt => exact absurd rfl hhalt
  | newSession hhalted hinput hcallback =>
    rw [hrunning] at hhalted
    cases hhalted
  | free i huse hleft => exact (Bool.or_false failed).symm ▸ hflight

/-! ### Every frame is accounted for -/

/-- Every frame that was reached, is not withheld and is not being passed on is recorded once, or one
decode buffer was obtained for it; and these buffers leave the codec once. -/
structure Accounted (s : ReportState) : Prop where
  reported : ∀ n, 0 < n → n ≤ s.frames → n ∉ s.withheld → (n = s.frames → s.passing ≠ some true) →
    s.recorded.count n + s.owners.count n = 1
  uses : s.owners.length = s.codec.uses
  delivered : s.codec.Delivered

/-- What the process needs: the pre-processor does not fail on the first unit of a frame, which has frame
parameters; `Codec_MmeVideo_c::Input` does not fail with it once it has a decode buffer; a further unit
does not obtain one, unless its frame is withheld; and buffers that are released are not in a later use. -/
def ReportsMeant (s : ReportState) : ReportLabel → Prop
  | .reach f reached => f.firstParsedParametersForOutputFrame = true →
      f.newFrameParameters = true ∧ reached ≠ .junked
  | .codec label => s.codec.NoLaterUse label ∧ (s.passing = some true → FailsEarly s.codec label) ∧
      (label.obtains = true → s.passing = some true ∨ s.frames ∈ s.withheld ∨ s.frames = 0)
  | .returned => True

instance (s : ReportState) : (label : ReportLabel) → Decidable (s.ReportsMeant label)
  | .reach _ _ => inferInstanceAs (Decidable (_ → _ ∧ _))
  | .codec _ => inferInstanceAs (Decidable (_ ∧ _ ∧ _))
  | .returned => isTrue trivial

/-- The invariant of the reports. -/
structure Reported (s : ReportState) : Prop where
  kept : s.codec.Kept
  uses : s.owners.length = s.codec.uses
  fresh : ∀ n, s.frames < n → n ∉ s.recorded ∧ n ∉ s.owners
  reported : ∀ n, 0 < n → n ≤ s.frames → n ∉ s.withheld → (n = s.frames → s.passing ≠ some true) →
    s.recorded.count n + s.owners.count n = 1
  inFlight : s.passing = some true → 0 < s.frames ∧ s.frames ∉ s.recorded ∧
    InFlight s.failed (s.owners.count s.frames) s.codec.currentDecodeBufferIndex s.codec.input

theorem noLaterUse_of_ne {s : CodecState} (hhalt : label ≠ .halt)
    (hrelock : label ≠ .callbackRelock) : s.NoLaterUse label :=
  ⟨hhalt, fun heq => absurd heq hrelock⟩

variable {s t : ReportState}

theorem Reported.reach {reached : Reached} (h : s.Reported)
    (hlabel : s.ReportsMeant (.reach f reached)) (hpassing : s.passing = none)
    (hstep : (s.count f).reach f reached = some t) : t.Reported := by
  have hfree : s.passing ≠ some true := by
    rw [hpassing]
    exact (Option.some_ne_none _).symm
  -- A new frame has no reports yet; the others keep theirs.
  cases hfirst : f.firstParsedParametersForOutputFrame with
  | true =>
    obtain ⟨hnew, hjunked⟩ := hlabel hfirst
    have hcount : s.count f = { s with frames := s.frames + 1 } := if_pos hfirst
    have hfresh := h.fresh (s.frames + 1) (Nat.lt_succ_self _)
    have hlater : ∀ n, s.frames + 1 < n → n ∉ s.recorded ∧ n ∉ s.owners :=
      fun n hn => h.fresh n (Nat.lt_of_succ_lt hn)
    rw [hcount] at hstep
    cases reached with
    | junked => exact absurd rfl hjunked
    | withheld =>
      cases hstep
      refine ⟨h.kept, h.uses, hlater, ?_, fun hfirst' => absurd hfirst' hfree⟩
      intro n hpos hle hwithheld _
      have hn : n ∉ s.withheld := fun hmem => hwithheld (List.mem_append_left _ hmem)
      have hne : n ≠ s.frames + 1 := by
        rintro rfl
        exact hwithheld (List.mem_append_right _ List.mem_cons_self)
      exact h.reported n hpos (by dsimp only at hle; omega) hn fun _ => hfree
    | passedOn =>
      obtain ⟨codec, hcodec, rfl⟩ := Option.map_eq_some_iff.mp hstep
      have hkept := CodecState.kept_step h.kept
        (noLaterUse_of_ne (fun hfalse => by cases hfalse) fun hfalse => by cases hfalse) hcodec
      have hcases := CodecState.step_cases hcodec
      have huses := uses_step hcases
      cases hcases with
      | input f hphase hrunning =>
        refine ⟨hkept, h.uses.trans huses.symm, hlater, ?_, ?_⟩
        · intro n hpos hle hwithheld hnot
          dsimp only at hle hnot
          have hne : n ≠ s.frames + 1 := fun heq => hnot heq (congrArg some hfirst)
          exact h.reported n hpos (by omega) hwithheld fun _ => hfree
        · intro _
          refine ⟨Nat.succ_pos _, hfresh.1, ?_⟩
          have howned : s.owners.count (s.frames + 1) = 0 := List.count_eq_zero.mpr hfresh.2
          rw [howned]
          split
          · exact ⟨rfl, rfl, hnew, hfirst⟩
          · exact inFlight_afterParameters hnew hfirst
  | false =>
    have hcount : s.count f = s := by
      unfold ReportState.count
      rw [hfirst]
      rfl
    rw [hcount] at hstep
    cases reached with
    | junked => exact Option.some.inj hstep ▸ h
    | withheld =>
      cases hstep
      refine ⟨h.kept, h.uses, h.fresh, ?_, fun hfirst' => absurd hfirst' hfree⟩
      intro n hpos hle hwithheld hnot
      exact h.reported n hpos hle (fun hmem => hwithheld (List.mem_append_left _ hmem)) hnot
    | passedOn =>
      obtain ⟨codec, hcodec, rfl⟩ := Option.map_eq_some_iff.mp hstep
      have hkept := CodecState.kept_step h.kept
        (noLaterUse_of_ne (fun hfalse => by cases hfalse) fun hfalse => by cases hfalse) hcodec
      have huses := uses_step (CodecState.step_cases hcodec)
      refine ⟨hkept, h.uses.trans huses.symm, h.fresh, ?_, ?_⟩
      · intro n hpos hle hwithheld _
        exact h.reported n hpos hle hwithheld fun _ => hfree
      · intro hfirst'
        rw [hfirst] at hfirst'
        cases hfirst'

/-- `Codec_MmeVideo_c::Input` returns; a frame that failed is recorded. -/
theorem Reported.returned {first : Bool} (h : s.Reported)
    (hpassing : s.passing = some first) (hidle : s.codec.input = .idle)
    (hstep : s.afterInput first = some t) : t.Reported := by
  unfold afterInput at hstep
  split at hstep
  next hboth =>
    obtain ⟨hfailed, rfl⟩ := Bool.and_eq_true_iff.mp hboth
    obtain ⟨codec, hcodec, rfl⟩ := Option.map_eq_some_iff.mp hstep
    have hkept := CodecState.kept_step h.kept
      (noLaterUse_of_ne (fun hfalse => by cases hfalse) fun hfalse => by cases hfalse) hcodec
    have huses := uses_step (CodecState.step_cases hcodec)
    obtain ⟨hpos, hrecorded, hflight⟩ := h.inFlight hpassing
    rw [hidle, hfailed] at hflight
    have howned : s.owners.count s.frames = 0 := hflight
    refine ⟨hkept, h.uses.trans huses.symm, ?_, ?_, fun hnone => by cases hnone⟩
    · intro n hn
      obtain ⟨hfresh, howners⟩ := h.fresh n hn
      refine ⟨fun hmem => ?_, howners⟩
      rcases List.mem_append.mp hmem with hold | hnew
      · exact hfresh hold
      · exact absurd (List.mem_singleton.mp hnew) (Nat.ne_of_gt hn)
    · intro n hn hle hwithheld _
      rw [List.count_append]
      by_cases heq : n = s.frames
      · subst heq
        rw [howned, List.count_eq_zero.mpr hrecorded, List.count_singleton_self]
      · have hold := h.reported n hn hle hwithheld fun heq' => absurd heq' heq
        have hne : s.frames ≠ n := fun heq' => heq heq'.symm
        rw [List.count_singleton, beq_false_of_ne hne]
        exact hold
  next hnot =>
    cases hstep
    refine ⟨h.kept, h.uses, h.fresh, ?_, fun hnone => by cases hnone⟩
    intro n hn hle hwithheld _
    by_cases hflying : n = s.frames ∧ s.passing = some true
    · obtain ⟨rfl, hfirst⟩ := hflying
      obtain ⟨hpos, hrecorded, hflight⟩ := h.inFlight hfirst
      rw [hpassing] at hfirst
      cases hfirst
      rw [Bool.and_true, Bool.not_eq_true] at hnot
      rw [hidle, hnot] at hflight
      have howned : s.owners.count s.frames = 1 := hflight
      rw [howned, List.count_eq_zero.mpr hrecorded]
    · exact h.reported n hn hle hwithheld fun heq hfirst => hflying ⟨heq, hfirst⟩

theorem Reported.codecStep (h : s.Reported)
    (hlabel : s.ReportsMeant (.codec label)) (hallowed : s.Allowed label = true)
    (hstep : s.codecStep label = some t) : t.Reported := by
  obtain ⟨hlater, hearly, hobtains⟩ := hlabel
  obtain ⟨codec, hcodec, rfl⟩ := Option.map_eq_some_iff.mp hstep
  have hkept := CodecState.kept_step h.kept hlater hcodec
  have hcases := CodecState.step_cases hcodec
  have huses := uses_step hcases
  have howners : ∀ n, (if label.obtains then s.owners ++ [s.frames] else s.owners).count n =
      s.owners.count n + if label.obtains ∧ n = s.frames then 1 else 0 := by
    intro n
    by_cases hobtain : label.obtains = true
    · rw [if_pos hobtain, List.count_append, List.count_singleton]
      by_cases hn : n = s.frames
      · simp [hobtain, hn]
      · have hne : s.frames ≠ n := fun heq => hn heq.symm
        simp [hn, hne]
    · simp [hobtain]
  constructor
  case kept => exact hkept
  case uses =>
    rw [huses, ← h.uses]
    split
    · rw [List.length_append]
      rfl
    · rfl
  case fresh =>
    intro n hn
    obtain ⟨hrecorded, howner⟩ := h.fresh n hn
    refine ⟨hrecorded, List.count_eq_zero.mp ?_⟩
    have hne : n ≠ s.frames := Nat.ne_of_gt hn
    rw [howners n, List.count_eq_zero.mpr howner, if_neg fun hboth => hne hboth.2]
  case reported =>
    intro n hpos hle hwithheld hnot
    have hold := h.reported n hpos hle hwithheld hnot
    have hother : ¬ (label.obtains = true ∧ n = s.frames) := by
      rintro ⟨hobtain, rfl⟩
      rcases hobtains hobtain with hfirst | hmem | hzero
      · exact hnot rfl hfirst
      · exact hwithheld hmem
      · exact absurd hzero (Nat.ne_of_gt hpos)
    rw [howners n, if_neg hother]
    exact hold
  case inFlight =>
    intro hfirst
    dsimp only at hfirst ⊢
    obtain ⟨hpos, hrecorded, hflight⟩ := h.inFlight hfirst
    refine ⟨hpos, hrecorded, ?_⟩
    have hinput : ∀ f, label ≠ .input f := by
      rintro f rfl
      cases hallowed
    have houtput : label ≠ .outputPartialDecodeBuffers := by
      rintro rfl
      rw [Allowed, hfirst] at hallowed
      cases hallowed
    have hmarker : label ≠ .inputMarker := by
      rintro rfl
      rw [Allowed, hfirst] at hallowed
      cases hallowed
    have hnext := inFlight_step hcases hflight h.kept.running (hearly hfirst) hinput houtput hmarker
      hlater.1
    rw [howners s.frames]
    by_cases hobtain : label.obtains = true
    · rw [if_pos hobtain] at hnext
      rw [if_pos ⟨hobtain, rfl⟩]
      exact hnext
    · rw [if_neg hobtain] at hnext
      rw [if_neg fun hboth => hobtain hboth.1]
      exact hnext

theorem reported_step {label : ReportLabel} (h : s.Reported)
    (hlabel : s.ReportsMeant label) (hstep : s.step label = some t) : t.Reported := by
  cases label with
  | reach f reached =>
    rw [step, Option.ite_none_right_eq_some] at hstep
    obtain ⟨⟨hpassing, -⟩, hreach⟩ := hstep
    exact h.reach hlabel hpassing hreach
  | codec label =>
    rw [step, Option.ite_none_right_eq_some] at hstep
    exact h.codecStep hlabel hstep.1 hstep.2
  | returned =>
    obtain ⟨first, hpassing, hreturn⟩ := Option.bind_eq_some_iff.mp hstep
    rw [Option.ite_none_right_eq_some] at hreturn
    exact h.returned hpassing hreturn.1 hreturn.2

theorem start_reported : start.Reported where
  kept := CodecState.start_kept
  uses := rfl
  fresh _ _ := ⟨List.not_mem_nil, List.not_mem_nil⟩
  reported n hpos hle := absurd hpos (Nat.not_lt.mpr hle)
  inFlight hfirst := by cases hfirst

/-- **Reports**: in every run in which a first unit fails, if it does, in `Codec_MmeVideo_c::Input` and
before it has a decode buffer, and a further unit finds the buffer of its frame, every frame that is not
withheld is recorded once, or has one decode buffer, which leaves the codec once. -/
theorem run_accounted {labels : List ReportLabel} {s : ReportState}
    (hlabels : Lts.Along step ReportsMeant start labels) (h : Lts.run step start labels = some s) :
    s.Accounted := by
  have hreported : s.Reported := Lts.run_invariant_along (I := Reported)
    (fun _ _ _ ht hlabel hstep => reported_step ht hlabel hstep) start_reported hlabels h
  exact ⟨hreported.reported, hreported.uses, hreported.kept.delivered⟩

/-- A frame is decoded, and no buffer is obtained for the next one. -/
def decodedThenFailed : List ReportLabel :=
  [.reach CodecState.wholeFrame .passedOn, .codec .look, .codec (.getDecodeBuffer 0), .codec .launch,
    .codec .count, .codec (.send true), .codec .finish, .returned,
    .reach CodecState.wholeFrame .passedOn, .codec .look, .codec .error, .returned, .codec .callback]

/-- `run_accounted` over a frame that is decoded and one that is not. -/
theorem run_accounted_decodedThenFailed : ∃ s, Lts.run step start decodedThenFailed = some s ∧
    s.codec.outputRing = [.frame 0] ∧ s.owners = [1] ∧ s.recorded = [2] ∧ s.Accounted := by
  have hlabels : Lts.Along step ReportsMeant start decodedThenFailed := by decide +kernel
  exact ⟨_, rfl, rfl, rfl, rfl, run_accounted hlabels rfl⟩

/-- The pre-processor fails on a frame. -/
def junkedFrame : List ReportLabel := [.reach CodecState.wholeFrame .junked]

/-- A frame that the pre-processor fails on is neither output nor recorded. -/
theorem not_run_accounted_junkedFrame :
    ¬ ∀ (labels : List ReportLabel) (s : ReportState), Lts.run step start labels = some s →
      s.Accounted := by
  intro hall
  have haccounted := hall junkedFrame _ rfl
  have hreported := haccounted.reported 1 (by decide) (by decide) (by decide) (by decide)
  cases hreported

end ReportState

end Player2.Codec

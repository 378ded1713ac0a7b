import Player2.CodecBuffers

/-! # Marker buffers of a codec

A marker is held until the commands that were prepared before it are completed, and goes then into the
output ring.  Both threads test for that: the one that sets the marker, and that of the callbacks after
each completion; whichever takes the marker inserts it.

The count of the prepared commands is advanced before a command is sent.  When the transformer does not
accept it, neither of the other two counts follows, and every later marker is held for ever. -/

namespace Player2.Codec

/-! ### Decodes before a marker -/

/-- The decodes that will make buffers leave. -/
structure UseView where
  uses : ℕ
  commands : ℕ
  currentUse : Option ℕ
  -- Of decodes that are not at the transformer.
  launched : List ℕ
  -- With the numbers of the commands.
  sent : List (ℕ × ℕ)

namespace CodecState

/-- The uses that the thread of `Input` is about to decode into, or to release. -/
def launchedUses (s : CodecState) : List ℕ :=
  (s.input.context.toList ++ s.input.beingReleased.toList).map Prod.snd

/-- The use and the number of a decode. -/
def useAndNumber (c : Command) : Option (ℕ × ℕ) := c.kind.context.map fun p => (p.2, c.number)

/-- The decodes that will make buffers leave. -/
def useView (s : CodecState) : UseView where
  uses := s.uses
  commands := s.commands
  currentUse := s.currentDecodeBufferIndex.bind fun i => (s.bufferState i).use
  launched := s.launchedUses
  sent := s.commandView.uncounted.filterMap useAndNumber

end CodecState

namespace UseView

/-- What a step may add. -/
structure Grows (v w : UseView) : Prop where
  uses : v.uses ≤ w.uses
  commands : v.commands ≤ w.commands
  current : ∀ use, w.currentUse = some use → v.currentUse = some use ∨ v.uses ≤ use
  launched : ∀ use ∈ w.launched, use ∈ v.launched ∨ v.currentUse = some use
  sent : ∀ p ∈ w.sent, p ∈ v.sent ∨ p.1 ∈ v.launched

/-- Decodes into buffers that were obtained before the marker have commands whose numbers are below a
bound. -/
structure Before (v : UseView) (m : Marker) (bound : ℕ) : Prop where
  usesLe : m.uses ≤ v.uses
  boundLe : bound ≤ v.commands
  current : ∀ use, v.currentUse = some use → m.uses ≤ use
  launched : ∀ use ∈ v.launched, m.uses ≤ use
  sent : ∀ p ∈ v.sent, p.1 < m.uses → p.2 < bound

theorem Before.grows {v w : UseView} {m : Marker} {bound : ℕ} (h : v.Before m bound)
    (hgrows : v.Grows w) : w.Before m bound where
  usesLe := h.usesLe.trans hgrows.uses
  boundLe := h.boundLe.trans hgrows.commands
  current use huse := (hgrows.current use huse).elim (h.current use) fun hnew => h.usesLe.trans hnew
  launched use huse := (hgrows.launched use huse).elim (h.launched use) (h.current use)
  sent p hp hlt := by
      rcases hgrows.sent p hp with hold | hnew
      · exact h.sent p hold hlt
      · exact absurd hlt (Nat.not_lt.mpr (h.launched p.1 hnew))

end UseView

namespace BufferView

/-- The use that the current index designates. -/
def currentUse (v : BufferView) : Option ℕ := v.current.bind fun i => (v.bufferState i).use

variable {v : BufferView} {states : ℕ → BufferState}

theorem currentUse_eq (hstates : ∀ j, (states j).use = (v.bufferState j).use) :
    v.current.bind (fun i => (states i).use) = v.currentUse := by
  unfold currentUse
  simp only [hstates]

theorem forgetIndex_currentUse (i : ℕ)
    (hstates : ∀ j, (states j).use = (v.bufferState j).use) {use : ℕ}
    (h : (v.forgetIndex i).bind (fun i => (states i).use) = some use) : v.currentUse = some use := by
  unfold forgetIndex at h
  split at h
  next => cases h
  next => exact (currentUse_eq hstates).symm.trans h

/-- The current use becomes another only when a buffer is obtained. -/
theorem Effect.currentUse {v w : BufferView} (h : Effect v w) :
    v.uses ≤ w.uses ∧
      ∀ use, w.currentUse = some use → v.currentUse = some use ∨ v.uses ≤ use := by
  induction h with
  | same v => exact ⟨le_rfl, fun _ => .inl⟩
  | next _ _ ih ih' =>
    refine ⟨ih.1.trans ih'.1, ?_⟩
    intro use huse
    rcases ih'.2 use huse with hmiddle | hnew
    · exact ih.2 use hmiddle
    · exact .inr (ih.1.trans hnew)
  | phase v => exact ⟨le_rfl, fun _ => .inl⟩
  | settle v => exact ⟨le_rfl, fun _ => .inl⟩
  | close v i hclosing =>
    refine ⟨le_rfl, fun use h => .inl ((currentUse_eq ?_).symm.trans h)⟩
    intro j
    grind [Function.update_apply]
  | forget v hshut => exact ⟨le_rfl, fun _ h => absurd h (Option.some_ne_none _).symm⟩
  | take v i =>
    refine ⟨Nat.le_succ _, fun use h => .inr ?_⟩
    have huse : (Function.update v.bufferState i ⟨some v.uses, false, 0⟩ i).use = some use := h
    rw [Function.update_self] at huse
    exact (Option.some.inj huse).le
  | launch v i use last hcurrent =>
    refine ⟨le_rfl, fun use h => .inl ((currentUse_eq ?_).symm.trans h)⟩
    intro j
    grind [Function.update_apply]
  | kept v i => exact ⟨le_rfl, fun _ h => .inl ((currentUse_eq (v.decodeDone_use i)).symm.trans h)⟩
  | keptInput v i => exact ⟨le_rfl, fun _ h => .inl ((currentUse_eq (v.decodeDone_use i)).symm.trans h)⟩
  | keptShut v i => exact ⟨le_rfl, fun _ h => .inl (forgetIndex_currentUse i (v.decodeDone_use i) h)⟩
  | inserted v i => exact ⟨le_rfl, fun _ h => .inl (forgetIndex_currentUse i (v.decodeDone_use i) h)⟩
  | discarding v i => exact ⟨le_rfl, fun _ h => .inl ((currentUse_eq (v.decodeDone_use i)).symm.trans h)⟩
  | inputDropping v => exact ⟨le_rfl, fun _ => .inl⟩
  | drop v => exact ⟨le_rfl, fun _ => .inl⟩
  | relock v i => exact ⟨le_rfl, fun _ h => .inl (forgetIndex_currentUse i (fun _ => rfl) h)⟩
  | relockInput v i => exact ⟨le_rfl, fun _ h => .inl (forgetIndex_currentUse i (fun _ => rfl) h)⟩
  | free v i use huse hleft =>
    refine ⟨le_rfl, fun w h => .inl ?_⟩
    obtain ⟨j, hj, hw⟩ := Option.bind_eq_some_iff.mp h
    refine Option.bind_eq_some_iff.mpr ⟨j, hj, ?_⟩
    grind [Function.update_apply]

end BufferView

namespace CodecState

variable {s s' : CodecState} {label : Label}

theorem effect_uncounted {v : CommandView} (h : Effect s label v)
    (hlabel : label ≠ .newSession) :
    s.commandView.commands ≤ v.commands ∧ ∀ c ∈ v.uncounted,
      (∃ d ∈ s.commandView.uncounted, d.kind = c.kind ∧ d.number = c.number) ∨
        c.kind.context = none ∨ c.kind.context = s.input.context := by
  have hold : ∀ {l : List Command}, (∀ c ∈ l, c ∈ s.commandView.uncounted) →
      ∀ c ∈ l, (∃ d ∈ s.commandView.uncounted, d.kind = c.kind ∧ d.number = c.number) ∨
        c.kind.context = none ∨ c.kind.context = s.input.context :=
    fun hl c hc => .inl ⟨c, hl c hc, rfl, rfl⟩
  cases h with
  | same => exact ⟨le_rfl, hold fun _ hc => hc⟩
  | prepare kind hkind =>
    refine ⟨Nat.le_succ _, ?_⟩
    intro c hc
    rw [CommandView.uncounted, ← List.append_assoc] at hc
    rcases List.mem_append.mp hc with hbefore | hnew
    · exact .inl ⟨c, hbefore, rfl, rfl⟩
    · rw [List.mem_singleton.mp hnew]
      exact .inr hkind
  | abort hhalted => exact ⟨Nat.le_succ _, hold fun _ hc => hc⟩
  | refuse c rest hwaiting =>
    refine ⟨le_rfl, hold fun d hd => ?_⟩
    rw [CommandView.uncounted, hwaiting]
    rcases List.mem_append.mp hd with hcompleting | hrest
    · exact List.mem_append_left _ hcompleting
    · exact List.mem_append_right _ (List.mem_append_left _ hrest)
  | completeParameters c rest hwaiting hcompleting =>
    refine ⟨le_rfl, hold fun d hd => ?_⟩
    rw [CommandView.uncounted, hwaiting]
    exact List.mem_append_right _ (List.mem_cons_of_mem c hd)
  | complete c rest hwaiting hcompleting =>
    refine ⟨le_rfl, hold fun d hd => ?_⟩
    rw [CommandView.uncounted, hwaiting]
    exact List.mem_append_right _ hd
  | completeBuffer c rest hwaiting hcompleting hlast =>
    refine ⟨le_rfl, hold fun d hd => ?_⟩
    rw [CommandView.uncounted, hwaiting]
    exact List.mem_append_right _ hd
  | count hcompleting => exact ⟨le_rfl, hold fun _ hd => List.mem_append_right _ hd⟩
  | discard =>
    refine ⟨le_rfl, fun c hc => .inl ?_⟩
    rcases List.mem_append.mp hc with hcompleting | hwaiting
    · exact ⟨c, List.mem_append_left _ hcompleting, rfl, rfl⟩
    · obtain ⟨d, hd, rfl⟩ := List.mem_map.mp hwaiting
      exact ⟨d, List.mem_append_right _ hd, rfl, rfl⟩
  | newSession => exact absurd rfl hlabel

/-- What a step may add to the decodes that are not at the transformer. -/
theorem step_launchedUses (h : Step s label s') :
    ∀ use ∈ s'.launchedUses, use ∈ s.launchedUses ∨ s.bufferView.currentUse = some use := by
  have hnone : ∀ (phase : InputPhase), phase.context = none → phase.beingReleased = none →
      ∀ use ∈ (phase.context.toList ++ phase.beingReleased.toList).map Prod.snd,
        use ∈ s.launchedUses ∨ s.bufferView.currentUse = some use := by
    intro phase hcontext hreleasing use huse
    rw [hcontext, hreleasing] at huse
    cases huse
  have hquiet : ∀ (phase : InputPhase), phase.quiet = true →
      ∀ use ∈ (phase.context.toList ++ phase.beingReleased.toList).map Prod.snd,
        use ∈ s.launchedUses ∨ s.bufferView.currentUse = some use := fun phase hphase =>
    hnone phase (InputPhase.quiet_facts hphase).1 (InputPhase.quiet_facts hphase).2.1
  have hsame : ∀ (i use : ℕ), s.input.context = some (i, use) ∨ s.input.beingReleased = some (i, use) →
      ∀ w ∈ [use], w ∈ s.launchedUses ∨ s.bufferView.currentUse = some w := by
    intro i use hinput w hw
    rw [List.mem_singleton.mp hw]
    refine .inl (List.mem_map.mpr ⟨(i, use), ?_, rfl⟩)
    rcases hinput with hcontext | hreleasing
    · exact List.mem_append_left _ (Option.mem_toList.mpr hcontext)
    · exact List.mem_append_right _ (Option.mem_toList.mpr hreleasing)
  cases h with
  | input f hinput =>
    refine hquiet _ ?_
    split
    next => rfl
    next => exact afterParameters_quiet f
  | partialOutput hinput => cases s.currentDecodeBufferIndex <;> exact hnone _ rfl rfl
  | obtainError hinput => cases s.currentDecodeBufferIndex <;> exact hnone _ rfl rfl
  | abortParameters hinput hhalted => exact hquiet _ (afterParameters_quiet _)
  | countDecode hinput hrunning => exact hsame _ _ (.inl (congrArg InputPhase.context hinput))
  | sendParameters hinput => exact hquiet _ (afterParameters_quiet _)
  | refuseDecode hinput => exact hsame _ _ (.inl (congrArg InputPhase.context hinput))
  | look hinput =>
    unfold lookAtCurrent
    split
    next => exact hnone _ rfl rfl
    next =>
      split
      next => exact hnone _ rfl rfl
      next => exact hnone _ rfl rfl
  | @forget next hinput => cases next <;> exact hnone _ rfl rfl
  | @launch f i use hinput hcurrent huse =>
    intro w hw
    rw [List.mem_singleton.mp hw]
    exact .inr (Option.bind_eq_some_iff.mpr ⟨i, hcurrent, huse⟩)
  | @release i use hinput =>
    split
    next => exact hsame i use (.inl (congrArg InputPhase.context hinput))
    next => exact hnone _ rfl rfl
  | @testMarker t hinput => cases (s.passMarker t).2 <;> exact hnone _ rfl rfl
  | callback hinput hhead =>
    unfold launchedUses
    rw [complete_input]
    exact fun _ => .inl
  | @callbackRelock c i use hinput =>
    obtain ⟨current, hframe⟩ := s.forgetIndex_frame i
    rw [hframe]
    exact fun _ => .inl
  | @callbackTestMarker t hinput =>
    obtain ⟨held, ring, hframe⟩ := s.passMarker_frame t
    rw [hframe]
    exact fun _ => .inl
  | discard =>
    intro use huse
    obtain ⟨hcontext, hreleasing, -⟩ := s.input.discard_facts
    rw [launchedUses, show s.discardQueuedDecodes.input = s.input.discard from rfl, hcontext,
      hreleasing] at huse
    exact .inl huse
  | newSession => exact fun _ => .inl
  | callbackDrop => exact fun _ => .inl
  | callbackCount => exact fun _ => .inl
  | halt => exact fun _ => .inl
  | free => exact fun _ => .inl
  | _ => exact hnone _ rfl rfl

theorem step_grows (h : s.Kept) (hlabel : s.NoLaterUse label)
    (hstep : Step s label s') : s.useView.Grows s'.useView := by
  have heffect := step_bufferEffect h.running h.fits hlabel hstep
  obtain ⟨huses, hcurrent⟩ := heffect.currentUse
  have hsession : label ≠ .newSession := by
    rintro rfl
    cases hstep with
    | newSession hhalted => exact absurd (hhalted.symm.trans h.running) Bool.noConfusion
  obtain ⟨hcommands, huncounted⟩ := effect_uncounted (step_effect hstep) hsession
  constructor
  case uses => exact huses
  case commands => exact hcommands
  case current => exact hcurrent
  case launched => exact step_launchedUses hstep
  case sent =>
    intro p hp
    obtain ⟨c, hc, hcp⟩ := List.mem_filterMap.mp hp
    obtain ⟨q, hq, rfl⟩ := Option.map_eq_some_iff.mp hcp
    rcases huncounted c hc with ⟨d, hd, hkind, hnumber⟩ | hnone | hinput
    · refine .inl (List.mem_filterMap.mpr ⟨d, hd, ?_⟩)
      unfold useAndNumber
      rw [hkind, hq, hnumber]
      rfl
    · exact absurd (hq.symm.trans hnone) (Option.some_ne_none _)
    · refine .inr (List.mem_map.mpr ⟨q, ?_, rfl⟩)
      rw [← hinput, hq]
      exact List.mem_append_left _ List.mem_cons_self

end CodecState

/-! ### Places of the markers -/

/-- The marker of which the time is known, and that is not held yet. -/
def InputPhase.timed : InputPhase → Option Marker
  | .markerTimed m => some m
  | _ => none

/-- A marker frame has been recognized. -/
def InputPhase.atMarker : InputPhase → Bool
  | .marker => true
  | _ => false

def InputPhase.test : InputPhase → Option MarkerTest
  | .markerTest t => some t
  | _ => none

def CallbackPhase.test : CallbackPhase → Option MarkerTest
  | .markerTest t => some t
  | _ => none

/-- The marker that has been taken, and is not inserted. -/
def MarkerTest.taken : MarkerTest → Option Marker
  | .inserting m => some m
  | _ => none

/-- The number of a marker in the output ring. -/
def Output.number : Output → Option ℕ
  | .frame _ => none
  | .marker m => some m.number

/-- The markers of a codec. -/
structure MarkerView where
  ring : List Output
  released : List ℕ
  held : Option Marker
  passOnAt : Word
  done : Word
  atMarker : Bool
  timed : Option Marker
  -- Of the thread of `Input` and of that of the callbacks.
  inputTest : Option MarkerTest
  callbackTest : Option MarkerTest
  markers : ℕ
  uses : ℕ
  prepared : Word

namespace CodecState

/-- The markers of a codec. -/
def markerView (s : CodecState) : MarkerView where
  ring := s.outputRing
  released := s.released
  held := s.markerBuffer
  passOnAt := s.passOnMarkerBufferAt
  done := s.doneCount
  atMarker := s.input.atMarker
  timed := s.input.timed
  inputTest := s.input.test
  callbackTest := s.callback.test
  markers := s.markers
  uses := s.uses
  prepared := s.mmeCommandPreparedCount

end CodecState

namespace MarkerView

/-- How often a marker with a certain number is in a place. -/
def markerAt (o : Option Marker) (n : ℕ) : ℕ := if o.map Marker.number = some n then 1 else 0

/-- How often a marker with a certain number is anywhere. -/
def places (v : MarkerView) (n : ℕ) : ℕ :=
  (v.ring.filterMap Output.number).count n + markerAt v.held n + markerAt v.timed n +
    markerAt (v.inputTest.bind MarkerTest.taken) n + markerAt (v.callbackTest.bind MarkerTest.taken) n

/-- A buffer has left. -/
def Left (v : MarkerView) (use : ℕ) : Prop := .frame use ∈ v.ring ∨ use ∈ v.released

/-- Decodes go on, and no marker moves. -/
structure Progress (v w : MarkerView) : Prop where
  ring : ∃ uses : List ℕ, w.ring = v.ring ++ uses.map .frame
  released : ∃ uses, w.released = v.released ++ uses
  held : w.held = v.held
  passOnAt : w.passOnAt = v.passOnAt
  done : v.done ≤ w.done
  atMarker : w.atMarker = true → v.atMarker = true
  timed : w.timed = v.timed
  inputTest : w.inputTest = v.inputTest
  callbackTest : w.callbackTest = v.callbackTest ∧ w.done = v.done ∨
    v.callbackTest = none ∧ w.callbackTest = some .testing
  markers : w.markers = v.markers

/-- What a test does. -/
def afterTest (v : MarkerView) : Option MarkerTest :=
  if v.held.isSome ∧ v.passOnAt ≤ v.done then some .taking else none

/-- What a step does to the markers. -/
inductive Effect (v : MarkerView) : MarkerView → Prop
  | progress {w : MarkerView} (h : v.Progress w) : Effect v w
  | arrive (hheld : v.held = none) : Effect v { v with atMarker := true }
  | time (hat : v.atMarker = true) (htimed : v.timed = none) :
      Effect v { v with
        passOnAt := v.prepared
        atMarker := false
        timed := some ⟨v.markers, v.uses⟩
        markers := v.markers + 1 }
  | set (m : Marker) (htimed : v.timed = some m) (hat : v.atMarker = false)
      (htest : v.inputTest = none)
      (hrace : v.callbackTest = some .taking → v.passOnAt ≤ v.done) :
      Effect v { v with held := some m, timed := none, inputTest := some .testing }
  | inputTesting (htest : v.inputTest = some .testing) :
      Effect v { v with inputTest := v.afterTest }
  | callbackTesting (htest : v.callbackTest = some .testing) :
      Effect v { v with callbackTest := v.afterTest }
  | inputTaking (htest : v.inputTest = some .taking)
      (hleft : ∀ m, v.held = some m → v.passOnAt ≤ v.done → ∀ use, use < m.uses → v.Left use) :
      Effect v { v with held := none, inputTest := v.held.map .inserting }
  | callbackTaking (htest : v.callbackTest = some .taking)
      (hleft : ∀ m, v.held = some m → v.passOnAt ≤ v.done → ∀ use, use < m.uses → v.Left use) :
      Effect v { v with held := none, callbackTest := v.held.map .inserting }
  | inputInserting (m : Marker) (htest : v.inputTest = some (.inserting m)) :
      Effect v { v with ring := v.ring ++ [.marker m], inputTest := none }
  | callbackInserting (m : Marker) (htest : v.callbackTest = some (.inserting m)) :
      Effect v { v with ring := v.ring ++ [.marker m], callbackTest := none }

/-- A test is going on that will find a marker that is due. -/
def Testing (t : Option MarkerTest) : Prop := t = some .testing ∨ t = some .taking

/-- Every marker is in one place; it is not held when it is due and nobody tests for it, and nothing of
before it follows it into the ring. -/
structure Placed (v : MarkerView) : Prop where
  once : ∀ n, v.places n = if n < v.markers then 1 else 0
  single : v.atMarker = true ∨ v.timed.isSome = true → v.held = none
  inputTaking : v.inputTest = some .taking → v.held.isSome = true → v.passOnAt ≤ v.done
  callbackTaking : v.callbackTest = some .taking → v.held.isSome = true → v.passOnAt ≤ v.done
  notLate : v.held.isSome = true → v.passOnAt ≤ v.done → Testing v.inputTest ∨ Testing v.callbackTest
  inputTaken : ∀ m, v.inputTest = some (.inserting m) → ∀ use, use < m.uses → v.Left use
  callbackTaken : ∀ m, v.callbackTest = some (.inserting m) → ∀ use, use < m.uses → v.Left use
  ordered : ∀ before m after, v.ring = before ++ .marker m :: after →
    ∀ use, use < m.uses → .frame use ∈ before ∨ use ∈ v.released

variable {ring before after : List Output} {m : Marker}

theorem append_frames {uses : List ℕ}
    (h : ring ++ uses.map .frame = before ++ .marker m :: after) :
    ∃ rest, ring = before ++ .marker m :: rest := by
  rcases List.append_eq_append_iff.mp h with ⟨middle, -, hframes⟩ | ⟨middle, hring, hrest⟩
  · have hmem : Output.marker m ∈ uses.map Output.frame := by
      rw [hframes]
      exact List.mem_append_right _ List.mem_cons_self
    obtain ⟨use, -, huse⟩ := List.mem_map.mp hmem
    cases huse
  · cases middle with
    | nil =>
      have hmem : Output.marker m ∈ uses.map Output.frame := by
        rw [← List.nil_append (uses.map Output.frame), ← hrest]
        exact List.mem_cons_self
      obtain ⟨use, -, huse⟩ := List.mem_map.mp hmem
      cases huse
    | cons x rest =>
      rw [List.cons_append, List.cons.injEq] at hrest
      exact ⟨rest, hrest.1 ▸ hring⟩

theorem append_marker {m m' : Marker}
    (h : ring ++ [.marker m'] = before ++ .marker m :: after) :
    (∃ rest, ring = before ++ .marker m :: rest) ∨ before = ring ∧ m = m' := by
  rcases List.eq_nil_or_concat after with rfl | ⟨rest, x, rfl⟩
  · obtain ⟨hring, hm⟩ := List.append_inj' h rfl
    cases hm
    exact .inr ⟨hring.symm, rfl⟩
  · refine .inl ⟨rest, ?_⟩
    have hsplit : ring ++ [.marker m'] = (before ++ .marker m :: rest) ++ [x] := by
      rw [h]
      simp
    exact (List.append_inj' hsplit rfl).1

variable {v w : MarkerView}

theorem Left.mono {use : ℕ} (h : v.Left use)
    (hring : ∀ x ∈ v.ring, x ∈ w.ring) (hreleased : ∀ x ∈ v.released, x ∈ w.released) : w.Left use :=
  h.imp (hring _) (hreleased _)

theorem Placed.progress (h : v.Placed) (hprogress : v.Progress w) : w.Placed := by
  obtain ⟨⟨uses, hring⟩, ⟨out, hreleased⟩, hheld, hpassOn, hdone, hat, htimed, hinput, hcallback,
    hmarkers⟩ := hprogress
  have hleft : ∀ use, v.Left use → w.Left use := by
    intro use huse
    refine huse.mono ?_ ?_
    · intro x hx
      rw [hring]
      exact List.mem_append_left _ hx
    · intro x hx
      rw [hreleased]
      exact List.mem_append_left _ hx
  have hframes : (uses.map Output.frame).filterMap Output.number = [] := by
    rw [List.filterMap_map]
    exact List.filterMap_eq_nil_iff.mpr fun _ _ => rfl
  constructor
  case once =>
    intro n
    have hplaces : w.places n = v.places n := by
      unfold places
      rw [hring, List.filterMap_append, hframes, List.append_nil, hheld, htimed, hinput]
      rcases hcallback with ⟨hsame, -⟩ | ⟨hbefore, hafter⟩
      · rw [hsame]
      · rw [hbefore, hafter]
        rfl
    rw [hplaces, hmarkers]
    exact h.once n
  case single =>
    intro hwaiting
    rw [hheld]
    exact h.single (hwaiting.imp hat fun ht => htimed ▸ ht)
  case inputTaking =>
    intro htaking hsome
    rw [hpassOn]
    exact BitVec.le_trans (h.inputTaking (hinput ▸ htaking) (hheld ▸ hsome)) hdone
  case callbackTaking =>
    intro htaking hsome
    rw [hpassOn]
    rcases hcallback with ⟨hsame, -⟩ | ⟨-, hafter⟩
    · exact BitVec.le_trans (h.callbackTaking (hsame ▸ htaking) (hheld ▸ hsome)) hdone
    · exact absurd (hafter.symm.trans htaking) (by simp)
  case notLate =>
    intro hsome hdue
    rcases hcallback with ⟨hsame, hsameDone⟩ | ⟨-, hafter⟩
    · rw [hinput, hsame]
      exact h.notLate (hheld ▸ hsome) (hsameDone ▸ hpassOn ▸ hdue)
    · exact .inr (.inl hafter)
  case inputTaken =>
    intro m hm use huse
    exact hleft use (h.inputTaken m (hinput ▸ hm) use huse)
  case callbackTaken =>
    intro m hm use huse
    rcases hcallback with ⟨hsame, -⟩ | ⟨-, hafter⟩
    · exact hleft use (h.callbackTaken m (hsame ▸ hm) use huse)
    · exact absurd (hafter.symm.trans hm) (by simp)
  case ordered =>
    intro before m after hsplit use huse
    rw [hring] at hsplit
    obtain ⟨rest, hbefore⟩ := append_frames hsplit
    rw [hreleased]
    exact (h.ordered before m rest hbefore use huse).imp_right (List.mem_append_left _)

/-- The same with the threads exchanged. -/
def swap (v : MarkerView) : MarkerView :=
  { v with inputTest := v.callbackTest, callbackTest := v.inputTest }

theorem Placed.swap (h : v.Placed) : v.swap.Placed where
  once n := by
      have hplaces := h.once n
      unfold places at hplaces ⊢
      unfold MarkerView.swap
      dsimp only
      omega
  single := h.single
  inputTaking := h.callbackTaking
  callbackTaking := h.inputTaking
  notLate hsome hdue := (h.notLate hsome hdue).symm
  inputTaken := h.callbackTaken
  callbackTaken := h.inputTaken
  ordered := h.ordered

theorem Placed.time (h : v.Placed) (hat : v.atMarker = true)
    (htimed : v.timed = none) :
    Placed { v with
      passOnAt := v.prepared
      atMarker := false
      timed := some ⟨v.markers, v.uses⟩
      markers := v.markers + 1 } := by
  have hheld : v.held = none := h.single (.inl hat)
  have hnone : v.held.isSome = false := by rw [hheld]; rfl
  constructor
  case once =>
    intro n
    have hplaces := h.once n
    unfold places at hplaces ⊢
    simp only [markerAt] at hplaces ⊢
    grind
  case single => exact fun _ => hheld
  case inputTaking => exact fun _ hsome => absurd (hsome.symm.trans hnone) Bool.noConfusion
  case callbackTaking => exact fun _ hsome => absurd (hsome.symm.trans hnone) Bool.noConfusion
  case notLate => exact fun hsome => absurd (hsome.symm.trans hnone) Bool.noConfusion
  case inputTaken => exact h.inputTaken
  case callbackTaken => exact h.callbackTaken
  case ordered => exact h.ordered

theorem Placed.set (h : v.Placed) (htimed : v.timed = some m)
    (hat : v.atMarker = false) (htest : v.inputTest = none)
    (hrace : v.callbackTest = some .taking → v.passOnAt ≤ v.done) :
    Placed { v with held := some m, timed := none, inputTest := some .testing } := by
  have hheld : v.held = none := h.single (.inr (by rw [htimed]; rfl))
  constructor
  case once =>
    intro n
    have hplaces := h.once n
    unfold places at hplaces ⊢
    grind [MarkerTest.taken]
  case single => exact fun hwaiting => by simp [hat] at hwaiting
  case inputTaking => exact fun htaking => by cases htaking
  case callbackTaking => exact fun htaking _ => hrace htaking
  case notLate => exact fun _ _ => .inl (.inl rfl)
  case inputTaken => exact fun _ hm => by cases hm
  case callbackTaken => exact h.callbackTaken
  case ordered => exact h.ordered

theorem Placed.testing (h : v.Placed) (htest : v.inputTest = some .testing) :
    Placed { v with inputTest := v.afterTest } := by
  have hafter : ∀ t, v.afterTest = some t → t = .taking ∧ v.passOnAt ≤ v.done := by
    intro t ht
    unfold afterTest at ht
    split at ht
    next hdue => exact ⟨(Option.some.inj ht).symm, hdue.2⟩
    next => cases ht
  have htaken : v.afterTest.bind MarkerTest.taken = none := by
    unfold afterTest
    split
    next => rfl
    next => rfl
  constructor
  case once =>
    intro n
    have hplaces := h.once n
    unfold places at hplaces ⊢
    rw [htest] at hplaces
    rw [htaken]
    exact hplaces
  case single => exact h.single
  case inputTaking => exact fun htaking _ => (hafter _ htaking).2
  case callbackTaking => exact h.callbackTaking
  case notLate =>
    intro hsome hdue
    exact .inl (.inr (if_pos ⟨hsome, hdue⟩))
  case inputTaken => exact fun m hm => by cases (hafter _ hm).1
  case callbackTaken => exact h.callbackTaken
  case ordered => exact h.ordered

theorem Placed.taking (h : v.Placed) (htest : v.inputTest = some .taking)
    (hleft : ∀ m, v.held = some m → v.passOnAt ≤ v.done → ∀ use, use < m.uses → v.Left use) :
    Placed { v with held := none, inputTest := v.held.map .inserting } := by
  constructor
  case once =>
    intro n
    have hplaces := h.once n
    unfold places at hplaces ⊢
    have htaken : (v.held.map MarkerTest.inserting).bind MarkerTest.taken = v.held := by
      cases v.held with
      | none => rfl
      | some m => rfl
    grind [MarkerTest.taken]
  case single => exact fun _ => rfl
  case inputTaking => exact fun _ hsome => by cases hsome
  case callbackTaking => exact fun _ hsome => by cases hsome
  case notLate => exact fun hsome => by cases hsome
  case inputTaken =>
    intro m hm
    obtain ⟨m', hheld, hm'⟩ := Option.map_eq_some_iff.mp hm
    cases hm'
    exact hleft m hheld (h.inputTaking htest (by rw [hheld]; rfl))
  case callbackTaken => exact h.callbackTaken
  case ordered => exact h.ordered

theorem Placed.inserting (h : v.Placed)
    (htest : v.inputTest = some (.inserting m)) :
    Placed { v with ring := v.ring ++ [.marker m], inputTest := none } := by
  have hmono : ∀ use, v.Left use →
      Left { v with ring := v.ring ++ [.marker m], inputTest := none } use :=
    fun use huse => huse.mono (fun _ => List.mem_append_left _) (fun _ => id)
  constructor
  case once =>
    intro n
    have hplaces := h.once n
    unfold places at hplaces ⊢
    rw [List.filterMap_append, List.count_append]
    simp only [markerAt, List.filterMap_cons, List.filterMap_nil, Output.number,
      List.count_singleton] at hplaces ⊢
    grind [MarkerTest.taken]
  case single => exact h.single
  case inputTaking => exact fun htaking => by cases htaking
  case callbackTaking => exact h.callbackTaking
  case notLate =>
    intro hsome hdue
    rcases h.notLate hsome hdue with hinput | hcallback
    · rw [htest] at hinput
      rcases hinput with hinput | hinput <;> cases hinput
    · exact .inr hcallback
  case inputTaken => exact fun _ hm => by cases hm
  case callbackTaken => exact fun m' hm use huse => hmono use (h.callbackTaken m' hm use huse)
  case ordered =>
    intro before m' after hsplit use huse
    rcases append_marker hsplit with ⟨rest, hbefore⟩ | ⟨hbefore, hm⟩
    · exact h.ordered before m' rest hbefore use huse
    · rw [hbefore]
      exact h.inputTaken m htest use (hm ▸ huse)

theorem Placed.effect (h : v.Placed) (heffect : Effect v w) : w.Placed := by
  cases heffect with
  | progress hprogress => exact h.progress hprogress
  | arrive hheld =>
    exact ⟨h.once, fun _ => hheld, h.inputTaking, h.callbackTaking, h.notLate, h.inputTaken,
      h.callbackTaken, h.ordered⟩
  | time hat htimed => exact h.time hat htimed
  | set m htimed hat htest hrace => exact h.set htimed hat htest hrace
  | inputTesting htest => exact h.testing htest
  | callbackTesting htest => exact (h.swap.testing htest).swap
  | inputTaking htest hleft => exact h.taking htest hleft
  | callbackTaking htest hleft => exact (h.swap.taking htest hleft).swap
  | inputInserting m htest => exact h.inserting htest
  | callbackInserting m htest => exact (h.swap.inserting htest).swap

end MarkerView

/-! ### What a step does to the markers -/

namespace InputPhase

/-- The thread of `Input` is busy with a marker. -/
def aboutMarker : InputPhase → Bool
  | .marker => true
  | .markerTimed _ => true
  | .markerTest _ => true
  | _ => false

theorem aboutMarker_facts {phase : InputPhase} (h : phase.aboutMarker = false) :
    phase.atMarker = false ∧ phase.timed = none ∧ phase.test = none := by
  cases phase <;> first | exact ⟨rfl, rfl, rfl⟩ | cases h

end InputPhase

namespace CodecState

variable {s t s' : CodecState}

theorem marker_view {v : MarkerView} (h : MarkerView.Effect s.markerView v)
    (ht : t.markerView = v) : MarkerView.Effect s.markerView t.markerView := ht ▸ h

variable {before : InputPhase}

theorem effect_noMarker (hbefore : s.input = before)
    (htimed : before.timed = none) (htest : before.test = none) (phase : InputPhase)
    (hphase : phase.aboutMarker = false) (uses out : List ℕ)
    (ht : t.markerView = { s.markerView with
      uses := t.uses
      prepared := t.mmeCommandPreparedCount
      ring := s.outputRing ++ uses.map .frame
      released := s.released ++ out
      atMarker := phase.atMarker
      timed := phase.timed
      inputTest := phase.test }) : MarkerView.Effect s.markerView t.markerView := by
  subst hbefore
  obtain ⟨hat, htimed', htest'⟩ := InputPhase.aboutMarker_facts hphase
  rw [ht]
  refine .progress ⟨⟨uses, rfl⟩, ⟨out, rfl⟩, rfl, rfl, BitVec.le_refl _, ?_, ?_, ?_, .inl ⟨rfl, rfl⟩, rfl⟩
  · intro h
    exact absurd (h.symm.trans hat) Bool.noConfusion
  · exact htimed'.trans htimed.symm
  · exact htest'.trans htest.symm

theorem effect_still (hbefore : s.input = before)
    (htimed : before.timed = none) (htest : before.test = none) (phase : InputPhase)
    (hphase : phase.aboutMarker = false)
    (ht : t.markerView = { s with
      uses := t.uses
      mmeCommandPreparedCount := t.mmeCommandPreparedCount
      input := phase }.markerView) :
    MarkerView.Effect s.markerView t.markerView := by
  refine effect_noMarker hbefore htimed htest phase hphase [] [] ?_
  rw [ht]
  simp [markerView]
  rfl

theorem closing_aboutMarker (current : Option ℕ) :
    (current.elim InputPhase.idle fun i => .closing i none).aboutMarker = false := by
  cases current with
  | none => rfl
  | some i => rfl

theorem afterParameters_aboutMarker (f : Frame) : (afterParameters f).aboutMarker = false := by
  unfold afterParameters
  split
  next => rfl
  next => rfl

theorem lookAtCurrent_aboutMarker (s : CodecState) (f : Frame) :
    (s.lookAtCurrent f).aboutMarker = false := by
  unfold lookAtCurrent
  split
  next => rfl
  next =>
    split
    next => rfl
    next => rfl

theorem insertBuffer_ring (s : CodecState) (i : ℕ) :
    (s.insertBuffer i).outputRing =
      s.outputRing ++ ((s.bufferState i).use.toList.map Output.frame) := by
  unfold insertBuffer
  rw [← Option.toList_map]

theorem closeBuffer_ring (s : CodecState) (i : ℕ) :
    ∃ uses : List ℕ, (s.closeBuffer i).outputRing = s.outputRing ++ uses.map .frame := by
  unfold closeBuffer
  dsimp only
  split
  next => exact ⟨_, insertBuffer_ring _ i⟩
  next => exact ⟨[], (List.append_nil _).symm⟩

theorem forgetIndex_ring (s : CodecState) (i : ℕ) : (s.forgetIndex i).outputRing = s.outputRing := by
  obtain ⟨current, hframe⟩ := s.forgetIndex_frame i
  rw [hframe]

theorem releaseDecodeContext_ring (s : CodecState) (i : ℕ) :
    ∃ uses : List ℕ, (s.releaseDecodeContext i).1.outputRing = s.outputRing ++ uses.map .frame := by
  obtain ⟨-, h⟩ | ⟨-, -, h⟩ | ⟨-, -, -, h⟩ | ⟨-, -, -, h⟩ := s.releaseDecodeContext_cases i
  · exact ⟨[], by rw [h]; exact (List.append_nil _).symm⟩
  · refine ⟨[], ?_⟩
    rw [h, forgetIndex_ring]
    exact (List.append_nil _).symm
  · exact ⟨[], by rw [h]; exact (List.append_nil _).symm⟩
  · refine ⟨((s.decodeDone i).bufferState i).use.toList, ?_⟩
    rw [h, forgetIndex_ring, insertBuffer_ring]
    rfl

variable {c : Command} {rest : List Command}

theorem doneCount_le (h : s.commandView.Sequenced)
    (huncounted : s.commandView.uncounted = c :: rest) :
    s.doneCount ≤ s.mmeCommandAbortedCount + (s.mmeCommandCompletedCount + 1) := by
  have haborted : s.mmeCommandAbortedCount = 0 := h.aborted
  have hsucc : (s.mmeCommandCompletedCount + 1).toNat = s.mmeCommandCompletedCount.toNat + 1 :=
    (h.first huncounted).2.2.1
  unfold doneCount
  rw [haborted, zero_add, zero_add, BitVec.le_def, hsucc]
  exact Nat.le_succ _

theorem complete_markerEffect
    (h : s.commandView.Sequenced) (hphase : s.callback = .idle) (hhead : s.transformer = c :: rest) :
    MarkerView.Effect s.markerView ({ s with transformer := rest }.complete c).markerView := by
  have huncounted : s.commandView.uncounted = c :: (rest ++ s.input.command.toList) := by
    unfold CommandView.uncounted commandView
    rw [hphase, hhead]
    rfl
  have htest : s.markerView.callbackTest = none := congrArg CallbackPhase.test hphase
  obtain ⟨kind, number, discarded⟩ := c
  cases kind with
  | setGlobalTransformParams =>
    refine .progress ⟨⟨[], (List.append_nil _).symm⟩, ⟨[], (List.append_nil _).symm⟩, rfl, rfl,
      doneCount_le h huncounted, id, rfl, rfl, .inr ⟨htest, rfl⟩, rfl⟩
  | transform i use =>
    obtain ⟨uses, hring⟩ := releaseDecodeContext_ring { s with transformer := rest } i
    obtain ⟨states, current, ring, hframe⟩ :=
      releaseDecodeContext_frame { s with transformer := rest } i
    rw [hframe] at hring
    unfold complete
    dsimp only
    rw [hframe]
    have hprogress : ∀ phase : CallbackPhase, phase.test = none →
        s.markerView.Progress { s.markerView with ring := ring, callbackTest := phase.test } := by
      intro phase hnone
      exact ⟨⟨uses, hring⟩, ⟨[], (List.append_nil _).symm⟩, rfl, rfl, BitVec.le_refl _, id, rfl, rfl,
        .inl ⟨hnone.trans htest.symm, rfl⟩, rfl⟩
    split
    next => exact .progress (hprogress (.completed _) rfl)
    next => exact .progress (hprogress (.completed _) rfl)
    next => exact .progress (hprogress (.dropping _ _ _) rfl)

/-- When a marker is due, the buffers obtained before it have left. -/
def LeftWhenDue (s : CodecState) : Prop :=
  ∀ m, s.markerBuffer = some m → s.passOnMarkerBufferAt ≤ s.doneCount →
    ∀ use, use < m.uses → s.HasLeft use

/-- A marker arrives when none is held and no buffer is partly decoded, and it is set when the other
thread is not about to take an earlier one. -/
def MarkerApart (s : CodecState) (label : Label) : Prop :=
  (label = .inputMarker → s.markerBuffer = none ∧ s.currentDecodeBufferIndex = none) ∧
    (label = .setMarker → s.callback = .markerTest .taking → s.passOnMarkerBufferAt ≤ s.doneCount)

instance (s : CodecState) (label : Label) : Decidable (s.MarkerApart label) :=
  inferInstanceAs (Decidable (_ ∧ _))

theorem callback_eq_of_test {t : MarkerTest} (h : s.callback.test = some t) :
    s.callback = .markerTest t := by
  cases hcallback : s.callback with
  | markerTest t' =>
    rw [hcallback] at h
    exact congrArg _ (Option.some.inj h)
  | _ =>
    rw [hcallback] at h
    cases h

theorem discard_markerFacts (phase : InputPhase) : phase.discard.atMarker = phase.atMarker ∧
    phase.discard.timed = phase.timed ∧ phase.discard.test = phase.test := by
  cases phase <;> exact ⟨rfl, rfl, rfl⟩

theorem withTest_view (s : CodecState) (test : Option MarkerTest) :
    { s with input := test.elim .idle .markerTest }.markerView =
      { s.markerView with atMarker := false, timed := none, inputTest := test } := by
  cases test with
  | none => rfl
  | some t => rfl

theorem withCallbackTest_view (s : CodecState) (test : Option MarkerTest) :
    { s with callback := test.elim .idle .markerTest }.markerView =
      { s.markerView with callbackTest := test } := by
  cases test with
  | none => rfl
  | some t => rfl

variable {label : Label}

theorem step_markerEffect (hrunning : s.halted = false)
    (h : s.commandView.Sequenced) (hleft : s.LeftWhenDue) (hlabel : s.MarkerApart label)
    (hstep : Step s label s') : MarkerView.Effect s.markerView s'.markerView := by
  cases hstep with
  | input f hphase =>
    refine effect_still hphase rfl rfl _ ?_ rfl
    split
    next => rfl
    next => exact afterParameters_aboutMarker f
  | partialOutput hphase => exact effect_still hphase rfl rfl _ (closing_aboutMarker _) rfl
  | inputMarker hphase =>
    have hheld : s.markerView.held = none := (hlabel.1 rfl).1
    refine marker_view (.arrive hheld) ?_
    cases s
    cases hphase
    cases hheld
    rfl
  | parametersError hphase => exact effect_still hphase rfl rfl .idle rfl rfl
  | obtainError hphase => exact effect_still hphase rfl rfl _ (closing_aboutMarker _) rfl
  | fillError hphase => exact effect_still hphase rfl rfl .idle rfl rfl
  | markerError hphase => exact effect_still hphase rfl rfl .idle rfl rfl
  | abortParameters hphase hhalted => exact absurd (hhalted.symm.trans hrunning) Bool.noConfusion
  | @countParameters f hphase => exact effect_still hphase rfl rfl (.parametersCounted f _) rfl rfl
  | abortDecode hphase hhalted => exact absurd (hhalted.symm.trans hrunning) Bool.noConfusion
  | @countDecode f i use hphase => exact effect_still hphase rfl rfl (.counted f i use _) rfl rfl
  | sendParameters hphase =>
    exact effect_still hphase rfl rfl _ (afterParameters_aboutMarker _) rfl
  | refuseParameters hphase => exact effect_still hphase rfl rfl .idle rfl rfl
  | @sendDecode f i use c hphase => exact effect_still hphase rfl rfl (.sent f) rfl rfl
  | @refuseDecode f i use c hphase => exact effect_still hphase rfl rfl (.failed i use) rfl rfl
  | look hphase => exact effect_still hphase rfl rfl _ (lookAtCurrent_aboutMarker _ _) rfl
  | @close i next hphase =>
    obtain ⟨uses, hring⟩ := s.closeBuffer_ring i
    obtain ⟨states, ring, hframe⟩ := s.closeBuffer_frame i
    rw [hframe] at hring ⊢
    refine effect_noMarker hphase rfl rfl (.closed next) rfl uses [] ?_
    rw [← hring, List.append_nil]
    rfl
  | @forget next hphase =>
    refine effect_still hphase rfl rfl (next.elim .idle .obtain) ?_ rfl
    cases next with
    | none => rfl
    | some f => rfl
  | @getDecodeBuffer f i hphase hnone hfree => exact effect_still hphase rfl rfl (.fill f) rfl rfl
  | @reuse f hphase hcurrent => exact effect_still hphase rfl rfl (.fill f) rfl rfl
  | @launch f i use hphase hcurrent huse =>
    exact effect_still hphase rfl rfl (.launched f i use) rfl rfl
  | finish hphase => exact effect_still hphase rfl rfl .idle rfl rfl
  | @release i use hphase =>
    obtain ⟨uses, hring⟩ := s.releaseDecodeContext_ring i
    obtain ⟨states, current, ring, hframe⟩ := s.releaseDecodeContext_frame i
    rw [hframe] at hring ⊢
    refine effect_noMarker hphase rfl rfl (if (s.releaseDecodeContext i).2 = ReleaseResult.discarding
      then .dropping i use else .idle) ?_ uses [] ?_
    · split
      next => rfl
      next => rfl
    · rw [← hring, List.append_nil]
      rfl
  | @drop i use hphase =>
    refine effect_noMarker hphase rfl rfl (.dropped i use) rfl [] (s.bufferState i).use.toList ?_
    rw [List.map_nil, List.append_nil]
    rfl
  | @relock i use hphase =>
    obtain ⟨current, hframe⟩ := s.forgetIndex_frame i
    rw [hframe]
    exact effect_still hphase rfl rfl .idle rfl rfl
  | setMarkerTime hphase =>
    refine marker_view (.time (congrArg InputPhase.atMarker hphase)
      (congrArg InputPhase.timed hphase)) ?_
    cases s
    cases hphase
    rfl
  | @setMarker m hphase =>
    refine marker_view (.set m (congrArg InputPhase.timed hphase) (congrArg InputPhase.atMarker hphase)
      (congrArg InputPhase.test hphase) ?_) ?_
    · intro htaking
      exact hlabel.2 rfl (callback_eq_of_test htaking)
    · cases s
      cases hphase
      rfl
  | @testMarker t hphase =>
    have htest : s.markerView.inputTest = some t := congrArg InputPhase.test hphase
    cases t with
    | testing =>
      refine marker_view (.inputTesting htest) ((withTest_view _ _).trans ?_)
      cases s
      cases hphase
      rfl
    | taking =>
      refine marker_view (.inputTaking htest hleft) ((withTest_view _ _).trans ?_)
      cases s
      cases hphase
      rfl
    | inserting m =>
      refine marker_view (.inputInserting m htest) ?_
      cases s
      cases hphase
      rfl
  | callback hphase hhead => exact complete_markerEffect h hphase hhead
  | @callbackDrop c i use hphase =>
    have htest : s.callback.test = none := congrArg CallbackPhase.test hphase
    exact .progress ⟨⟨[], (List.append_nil _).symm⟩, ⟨(s.bufferState i).use.toList, rfl⟩, rfl, rfl,
      BitVec.le_refl _, id, rfl, rfl, .inl ⟨htest.symm, rfl⟩, rfl⟩
  | @callbackRelock c i use hphase =>
    have htest : s.callback.test = none := congrArg CallbackPhase.test hphase
    obtain ⟨current, hframe⟩ := s.forgetIndex_frame i
    rw [hframe]
    exact .progress ⟨⟨[], (List.append_nil _).symm⟩, ⟨[], (List.append_nil _).symm⟩, rfl, rfl,
      BitVec.le_refl _, id, rfl, rfl, .inl ⟨htest.symm, rfl⟩, rfl⟩
  | @callbackCount c hphase =>
    have htest : s.callback.test = none := congrArg CallbackPhase.test hphase
    have huncounted : s.commandView.uncounted = c :: s.commandView.waiting := by
      unfold CommandView.uncounted
      rw [show s.commandView.completing = some c from congrArg CallbackPhase.command hphase]
      rfl
    exact .progress ⟨⟨[], (List.append_nil _).symm⟩, ⟨[], (List.append_nil _).symm⟩, rfl, rfl,
      doneCount_le h huncounted, id, rfl, rfl, .inr ⟨htest, rfl⟩, rfl⟩
  | @callbackTestMarker t hphase =>
    have htest : s.markerView.callbackTest = some t := congrArg CallbackPhase.test hphase
    cases t with
    | testing => exact marker_view (.callbackTesting htest) (withCallbackTest_view _ _)
    | taking => exact marker_view (.callbackTaking htest hleft) (withCallbackTest_view _ _)
    | inserting m => exact marker_view (.callbackInserting m htest) rfl
  | discard =>
    obtain ⟨hat, htimed, htest⟩ := discard_markerFacts s.input
    exact .progress ⟨⟨[], (List.append_nil _).symm⟩, ⟨[], (List.append_nil _).symm⟩, rfl, rfl,
      BitVec.le_refl _, fun h => hat.symm.trans h, htimed, htest, .inl ⟨rfl, rfl⟩, rfl⟩
  | halt =>
    exact .progress ⟨⟨[], (List.append_nil _).symm⟩, ⟨[], (List.append_nil _).symm⟩, rfl, rfl,
      BitVec.le_refl _, id, rfl, rfl, .inl ⟨rfl, rfl⟩, rfl⟩
  | newSession hhalted => exact absurd (hhalted.symm.trans hrunning) Bool.noConfusion
  | free i huse hleft' =>
    exact .progress ⟨⟨[], (List.append_nil _).symm⟩, ⟨[], (List.append_nil _).symm⟩, rfl, rfl,
      BitVec.le_refl _, id, rfl, rfl, .inl ⟨rfl, rfl⟩, rfl⟩

/-! ### Runs with markers -/

/-- The command of a callback that releases a buffer is the one that decoded into it. -/
def CallbackFits (s : CodecState) : Prop :=
  ∀ p, s.callback.beingReleased = some p → ∃ c, s.callback.command = some c ∧ c.kind.context = some p

/-- The invariant of a running codec with markers. -/
structure Marking (s : CodecState) : Prop where
  kept : s.Kept
  sequenced : s.commandView.Sequenced
  callbackFits : s.CallbackFits
  single : s.input.atMarker = true → s.currentDecodeBufferIndex = none
  placed : s.markerView.Placed
  before : ∀ m, s.markerBuffer = some m ∨ s.input.timed = some m →
    s.useView.Before m s.passOnMarkerBufferAt.toNat

/-- When a marker is due, the buffers obtained before it have left: the decodes that are still to be
completed are of later commands, and those are into later buffers. -/
theorem Marking.leftWhenDue (h : s.Marking) : s.LeftWhenDue := by
  intro m hheld hdue use huse
  by_contra hleft
  have hbefore := h.before m (.inl hheld)
  have hdone : s.passOnMarkerBufferAt.toNat ≤ s.mmeCommandCompletedCount.toNat := by
    have haborted : s.mmeCommandAbortedCount = 0 := h.sequenced.aborted
    rw [doneCount, haborted, zero_add] at hdue
    exact hdue
  -- A command that is not counted is not of before the marker, nor is its buffer.
  have hlate : ∀ c ∈ s.commandView.uncounted, ∀ p, c.kind.context = some p → ¬ p.2 < m.uses := by
    intro c hc p hp hlt
    have hsent := hbefore.sent (p.2, c.number)
      (List.mem_filterMap.mpr ⟨c, hc, by unfold useAndNumber; rw [hp]; rfl⟩) hlt
    have hnumber : s.mmeCommandCompletedCount.toNat ≤ c.number := (h.sequenced.number_mem hc).1
    exact absurd hsent (Nat.not_lt.mpr (hdone.trans hnumber))
  have hinput : ∀ p, p ∈ s.input.context.toList ++ s.input.beingReleased.toList →
      ¬ p.2 < m.uses := fun p hp =>
    Nat.not_lt.mpr (hbefore.launched p.2 (List.mem_map.mpr ⟨p, hp, rfl⟩))
  obtain ⟨i, hi, hstays⟩ := h.kept.delivered.stays use (huse.trans_le hbefore.usesLe) hleft
  obtain ⟨hcurrent, -⟩ | ⟨-, hcontext⟩ | hdropping := hstays
  · have huse' := hbefore.current use (Option.bind_eq_some_iff.mpr ⟨i, hcurrent, hi⟩)
    exact absurd huse (Nat.not_lt.mpr huse')
  · rcases List.mem_append.mp hcontext with hsent | hlaunched
    · obtain ⟨c, hc, hp⟩ := List.mem_filterMap.mp hsent
      exact hlate c (List.mem_append_right _ (List.mem_append_left _ hc)) (i, use) hp huse
    · exact hinput (i, use) (List.mem_append_left _ hlaunched) huse
  · rcases List.mem_append.mp hdropping with hcallback | hlaunched
    · obtain ⟨c, hc, hp⟩ := h.callbackFits (i, use) (Option.mem_toList.mp hcallback)
      exact hlate c (List.mem_append_left _ (Option.mem_toList.mpr hc)) (i, use) hp huse
    · exact hinput (i, use) (List.mem_append_right _ hlaunched) huse

/-- Commands are sent, fewer than `2 ^ 32`, and markers and releases do not meet others. -/
def MarkersMeant (s : CodecState) (label : Label) : Prop :=
  s.Sent label ∧ (label = .count → s.commands + 1 < 2 ^ 32) ∧ s.NoLaterUse label ∧ s.MarkerApart label

instance (s : CodecState) (label : Label) : Decidable (s.MarkersMeant label) :=
  inferInstanceAs (Decidable (_ ∧ _))

theorem callbackFits_of_none (h : s.callback.beingReleased = none) :
    s.CallbackFits := fun _ hp => absurd (h.symm.trans hp) (Option.some_ne_none _).symm

theorem callbackFits_step (h : s.CallbackFits)
    (hstep : Step s label s') : s'.CallbackFits := by
  cases hstep with
  | @close i next hphase =>
    obtain ⟨states, ring, hframe⟩ := s.closeBuffer_frame i
    rw [hframe]
    exact h
  | @release i use hphase =>
    obtain ⟨states, current, ring, hframe⟩ := s.releaseDecodeContext_frame i
    rw [hframe]
    exact h
  | @relock i use hphase =>
    obtain ⟨current, hframe⟩ := s.forgetIndex_frame i
    rw [hframe]
    exact h
  | @testMarker t hphase =>
    obtain ⟨held, ring, hframe⟩ := s.passMarker_frame t
    rw [hframe]
    exact h
  | @callback c rest hphase hhead =>
    obtain ⟨kind, number, discarded⟩ := c
    cases kind with
    | setGlobalTransformParams => exact callbackFits_of_none rfl
    | transform i use =>
      unfold complete
      dsimp only
      split
      next => exact callbackFits_of_none rfl
      next => exact callbackFits_of_none rfl
      next => exact fun p hp => ⟨_, rfl, hp⟩
  | callbackDrop => exact callbackFits_of_none rfl
  | callbackRelock => exact callbackFits_of_none rfl
  | callbackCount => exact callbackFits_of_none rfl
  | @callbackTestMarker t hphase =>
    refine callbackFits_of_none ?_
    cases (s.passMarker t).2 with
    | none => rfl
    | some t' => rfl
  | _ => exact h

theorem forgetIndex_current_none (i : ℕ) (h : s.currentDecodeBufferIndex = none) :
    (s.forgetIndex i).currentDecodeBufferIndex = none := by
  unfold forgetIndex
  split
  next => rfl
  next => exact h

theorem releaseDecodeContext_current_none (i : ℕ)
    (h : s.currentDecodeBufferIndex = none) :
    (s.releaseDecodeContext i).1.currentDecodeBufferIndex = none := by
  obtain ⟨-, hr⟩ | ⟨-, -, hr⟩ | ⟨-, -, -, hr⟩ | ⟨-, -, -, hr⟩ := s.releaseDecodeContext_cases i
  · rw [hr]
    exact h
  · rw [hr]
    exact forgetIndex_current_none i h
  · rw [hr]
    exact h
  · rw [hr]
    exact forgetIndex_current_none i h

/-- While a marker arrives no buffer becomes the current one. -/
theorem single_step (hlabel : s.MarkerApart label)
    (h : s.input.atMarker = true → s.currentDecodeBufferIndex = none) (hstep : Step s label s') :
    s'.input.atMarker = true → s'.currentDecodeBufferIndex = none := by
  have hnone : ∀ (phase : InputPhase) {P : Prop}, phase.aboutMarker = false →
      phase.atMarker = true → P := fun phase P hphase hat =>
    absurd (hat.symm.trans (InputPhase.aboutMarker_facts hphase).1) Bool.noConfusion
  cases hstep with
  | input f hphase =>
    refine hnone _ ?_
    split
    next => rfl
    next => exact afterParameters_aboutMarker f
  | partialOutput hphase => exact hnone _ (closing_aboutMarker _)
  | inputMarker hphase => exact fun _ => (hlabel.1 rfl).2
  | obtainError hphase => exact hnone _ (closing_aboutMarker _)
  | abortParameters hphase hhalted => exact hnone _ (afterParameters_aboutMarker _)
  | sendParameters hphase => exact hnone _ (afterParameters_aboutMarker _)
  | look hphase => exact hnone _ (lookAtCurrent_aboutMarker _ _)
  | forget hphase => exact fun _ => rfl
  | release hphase =>
    refine hnone _ ?_
    split
    next => rfl
    next => rfl
  | @testMarker t hphase =>
    intro hat
    cases htest : (s.passMarker t).2 with
    | none =>
      rw [htest] at hat
      cases hat
    | some t' =>
      rw [htest] at hat
      cases hat
  | @callback c rest hphase hhead =>
    rw [complete_input]
    intro hat
    obtain ⟨kind, number, discarded⟩ := c
    cases kind with
    | setGlobalTransformParams => exact h hat
    | transform i use =>
      have hcurrent := releaseDecodeContext_current_none (s := { s with transformer := rest }) i
        (h hat)
      unfold complete
      dsimp only
      split
      next => exact hcurrent
      next => exact hcurrent
      next => exact hcurrent
  | callbackDrop => exact h
  | @callbackRelock c i use hphase =>
    intro hat
    obtain ⟨current, hframe⟩ := s.forgetIndex_frame i
    have hinput : (s.forgetIndex i).input = s.input := by rw [hframe]
    exact forgetIndex_current_none i (h (hinput ▸ hat))
  | callbackCount => exact h
  | @callbackTestMarker t hphase =>
    obtain ⟨held, ring, hframe⟩ := s.passMarker_frame t
    rw [hframe]
    exact h
  | discard => exact fun hat => h ((discard_markerFacts s.input).1.symm.trans hat)
  | halt => exact h
  | newSession => exact fun _ => rfl
  | free => exact h
  | _ => exact fun hat => absurd hat Bool.false_ne_true

variable {m : Marker}

theorem effect_marker {v w : MarkerView} (heffect : MarkerView.Effect v w)
    (hm : w.held = some m ∨ w.timed = some m) :
    (v.held = some m ∨ v.timed = some m) ∧ w.passOnAt = v.passOnAt ∨
      v.atMarker = true ∧ w.passOnAt = v.prepared ∧ (v.held = some m ∨ m.uses = v.uses) := by
  cases heffect with
  | progress hprogress =>
    rw [hprogress.held, hprogress.timed] at hm
    exact .inl ⟨hm, hprogress.passOnAt⟩
  | arrive hheld => exact .inl ⟨hm, rfl⟩
  | time hat htimed =>
    refine .inr ⟨hat, rfl, hm.imp_right ?_⟩
    rintro ⟨⟩
    rfl
  | set m' htimed hat htest hrace =>
    refine .inl ⟨.inr ?_, rfl⟩
    rcases hm with hheld | hnone
    · exact htimed.trans hheld
    · cases hnone
  | inputTesting htest => exact .inl ⟨hm, rfl⟩
  | callbackTesting htest => exact .inl ⟨hm, rfl⟩
  | inputTaking htest hleft => exact .inl ⟨.inr (hm.resolve_left (Option.some_ne_none m).symm), rfl⟩
  | callbackTaking htest hleft => exact .inl ⟨.inr (hm.resolve_left (Option.some_ne_none m).symm), rfl⟩
  | inputInserting m htest => exact .inl ⟨hm, rfl⟩
  | callbackInserting m htest => exact .inl ⟨hm, rfl⟩

theorem atMarker_input {phase : InputPhase} (h : phase.atMarker = true) : phase = .marker := by
  cases phase with
  | marker => rfl
  | _ => cases h

theorem Marking.before_now (h : s.Marking) (hat : s.input.atMarker = true)
    (huses : m.uses = s.uses) : s.useView.Before m s.mmeCommandPreparedCount.toNat where
  usesLe := huses.le
  boundLe := h.sequenced.prepared.le
  current use huse := by
      have hnone := h.single hat
      rw [useView, hnone] at huse
      cases huse
  launched use huse := by
      rw [useView, launchedUses, atMarker_input hat] at huse
      cases huse
  sent p hp _ := by
      obtain ⟨c, hc, hcp⟩ := List.mem_filterMap.mp hp
      obtain ⟨q, -, rfl⟩ := Option.map_eq_some_iff.mp hcp
      have hprepared : s.mmeCommandPreparedCount.toNat = s.commands := h.sequenced.prepared
      rw [hprepared]
      exact (h.sequenced.number_mem hc).2

theorem marking_step (h : s.Marking) (hlabel : s.MarkersMeant label)
    (hstep : s.step label = some s') : s'.Marking := by
  obtain ⟨hsent, hlt, hlater, hapart⟩ := hlabel
  have hcases := step_cases hstep
  have heffect := step_markerEffect h.kept.running h.sequenced h.leftWhenDue hapart hcases
  have hgrows := step_grows h.kept hlater hcases
  constructor
  case kept => exact kept_step h.kept hlater hstep
  case sequenced => exact sequenced_step h.sequenced hsent hlt hstep
  case callbackFits => exact callbackFits_step h.callbackFits hcases
  case single => exact single_step hapart h.single hcases
  case placed => exact h.placed.effect heffect
  case before =>
    intro m hm
    rcases effect_marker heffect hm with ⟨hold, hpassOn⟩ | ⟨hat, hpassOn, hnew⟩
    · have hsame : s'.passOnMarkerBufferAt = s.passOnMarkerBufferAt := hpassOn
      rw [hsame]
      exact (h.before m hold).grows hgrows
    · have htime : s'.passOnMarkerBufferAt = s.mmeCommandPreparedCount := hpassOn
      have hheld : s.markerBuffer = none := h.placed.single (.inl hat)
      have huses : m.uses = s.uses :=
        hnew.resolve_left fun hm => absurd (hheld.symm.trans hm) (Option.some_ne_none m).symm
      rw [htime]
      exact (h.before_now hat huses).grows hgrows

theorem start_marking : start.Marking where
  kept := start_kept
  sequenced := ⟨rfl, rfl, rfl, rfl⟩
  callbackFits := callbackFits_of_none rfl
  single _ := rfl
  placed := by
    constructor
    case once => exact fun n => (if_neg (Nat.not_lt_zero n)).symm
    case single => exact fun _ => rfl
    case inputTaking => exact fun htaking => by cases htaking
    case callbackTaking => exact fun htaking => by cases htaking
    case notLate => exact fun hsome => by cases hsome
    case inputTaken => exact fun _ hm => by cases hm
    case callbackTaken => exact fun _ hm => by cases hm
    case ordered => exact fun before m after hring => absurd hring (by simp [start, markerView])
  before m hm := by
    rcases hm with hheld | htimed
    · cases hheld
    · cases htimed

/-- The commands that the transformer has accepted, and that are not completed. -/
def accepted (s : CodecState) : List Command := s.callback.command.toList ++ s.transformer

/-- The counts agree with the accepted commands when none is being sent; every marker is in one place,
is held only while a command of before it is not completed or it is being looked for, and follows in the
ring the buffers of the decodes before it. -/
structure Agreed (s : CodecState) : Prop where
  balanced : s.input.command = none →
    s.mmeCommandPreparedCount - (s.mmeCommandCompletedCount + s.mmeCommandAbortedCount) =
      BitVec.ofNat 32 s.accepted.length
  once : ∀ n, s.markerView.places n = if n < s.markers then 1 else 0
  notLate : s.markerBuffer.isSome = true →
    MarkerView.Testing s.input.test ∨ MarkerView.Testing s.callback.test ∨
      ∃ c ∈ s.commandView.uncounted, c.number < s.passOnMarkerBufferAt.toNat
  ordered : ∀ before m after, s.outputRing = before ++ .marker m :: after →
    ∀ use, use < m.uses → .frame use ∈ before ∨ use ∈ s.released

theorem Marking.waits (h : s.Marking) (hheld : s.markerBuffer = some m)
    (hdue : ¬ s.passOnMarkerBufferAt ≤ s.doneCount) :
    ∃ c ∈ s.commandView.uncounted, c.number < s.passOnMarkerBufferAt.toNat := by
  have hbound := (h.before m (.inl hheld)).boundLe
  have hdone : s.mmeCommandCompletedCount.toNat < s.passOnMarkerBufferAt.toNat := by
    have haborted : s.mmeCommandAbortedCount = 0 := h.sequenced.aborted
    rw [doneCount, haborted, zero_add, BitVec.le_def] at hdue
    exact Nat.not_le.mp hdue
  have htotal := h.sequenced.total
  cases huncounted : s.commandView.uncounted with
  | nil =>
    rw [huncounted] at htotal
    have hle : s.passOnMarkerBufferAt.toNat ≤ s.commandView.commands := hbound
    have hlt : s.commandView.completed.toNat < s.passOnMarkerBufferAt.toNat := hdone
    simp only [List.length_nil] at htotal
    omega
  | cons c rest =>
    refine ⟨c, List.mem_cons_self, ?_⟩
    rw [(h.sequenced.first huncounted).1]
    exact hdone

theorem Marking.balanced (h : s.Marking) (hcommand : s.input.command = none) :
    s.mmeCommandPreparedCount - (s.mmeCommandCompletedCount + s.mmeCommandAbortedCount) =
      BitVec.ofNat 32 s.accepted.length := by
  have haborted : s.mmeCommandAbortedCount = 0 := h.sequenced.aborted
  have hprepared : s.mmeCommandPreparedCount.toNat = s.commands := h.sequenced.prepared
  have htotal : s.mmeCommandCompletedCount.toNat + s.commandView.uncounted.length = s.commands :=
    h.sequenced.total
  have huncounted : s.commandView.uncounted = s.accepted := by
    unfold CommandView.uncounted commandView accepted
    rw [hcommand]
    exact congrArg _ (List.append_nil _)
  rw [huncounted] at htotal
  rw [haborted, add_zero]
  apply BitVec.eq_of_toNat_eq
  rw [BitVec.toNat_sub, BitVec.toNat_ofNat]
  omega

theorem Marking.agreed (h : s.Marking) : s.Agreed where
  balanced := h.balanced
  once := h.placed.once
  notLate hsome := by
      by_cases hdue : s.passOnMarkerBufferAt ≤ s.doneCount
      · exact (h.placed.notLate hsome hdue).imp_right .inl
      · obtain ⟨m, hheld⟩ := Option.isSome_iff_exists.mp hsome
        exact .inr (.inr (h.waits hheld hdue))
  ordered := h.placed.ordered

/-- **Counts and markers**: in every run in which all commands are sent, a marker does not arrive while
another is held or a buffer is partly decoded, and nothing of one use is done late to another, the counts
agree with the accepted commands, and every marker is output once, after the decodes before it and not
later than the last of them. -/
theorem run_agreed {labels : List Label} {s : CodecState}
    (hlabels : Lts.Along step MarkersMeant start labels) (h : Lts.run step start labels = some s) :
    s.Agreed :=
  (Lts.run_invariant_along (I := Marking) (fun _ _ _ ht hlabel hstep => marking_step ht hlabel hstep)
    start_marking hlabels h).agreed

/-- A decode is sent, then a marker, and the decode is completed. -/
def markerAfterDecode : List Label :=
  inputFrame 0 ++ [.inputMarker, .setMarkerTime, .setMarker, .testMarker, .callback, .callbackCount,
    .callbackTestMarker, .callbackTestMarker, .callbackTestMarker]

/-- `run_agreed` over a marker that waits for a decode. -/
theorem run_agreed_marker : ∃ s, Lts.run step start markerAfterDecode = some s ∧
    s.outputRing = [.frame 0, .marker ⟨0, 1⟩] ∧ s.Agreed := by
  have hlabels : Lts.Along step MarkersMeant start markerAfterDecode := by decide +kernel
  exact ⟨_, rfl, rfl, run_agreed hlabels rfl⟩

/-- The transformer does not accept a decode; then a marker arrives. -/
def markerAfterRefusal : List Label :=
  [.input wholeFrame, .look, .getDecodeBuffer 0, .launch, .count, .send false, .release,
    .inputMarker, .setMarkerTime, .setMarker, .testMarker]

/-- After a command that is not accepted the counts do not agree, and a marker is held for ever. -/
theorem not_run_agreed_refused :
    ¬ ∀ (labels : List Label) (s : CodecState), (∀ label ∈ labels, label ≠ .halt) →
      Lts.run step start labels = some s → s.Agreed := by
  intro hall
  have hlabels : ∀ label ∈ markerAfterRefusal, label ≠ .halt := by decide +kernel
  have hagreed := hall markerAfterRefusal _ hlabels rfl
  have hbalanced := hagreed.balanced rfl
  exact absurd hbalanced (by decide +kernel)

end CodecState

end Player2.Codec

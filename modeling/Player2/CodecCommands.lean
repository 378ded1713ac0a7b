import Player2.CodecDecodes

/-! # Commands of a codec

The commands of a session are numbered as they are prepared.  They are completed in that order, so the
count of the completed ones is the number of the next; this is what the comparison with
`DiscardDecodesUntil` rests on.  `DiscardDecodesUntil` itself is not set at the start of a session: a
discard of one session is still in force in the next.

`Effect` says what a step does to the counts and the commands; the invariants are about nothing else. -/

namespace Player2.Codec

/-! ### Counts and commands -/

/-- The counts of a codec, and its commands. -/
structure CommandView where
  prepared : Word
  aborted : Word
  completed : Word
  discardUntil : Word
  commands : ℕ
  discardedInSession : Bool
  -- The command that is being completed.
  completing : Option Command
  -- Those that have been prepared, and are not being completed.
  waiting : List Command
  outcomes : List Outcome

/-- The use of a buffer that a command decodes into. -/
def CommandKind.context : CommandKind → Option (ℕ × ℕ)
  | .setGlobalTransformParams => none
  | .transform i use => some (i, use)

/-- The decode that has been launched, and is not at the transformer. -/
def InputPhase.context : InputPhase → Option (ℕ × ℕ)
  | .launched _ i use => some (i, use)
  | .counted _ i use _ => some (i, use)
  | .failed i use => some (i, use)
  | _ => none

namespace CodecState

/-- The counts of a codec, and its commands. -/
def commandView (s : CodecState) : CommandView where
  prepared := s.mmeCommandPreparedCount
  aborted := s.mmeCommandAbortedCount
  completed := s.mmeCommandCompletedCount
  discardUntil := s.discardDecodesUntil
  commands := s.commands
  discardedInSession := s.discardedInSession
  completing := s.callback.command
  waiting := s.transformer ++ s.input.command.toList
  outcomes := s.outcomes

/-- The command that is completed next is the last one into its buffer. -/
def CompletesBuffer (s : CodecState) : Prop :=
  ∃ c ∈ s.transformer.head?, ∃ p ∈ c.kind.context,
    (s.bufferState p.1).outputOnDecodesComplete ∧ (s.bufferState p.1).decodesInProgress ≤ 1

instance (s : CodecState) : Decidable s.CompletesBuffer := inferInstanceAs (Decidable (∃ _ ∈ _, _))

end CodecState

/-- What a step does to the counts and the commands. -/
inductive Effect (s : CodecState) : Label → CommandView → Prop
  | same (label : Label) : Effect s label s.commandView
  | prepare (kind : CommandKind)
      (hkind : kind.context = none ∨ kind.context = s.input.context) :
      Effect s .count { s.commandView with
        prepared := s.commandView.prepared + 1
        commands := s.commandView.commands + 1
        waiting := s.commandView.waiting ++ [⟨kind, s.commandView.commands, false⟩] }
  | abort (hhalted : s.halted = true) :
      Effect s .count { s.commandView with
        prepared := s.commandView.prepared + 1
        commands := s.commandView.commands + 1
        aborted := s.commandView.aborted + 1 }
  | refuse (c : Command) (rest : List Command) (hwaiting : s.commandView.waiting = rest ++ [c]) :
      Effect s (.send false) { s.commandView with waiting := rest }
  | completeParameters (c : Command) (rest : List Command)
      (hwaiting : s.commandView.waiting = c :: rest) (hcompleting : s.commandView.completing = none) :
      Effect s .callback { s.commandView with
        waiting := rest
        completing := none
        completed := s.commandView.completed + 1 }
  | complete (c : Command) (rest : List Command)
      (hwaiting : s.commandView.waiting = c :: rest) (hcompleting : s.commandView.completing = none) :
      Effect s .callback { s.commandView with waiting := rest, completing := some c }
  | completeBuffer (c : Command) (rest : List Command)
      (hwaiting : s.commandView.waiting = c :: rest) (hcompleting : s.commandView.completing = none)
      (hlast : s.CompletesBuffer) :
      Effect s .callback { s.commandView with
        waiting := rest
        completing := some c
        outcomes := s.commandView.outcomes ++
          [⟨decide (s.doneCount < s.discardDecodesUntil), c.discarded⟩] }
  | count (hcompleting : s.commandView.completing.isSome) :
      Effect s .callbackCount { s.commandView with
        completed := s.commandView.completed + 1
        completing := none }
  | discard :
      Effect s .discardQueuedDecodes { s.commandView with
        discardUntil := s.commandView.prepared
        waiting := s.commandView.waiting.map Command.discard
        discardedInSession := true }
  | newSession :
      Effect s .newSession { s.commandView with
        prepared := 0
        aborted := 0
        completed := 0
        commands := 0
        waiting := []
        completing := none
        discardedInSession := false }

namespace CodecState

theorem afterParameters_command (f : Frame) : (afterParameters f).command = none := by
  unfold afterParameters
  split
  next => rfl
  next => rfl

theorem lookAtCurrent_command (s : CodecState) (f : Frame) : (s.lookAtCurrent f).command = none := by
  unfold lookAtCurrent
  split
  next => rfl
  next =>
    split
    next => rfl
    next => rfl

theorem closing_command (current : Option ℕ) :
    (current.elim InputPhase.idle fun i => .closing i none).command = none := by
  cases current with
  | none => rfl
  | some i => rfl

theorem obtain_command (next : Option Frame) : (next.elim InputPhase.idle .obtain).command = none := by
  cases next with
  | none => rfl
  | some f => rfl

theorem discard_command (phase : InputPhase) :
    phase.discard.command = phase.command.map Command.discard := by
  cases phase <;> rfl

theorem markerTest_command (test : Option MarkerTest) :
    (test.elim InputPhase.idle InputPhase.markerTest).command = none := by
  cases test with
  | none => rfl
  | some t => rfl

theorem markerTest_callbackCommand (test : Option MarkerTest) :
    (test.elim CallbackPhase.idle CallbackPhase.markerTest).command = none := by
  cases test with
  | none => rfl
  | some t => rfl

variable {s t : CodecState} {label : Label}

theorem effect_input (phase : InputPhase)
    (hs : s.input.command = none) (hphase : phase.command = none)
    (h : t.commandView = { s with input := phase }.commandView) : Effect s label t.commandView := by
  have hsame : t.commandView = s.commandView := by
    rw [h]
    unfold commandView
    rw [hs, hphase]
  rw [hsame]
  exact .same label

theorem effect_eq {v : CommandView} (h : Effect s label v)
    (ht : t.commandView = v) : Effect s label t.commandView := ht ▸ h

theorem complete_effect {c : Command} {rest : List Command}
    (hphase : s.callback = .idle) (hhead : s.transformer = c :: rest) :
    Effect s .callback ({ s with transformer := rest }.complete c).commandView := by
  have hcompleting : s.commandView.completing = none := congrArg CallbackPhase.command hphase
  have hwaiting : s.commandView.waiting = c :: (rest ++ s.input.command.toList) :=
    congrArg (· ++ s.input.command.toList) hhead
  obtain ⟨kind, number, discarded⟩ := c
  cases kind with
  | setGlobalTransformParams => exact Effect.completeParameters _ _ hwaiting hcompleting
  | transform i use =>
    obtain ⟨states, current, ring, hframe⟩ :=
      releaseDecodeContext_frame { s with transformer := rest } i
    have hlast : (s.bufferState i).outputOnDecodesComplete = true →
        (s.bufferState i).decodesInProgress ≤ 1 → s.CompletesBuffer := by
      intro hflag hone
      refine ⟨⟨.transform i use, number, discarded⟩, ?_, (i, use), rfl, hflag, hone⟩
      rw [hhead]
      rfl
    unfold complete
    dsimp only
    obtain ⟨-, h⟩ | ⟨-, -, h⟩ | ⟨hflag, hone, hdone, h⟩ | ⟨hflag, hone, hdone, h⟩ :=
      releaseDecodeContext_cases { s with transformer := rest } i
    · rw [hframe, h]
      exact Effect.complete _ _ hwaiting hcompleting
    · rw [hframe, h]
      exact Effect.complete _ _ hwaiting hcompleting
    · rw [hframe, h]
      have heffect := Effect.completeBuffer _ _ hwaiting hcompleting (hlast hflag hone)
      rw [decide_eq_true (show s.doneCount < s.discardDecodesUntil from hdone)] at heffect
      exact heffect
    · rw [hframe, h]
      have heffect := Effect.completeBuffer _ _ hwaiting hcompleting (hlast hflag hone)
      rw [decide_eq_false (show ¬ s.doneCount < s.discardDecodesUntil from hdone)] at heffect
      exact heffect

theorem step_effect {s s' : CodecState} (h : Step s label s') :
    Effect s label s'.commandView := by
  cases h with
  | input f hphase hrunning =>
    refine effect_input _ (by rw [hphase]; rfl) ?_ rfl
    split
    next => rfl
    next => exact afterParameters_command f
  | partialOutput hphase => exact effect_input _ (by rw [hphase]; rfl) (closing_command _) rfl
  | inputMarker hphase hrunning => exact effect_input _ (by rw [hphase]; rfl) rfl rfl
  | parametersError hphase => exact effect_input _ (by rw [hphase]; rfl) rfl rfl
  | obtainError hphase => exact effect_input _ (by rw [hphase]; rfl) (closing_command _) rfl
  | fillError hphase => exact effect_input _ (by rw [hphase]; rfl) rfl rfl
  | markerError hphase => exact effect_input _ (by rw [hphase]; rfl) rfl rfl
  | abortParameters hphase hhalted =>
    have hcommand : s.input.command = none := congrArg InputPhase.command hphase
    refine effect_eq (.abort hhalted) ?_
    simp [commandView, hcommand, afterParameters_command, prepare, abort]
  | countParameters hphase hrunning =>
    refine effect_eq (.prepare .setGlobalTransformParams (.inl rfl)) ?_
    simp [commandView, hphase, prepare, InputPhase.command]
  | abortDecode hphase hhalted =>
    refine effect_eq (.abort hhalted) ?_
    simp [commandView, hphase, prepare, abort, InputPhase.command]
  | @countDecode f i use hphase hrunning =>
    refine effect_eq (.prepare (.transform i use) (.inr (congrArg InputPhase.context hphase).symm)) ?_
    simp [commandView, hphase, prepare, InputPhase.command]
  | @sendParameters f c hphase =>
    have hcommand : s.input.command = some c := congrArg InputPhase.command hphase
    refine effect_eq (.same _) ?_
    simp [commandView, hcommand, afterParameters_command]
  | @refuseParameters f c hphase =>
    refine effect_eq (.refuse c s.transformer ?_) ?_
    · simp only [commandView, hphase, InputPhase.command, Option.toList_some]
    · simp [commandView, InputPhase.command]
  | sendDecode hphase =>
    refine effect_eq (.same _) ?_
    simp [commandView, hphase, InputPhase.command]
  | @refuseDecode f i use c hphase =>
    refine effect_eq (.refuse c s.transformer ?_) ?_
    · simp only [commandView, hphase, InputPhase.command, Option.toList_some]
    · simp [commandView, InputPhase.command]
  | look hphase => exact effect_input _ (by rw [hphase]; rfl) (lookAtCurrent_command _ _) rfl
  | @close i next hphase =>
    obtain ⟨states, ring, hframe⟩ := closeBuffer_frame s i
    refine effect_input (.closed next) (by rw [hphase]; rfl) rfl ?_
    rw [hframe]
    rfl
  | forget hphase => exact effect_input _ (by rw [hphase]; rfl) (obtain_command _) rfl
  | getDecodeBuffer i hphase hnone hfree => exact effect_input _ (by rw [hphase]; rfl) rfl rfl
  | reuse hphase hcurrent => exact effect_input _ (by rw [hphase]; rfl) rfl rfl
  | launch hphase hcurrent huse => exact effect_input _ (by rw [hphase]; rfl) rfl rfl
  | finish hphase => exact effect_input _ (by rw [hphase]; rfl) rfl rfl
  | @release i use hphase =>
    obtain ⟨states, current, ring, hframe⟩ := releaseDecodeContext_frame s i
    refine effect_input (if (s.releaseDecodeContext i).2 = .discarding then .dropping i use else .idle)
      (by rw [hphase]; rfl) ?_ ?_
    · split
      next => rfl
      next => rfl
    · rw [hframe]
      rfl
  | drop hphase => exact effect_input _ (by rw [hphase]; rfl) rfl rfl
  | @relock i use hphase =>
    obtain ⟨current, hframe⟩ := forgetIndex_frame s i
    refine effect_input .idle (by rw [hphase]; rfl) rfl ?_
    rw [hframe]
    rfl
  | setMarkerTime hphase => exact effect_input _ (by rw [hphase]; rfl) rfl rfl
  | setMarker hphase => exact effect_input _ (by rw [hphase]; rfl) rfl rfl
  | @testMarker t hphase =>
    obtain ⟨held, ring, hframe⟩ := passMarker_frame s t
    refine effect_input _ (by rw [hphase]; rfl) (markerTest_command (s.passMarker t).2) ?_
    rw [hframe]
    rfl
  | callback hphase hhead => exact complete_effect hphase hhead
  | callbackDrop hphase =>
    refine effect_eq (.same _) ?_
    simp [commandView, hphase, releaseBuffer, CallbackPhase.command]
  | @callbackRelock c i use hphase =>
    obtain ⟨current, hframe⟩ := forgetIndex_frame s i
    refine effect_eq (.same _) ?_
    rw [hframe]
    simp [commandView, hphase, CallbackPhase.command]
  | callbackCount hphase =>
    refine effect_eq (.count ?_) rfl
    rw [show s.commandView.completing = _ from congrArg CallbackPhase.command hphase]
    rfl
  | @callbackTestMarker t hphase =>
    obtain ⟨held, ring, hframe⟩ := passMarker_frame s t
    refine effect_eq (.same _) ?_
    rw [hframe]
    have hcommand : s.callback.command = none := congrArg CallbackPhase.command hphase
    simp [commandView, hcommand, markerTest_callbackCommand]
  | discard =>
    refine effect_eq .discard ?_
    simp [commandView, discardQueuedDecodes, discard_command, Option.toList_map]
  | halt => exact .same _
  | newSession hhalted hinput hcallback =>
    refine effect_eq .newSession ?_
    simp [commandView, newSession, hinput, hcallback, InputPhase.command, CallbackPhase.command]
  | free i huse hleft => exact .same _

end CodecState

/-! ### The numbers of the commands -/

namespace CommandView

/-- The commands that are not counted as completed. -/
def uncounted (v : CommandView) : List Command := v.completing.toList ++ v.waiting

/-- The commands that are not counted have the numbers from the count of the completed ones on. -/
structure Sequenced (v : CommandView) : Prop where
  aborted : v.aborted = 0
  prepared : v.prepared.toNat = v.commands
  numbers : v.uncounted.map Command.number = List.range' v.completed.toNat v.uncounted.length
  total : v.completed.toNat + v.uncounted.length = v.commands

/-- Moreover, the decodes were discarded after a command is prepared when its number is below
`DiscardDecodesUntil`. -/
structure Numbered (v : CommandView) : Prop extends v.Sequenced where
  discardUntil : v.discardedInSession = true → v.discardUntil.toNat ≤ v.commands
  discarded : ∀ c ∈ v.waiting,
    (c.discarded = true ↔ v.discardedInSession = true ∧ c.number < v.discardUntil.toNat)
  outcomes : ∀ o ∈ v.outcomes, o.released = o.discarded

variable {v : CommandView}

theorem Sequenced.commands_lt (h : v.Sequenced) : v.commands < 2 ^ 32 := by
  rw [← h.prepared]
  exact v.prepared.isLt

variable {c : Command} {rest : List Command}

theorem Sequenced.first (h : v.Sequenced)
    (hfirst : v.uncounted = c :: rest) :
    c.number = v.completed.toNat ∧
      rest.map Command.number = List.range' (v.completed.toNat + 1) rest.length ∧
      (v.completed + 1).toNat = v.completed.toNat + 1 ∧
      v.completed.toNat + 1 + rest.length = v.commands := by
  have hnumbers := h.numbers
  have htotal := h.total
  have hlt := h.commands_lt
  rw [hfirst, List.map_cons, List.length_cons, List.range'_succ, List.cons.injEq] at hnumbers
  rw [hfirst, List.length_cons] at htotal
  refine ⟨hnumbers.1, hnumbers.2, ?_, by omega⟩
  exact Nat.mod_eq_of_lt (show v.completed.toNat + 1 < 2 ^ 32 by omega)

theorem Sequenced.number_mem (h : v.Sequenced)
    (hc : c ∈ v.uncounted) : v.completed.toNat ≤ c.number ∧ c.number < v.commands := by
  have hmem : c.number ∈ v.uncounted.map Command.number := List.mem_map_of_mem hc
  rw [h.numbers, List.mem_range'_1, h.total] at hmem
  exact hmem

theorem Sequenced.prepare (h : v.Sequenced) (kind : CommandKind)
    (hlt : v.commands + 1 < 2 ^ 32) :
    Sequenced { v with
      prepared := v.prepared + 1
      commands := v.commands + 1
      waiting := v.waiting ++ [⟨kind, v.commands, false⟩] } := by
  have htotal := h.total
  have huncounted : v.completing.toList ++ (v.waiting ++ [⟨kind, v.commands, false⟩]) =
      v.uncounted ++ [⟨kind, v.commands, false⟩] := (List.append_assoc _ _ _).symm
  constructor
  case aborted => exact h.aborted
  case prepared =>
    rw [BitVec.toNat_add, h.prepared]
    exact Nat.mod_eq_of_lt hlt
  case numbers =>
    unfold uncounted
    rw [huncounted, List.map_append, List.length_append, h.numbers, List.length_singleton,
      List.range'_1_concat, htotal]
    rfl
  case total =>
    unfold uncounted
    dsimp only
    rw [huncounted, List.length_append, List.length_singleton]
    omega

theorem Sequenced.completeParameters
    (h : v.Sequenced) (hwaiting : v.waiting = c :: rest) (hcompleting : v.completing = none) :
    Sequenced { v with waiting := rest, completing := none, completed := v.completed + 1 } := by
  have huncounted : v.uncounted = c :: rest := by
    unfold uncounted
    rw [hcompleting, hwaiting]
    rfl
  obtain ⟨-, hnumbers, hcompleted, htotal⟩ := h.first huncounted
  constructor
  case aborted => exact h.aborted
  case prepared => exact h.prepared
  case numbers => exact hcompleted ▸ hnumbers
  case total => exact hcompleted ▸ htotal

theorem Sequenced.complete
    (h : v.Sequenced) (hwaiting : v.waiting = c :: rest) (hcompleting : v.completing = none)
    (outcomes : List Outcome) :
    Sequenced { v with waiting := rest, completing := some c, outcomes := outcomes } := by
  have huncounted : v.uncounted = [c] ++ rest := by
    unfold uncounted
    rw [hcompleting, hwaiting]
    rfl
  constructor
  case aborted => exact h.aborted
  case prepared => exact h.prepared
  case numbers =>
    have hnumbers := h.numbers
    rw [huncounted] at hnumbers
    exact hnumbers
  case total =>
    have htotal := h.total
    rw [huncounted] at htotal
    exact htotal

theorem Sequenced.count (h : v.Sequenced) (hcompleting : v.completing.isSome) :
    Sequenced { v with completed := v.completed + 1, completing := none } := by
  obtain ⟨c, hc⟩ := Option.isSome_iff_exists.mp hcompleting
  have huncounted : v.uncounted = c :: v.waiting := by
    unfold uncounted
    rw [hc]
    rfl
  obtain ⟨-, hnumbers, hcompleted, htotal⟩ := h.first huncounted
  constructor
  case aborted => exact h.aborted
  case prepared => exact h.prepared
  case numbers => exact hcompleted ▸ hnumbers
  case total => exact hcompleted ▸ htotal

theorem Sequenced.discard (h : v.Sequenced) :
    Sequenced { v with
      discardUntil := v.prepared
      waiting := v.waiting.map Command.discard
      discardedInSession := true } := by
  have hlength : (v.completing.toList ++ v.waiting.map Command.discard).length =
      v.uncounted.length := by
    simp [uncounted]
  constructor
  case aborted => exact h.aborted
  case prepared => exact h.prepared
  case numbers =>
    unfold uncounted
    rw [hlength, ← h.numbers]
    simp [uncounted, Command.discard]
  case total => exact hlength ▸ h.total

theorem Numbered.prepare (h : v.Numbered) (kind : CommandKind)
    (hlt : v.commands + 1 < 2 ^ 32) :
    Numbered { v with
      prepared := v.prepared + 1
      commands := v.commands + 1
      waiting := v.waiting ++ [⟨kind, v.commands, false⟩] } where
  toSequenced := h.toSequenced.prepare kind hlt
  discardUntil hdiscarded := Nat.le_succ_of_le (h.discardUntil hdiscarded)
  discarded c hc := by
      rcases List.mem_append.mp hc with hwaiting | hnew
      · exact h.discarded c hwaiting
      · rw [List.mem_singleton.mp hnew]
        refine iff_of_false Bool.false_ne_true ?_
        rintro ⟨hdiscarded, hnumber⟩
        exact absurd hnumber (Nat.not_lt.mpr (h.discardUntil hdiscarded))
  outcomes := h.outcomes

theorem Numbered.completeParameters
    (h : v.Numbered) (hwaiting : v.waiting = c :: rest) (hcompleting : v.completing = none) :
    Numbered { v with waiting := rest, completing := none, completed := v.completed + 1 } where
  toSequenced := h.toSequenced.completeParameters hwaiting hcompleting
  discardUntil := h.discardUntil
  discarded d hd := h.discarded d (hwaiting ▸ List.mem_cons_of_mem c hd)
  outcomes := h.outcomes

theorem Numbered.complete
    (h : v.Numbered) (hwaiting : v.waiting = c :: rest) (hcompleting : v.completing = none)
    {outcomes : List Outcome} (houtcomes : ∀ o ∈ outcomes, o.released = o.discarded) :
    Numbered { v with waiting := rest, completing := some c, outcomes := outcomes } where
  toSequenced := h.toSequenced.complete hwaiting hcompleting outcomes
  discardUntil := h.discardUntil
  discarded d hd := h.discarded d (hwaiting ▸ List.mem_cons_of_mem c hd)
  outcomes := houtcomes

theorem Numbered.count (h : v.Numbered) (hcompleting : v.completing.isSome) :
    Numbered { v with completed := v.completed + 1, completing := none } := { h with
  toSequenced := h.toSequenced.count hcompleting }

theorem Numbered.discard (h : v.Numbered) :
    Numbered { v with
      discardUntil := v.prepared
      waiting := v.waiting.map Command.discard
      discardedInSession := true } where
  toSequenced := h.toSequenced.discard
  discardUntil _ := h.prepared.le
  discarded d hd := by
      obtain ⟨c, hc, rfl⟩ := List.mem_map.mp hd
      refine iff_of_true rfl ⟨rfl, ?_⟩
      rw [h.prepared]
      exact (h.toSequenced.number_mem (List.mem_append_right _ hc)).2
  outcomes := h.outcomes

end CommandView

/-! ### Discards -/

namespace CodecState

/-- Every command that is prepared is sent. -/
def Sent (s : CodecState) (label : Label) : Prop :=
  (label = .count → s.halted = false) ∧ label ≠ .send false

instance (s : CodecState) (label : Label) : Decidable (s.Sent label) :=
  inferInstanceAs (Decidable (_ ∧ _))

/-- Every command is sent, a session has fewer than `2 ^ 32` of them, and when a decode is completed
that is the last into its buffer, decodes have been discarded in the session or no discard of an earlier
session is in force. -/
def DiscardsOfSession (s : CodecState) (label : Label) : Prop :=
  s.Sent label ∧ (label = .count → s.commands + 1 < 2 ^ 32) ∧
    (label = .callback → s.CompletesBuffer →
      s.discardedInSession = true ∨ s.discardDecodesUntil ≤ s.doneCount)

instance (s : CodecState) (label : Label) : Decidable (s.DiscardsOfSession label) :=
  inferInstanceAs (Decidable (_ ∧ _))

variable {s s' : CodecState}

theorem discarded_iff {c : Command} {rest : List Command}
    (h : s.commandView.Numbered) (hwaiting : s.commandView.waiting = c :: rest)
    (hcompleting : s.commandView.completing = none)
    (hsession : s.discardedInSession = true ∨ s.discardDecodesUntil ≤ s.doneCount) :
    decide (s.doneCount < s.discardDecodesUntil) = c.discarded := by
  have huncounted : s.commandView.uncounted = c :: rest := by
    unfold CommandView.uncounted
    rw [hcompleting, hwaiting]
    rfl
  have hnumber := (h.toSequenced.first huncounted).1
  have hdone : s.doneCount.toNat = c.number := by
    have haborted : s.mmeCommandAbortedCount = 0 := h.aborted
    unfold doneCount
    rw [haborted, zero_add]
    exact hnumber.symm
  have hdiscarded := h.discarded c (hwaiting ▸ List.mem_cons_self)
  rw [Bool.eq_iff_iff, decide_eq_true_iff, hdiscarded, BitVec.lt_def, hdone]
  constructor
  · intro hlt
    refine ⟨hsession.resolve_right ?_, hlt⟩
    rw [BitVec.le_def, hdone]
    exact Nat.not_le.mpr hlt
  · rintro ⟨-, hlt⟩
    exact hlt

variable {label : Label}

theorem sequenced_step (h : s.commandView.Sequenced)
    (hsent : s.Sent label) (hlt : label = .count → s.commands + 1 < 2 ^ 32)
    (hstep : s.step label = some s') : s'.commandView.Sequenced := by
  have heffect := step_effect (step_cases hstep)
  generalize s'.commandView = v at heffect
  cases heffect with
  | same => exact h
  | prepare kind hkind => exact h.prepare kind (hlt rfl)
  | abort hhalted => exact absurd (hhalted.symm.trans (hsent.1 rfl)) Bool.noConfusion
  | refuse c rest hwaiting => exact absurd rfl hsent.2
  | completeParameters c rest hwaiting hcompleting => exact h.completeParameters hwaiting hcompleting
  | complete c rest hwaiting hcompleting => exact h.complete hwaiting hcompleting _
  | completeBuffer c rest hwaiting hcompleting hlast => exact h.complete hwaiting hcompleting _
  | count hcompleting => exact h.count hcompleting
  | discard => exact h.discard
  | newSession => exact ⟨rfl, rfl, rfl, rfl⟩

theorem numbered_step (h : s.commandView.Numbered)
    (hlabel : s.DiscardsOfSession label) (hstep : s.step label = some s') :
    s'.commandView.Numbered := by
  have heffect := step_effect (step_cases hstep)
  generalize s'.commandView = v at heffect
  cases heffect with
  | same => exact h
  | prepare kind hkind => exact h.prepare kind (hlabel.2.1 rfl)
  | abort hhalted => exact absurd (hhalted.symm.trans (hlabel.1.1 rfl)) Bool.noConfusion
  | refuse c rest hwaiting => exact absurd rfl hlabel.1.2
  | completeParameters c rest hwaiting hcompleting => exact h.completeParameters hwaiting hcompleting
  | complete c rest hwaiting hcompleting => exact h.complete hwaiting hcompleting h.outcomes
  | completeBuffer c rest hwaiting hcompleting hlast =>
    refine h.complete hwaiting hcompleting ?_
    intro o ho
    rcases List.mem_append.mp ho with hold | hnew
    · exact h.outcomes o hold
    · rw [List.mem_singleton.mp hnew]
      exact discarded_iff h hwaiting hcompleting (hlabel.2.2 rfl hlast)
  | count hcompleting => exact h.count hcompleting
  | discard => exact h.discard
  | newSession =>
    exact ⟨⟨rfl, rfl, rfl, rfl⟩, Bool.noConfusion, fun _ hc => absurd hc List.not_mem_nil, h.outcomes⟩

/-- **Discards**: over all sessions, if commands are sent and no discard is in force from an earlier
session, a buffer is released instead of output exactly when decodes were discarded, in the session,
after its last command was prepared and before that was completed. -/
theorem run_discarded {labels : List Label} {s : CodecState}
    (hlabels : Lts.Along step DiscardsOfSession start labels)
    (h : Lts.run step start labels = some s) : ∀ o ∈ s.outcomes, o.released = o.discarded :=
  (Lts.run_invariant_along (I := fun t : CodecState => t.commandView.Numbered)
    (fun _ _ _ ht hlabel hstep => numbered_step ht hlabel hstep)
    ⟨⟨rfl, rfl, rfl, rfl⟩, Bool.noConfusion, fun _ hc => absurd hc List.not_mem_nil,
      fun _ ho => absurd ho List.not_mem_nil⟩ hlabels h).outcomes

/-- A frame in one picture. -/
def wholeFrame : Frame where
  newStreamParameters := false
  newFrameParameters := true
  firstParsedParametersForOutputFrame := true
  indicatesCompletion := false
  lastDecodeIntoThisBuffer := true

/-- `Input` takes a frame and sends the decode of it. -/
def inputFrame (bufferIndex : ℕ) : List Label :=
  [.input wholeFrame, .look, .getDecodeBuffer bufferIndex, .launch, .count, .send true, .finish]

/-- A decode is discarded, and the next one is not. -/
def discardThenDecode : List Label :=
  inputFrame 0 ++ [.discardQueuedDecodes] ++ inputFrame 1 ++
    [.callback, .callbackDrop, .callbackRelock, .callbackCount, .callbackTestMarker, .callback]

/-- `run_discarded` over a discard with a decode before it and one after it. -/
theorem run_discarded_discard : ∃ s, Lts.run step start discardThenDecode = some s ∧
    s.outcomes = [⟨true, true⟩, ⟨false, false⟩] ∧ ∀ o ∈ s.outcomes, o.released = o.discarded := by
  have hlabels : Lts.Along step DiscardsOfSession start discardThenDecode := by decide +kernel
  exact ⟨_, rfl, rfl, run_discarded hlabels rfl⟩

/-- A decode is discarded in one session, and in the next a frame is decoded. -/
def discardThenSession : List Label :=
  inputFrame 0 ++ [.discardQueuedDecodes, .callback, .callbackDrop, .callbackRelock, .callbackCount,
    .callbackTestMarker, .halt, .newSession] ++ inputFrame 0 ++ [.callback]

/-- The first decode of a session is discarded though decodes were discarded in an earlier one only. -/
theorem not_run_discarded_session :
    ¬ ∀ (labels : List Label) (s : CodecState), Lts.Along step Sent start labels →
      Lts.run step start labels = some s → ∀ o ∈ s.outcomes, o.released = o.discarded := by
  intro hall
  have hlabels : Lts.Along step Sent start discardThenSession := by decide +kernel
  have houtcome : (⟨true, false⟩ : Outcome) ∈ [(⟨true, true⟩ : Outcome), ⟨true, false⟩] := by decide
  have hmem := hall discardThenSession _ hlabels rfl ⟨true, false⟩ houtcome
  cases hmem

end CodecState

end Player2.Codec

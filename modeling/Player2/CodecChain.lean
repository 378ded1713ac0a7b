import Mathlib.Data.BitVec
import Mathlib.Data.List.Nodup
import Mathlib.Logic.Function.Basic
import Player2.CodecReferences
import Player2.Run

/-! # The H.264 pre-processor chain

`Codec_MmeVideoH264_c` gives the frames to a pre-processor, and a process of its own, the intermediate
process, takes them from there and passes them on to the rest of the codec.  The calls that must not
overtake a frame go the same way: each takes an entry of `FramesInPreprocessorChain`, whose number goes
through a ring.  One flag says that frames are to be discarded; the process clears it when it performs a
discard.

A call is one step, as it is made under `H264Lock`; the intermediate process takes an entry off the ring,
performs its action, and releases the entry.  What the pre-processor returns and where
`Codec_MmeVideo_c::Input` fails is free.  The sets of stream parameters are numbers; `sent` is the one the
transformer was sent last.  `queued`, `performed`, `discardsSince` and `withheldParameters` are not in the
source: they say what was queued and performed so far, how many discards were queued since the process
last performed one, and whether stream parameters were withheld and no others sent since. -/

namespace Player2.Codec.Chain

/-! ### Data -/

/-- `H264_CODED_FRAME_COUNT`. -/
def codedFrameCount : ℕ := 1024

/-- `ParsedFrameParameters_t` and the length of the coded data, as far as the chain looks at them. -/
structure ParsedFrame where
  newFrameParameters : Bool
  newStreamParameters : Bool
  streamParameters : Option ℕ
  decodeFrameIndex : Word
  firstSlice : Bool
  codedDataLength : ℕ
deriving DecidableEq

/-- An entry of the chain that is in use, by its action. -/
inductive Action
  | callOutputPartialDecodeBuffers
  | callDiscardQueuedDecodes
  | callReleaseReferenceFrame (decodeFrameIndex : Word)
  | passOnFrame (codedBuffer : ℕ) (f : ParsedFrame)
  | passOnPreProcessedFrame (codedBuffer : ℕ) (f : ParsedFrame)
deriving DecidableEq

/-- The coded buffer of an entry. -/
def Action.codedBuffer : Action → Option ℕ
  | .passOnFrame b _ => some b
  | .passOnPreProcessedFrame b _ => some b
  | _ => none

/-- The frame of an entry. -/
def Action.frame : Action → Option ParsedFrame
  | .passOnFrame _ f => some f
  | .passOnPreProcessedFrame _ f => some f
  | _ => none

/-- What `H264ppGetPreProcessedBuffer` returns. -/
structure PreProcessed where
  retrieved : Bool
  entry : ℕ
  statusMask : ℕ
deriving DecidableEq

/-- The result of the pre-processor is used. -/
def PreProcessed.good (r : PreProcessed) (entry : ℕ) (allowBadFrames : Bool) : Bool :=
  r.retrieved && (r.statusMask == 0 || allowBadFrames) && r.entry == entry

/-- Where `Codec_MmeVideo_c::Input` returns: before it looks at the stream parameters, without a context
for them or for the decode, after it failed to send them, later with an error, or without one. -/
inductive InputResult
  | refused
  | noContext
  | notSent
  | notDecoded
  | accepted
deriving DecidableEq

/-- What became of an action. -/
inductive Outcome
  | called
  | junked
  | withheld
  | passedOn
deriving DecidableEq

/-- A performed action, whether a discard was queued behind it, and the set of stream parameters that
`Codec_MmeVideo_c::Input` was to send, or that was sent last. -/
structure Performed where
  action : Action
  outcome : Outcome
  discardQueued : Bool
  streamParameters : Option ℕ
deriving DecidableEq

/-- The intermediate process: it waits, has taken an entry, or has performed its action. -/
inductive Process
  | waiting
  | reached (entry : ℕ)
  | finished (entry : ℕ)
deriving DecidableEq

structure ChainState where
  framesInPreprocessorChain : ℕ → Option Action
  ring : List ℕ
  discardFrames : Bool
  promoteNextStreamParametersToNew : Bool
  forceStreamParameterReload : Bool
  process : Process
  -- The references of the chain on each coded buffer.
  chainReferences : ℕ → ℕ
  sent : Option ℕ
  queued : List Action
  performed : List Performed
  discardsSince : ℕ
  withheldParameters : Bool

/-- The calls, and the steps of the intermediate process. -/
inductive Label
  | outputPartialDecodeBuffers
  | discardQueuedDecodes
  | releaseReferenceFrame (decodeFrameIndex : Word)
  | input (codedBuffer : ℕ) (f : ParsedFrame) (gotBuffer preProcessing : Bool)
  | extract
  | perform (preProcessed : PreProcessed) (allowBadFrames : Bool) (result : InputResult)
  | release
deriving DecidableEq

namespace ChainState

/-! ### Calls -/

/-- The first entry that is not in use. -/
def findUnused (s : ChainState) : Option ℕ :=
  (List.range' 0 codedFrameCount).find? fun i => (s.framesInPreprocessorChain i).isNone

/-- `RingGeneric_c::Insert`. -/
def insertRing (s : ChainState) (i : ℕ) : ChainState :=
  if s.ring.length < codedFrameCount then { s with ring := s.ring ++ [i] } else s

/-- The coded buffer is held for the chain. -/
def takeReference (references : ℕ → ℕ) (codedBuffer : Option ℕ) : ℕ → ℕ :=
  codedBuffer.elim references fun b => Function.update references b (references b + 1)

def dropReference (references : ℕ → ℕ) (codedBuffer : Option ℕ) : ℕ → ℕ :=
  codedBuffer.elim references fun b => Function.update references b (references b - 1)

/-- An action takes an entry that is not in use. -/
def insertAt (s : ChainState) (a : Action) (i : ℕ) : ChainState :=
  insertRing { s with
    framesInPreprocessorChain := Function.update s.framesInPreprocessorChain i (some a)
    chainReferences := takeReference s.chainReferences a.codedBuffer
    queued := s.queued ++ [a] } i

/-- Queue an action; without an entry there is only an error. -/
def queue (s : ChainState) (a : Action) : ChainState := s.findUnused.elim s (s.insertAt a)

def discardQueuedDecodes (s : ChainState) : ChainState :=
  s.findUnused.elim s fun i =>
    { s.insertAt .callDiscardQueuedDecodes i with
      discardFrames := true
      discardsSince := s.discardsSince + 1 }

/-- `Input`: what is not a frame goes to the process as it is; a frame that the pre-processor does not
take is not queued, and the reference on its buffer is dropped at once. -/
def input (s : ChainState) (codedBuffer : ℕ) (f : ParsedFrame) (gotBuffer preProcessing : Bool) :
    ChainState :=
  if !f.newFrameParameters || f.decodeFrameIndex = invalidIndex then s.queue (.passOnFrame codedBuffer f)
  else if !f.firstSlice then s
  else if !gotBuffer then s
  else if !preProcessing then s
  else s.queue (.passOnPreProcessedFrame codedBuffer f)

/-! ### The intermediate process -/

/-- A discard waits in the ring. -/
def discardQueued (s : ChainState) : Bool :=
  s.ring.any fun i => s.framesInPreprocessorChain i = some .callDiscardQueuedDecodes

def record (s : ChainState) (a : Action) (outcome : Outcome) (streamParameters : Option ℕ) : ChainState :=
  { s with performed := s.performed ++ [⟨a, outcome, s.discardQueued, streamParameters⟩] }

/-- A frame is not passed on. -/
def withhold (s : ChainState) (a : Action) (f : ParsedFrame) (outcome : Outcome) : ChainState :=
  { s.record a outcome s.sent with withheldParameters := s.withheldParameters || f.newStreamParameters }

/-- `Codec_MmeVideo_c::Input`, as far as it is about stream parameters: the state, `NewStreamParameters`
and whether there was no error. -/
def mmeInput (s : ChainState) (f : ParsedFrame) (result : InputResult) : ChainState × Bool × Bool :=
  if f.codedDataLength = 0 && !f.newStreamParameters && !f.newFrameParameters then
    (s, false, result = .accepted)
  else
    let new := f.newStreamParameters || s.forceStreamParameterReload
    let looked : ChainState := { s with forceStreamParameterReload := false }
    let sent : ChainState :=
      if new then { looked with sent := f.streamParameters, withheldParameters := false } else looked
    match result with
    | .refused => (s, f.newStreamParameters, false)
    | .noContext => (looked, new, false)
    | .notSent => ({ s with forceStreamParameterReload := new }, new, false)
    | .notDecoded => (sent, new, false)
    | .accepted => (sent, new, true)

/-- The stream parameters of a frame are sent though it brings none. -/
def promotes (s : ChainState) (f : ParsedFrame) : Bool :=
  s.promoteNextStreamParametersToNew && f.streamParameters.isSome

/-- The set that `Codec_MmeVideo_c::Input` is to send with a frame, or that was sent last. -/
def toSend (s : ChainState) (f : ParsedFrame) : Option ℕ :=
  if f.newStreamParameters || s.promotes f || s.forceStreamParameterReload then f.streamParameters
  else s.sent

/-- A frame is offered to `Codec_MmeVideo_c::Input`. -/
def offer (s : ChainState) (a : Action) (f : ParsedFrame) : ChainState :=
  { s.record a .passedOn (s.toSend f) with
    promoteNextStreamParametersToNew := s.promoteNextStreamParametersToNew && !s.promotes f }

/-- A frame is passed on; after an error, its stream parameters are to be sent with the next frame. -/
def passOn (s : ChainState) (a : Action) (f : ParsedFrame) (result : InputResult) : ChainState :=
  let r := (s.offer a f).mmeInput
    { f with newStreamParameters := f.newStreamParameters || s.promotes f } result
  if !r.2.2 && r.2.1 then { r.1 with promoteNextStreamParametersToNew := true } else r.1

/-- The action of the entry that the process has reached. -/
def perform (s : ChainState) (entry : ℕ) (preProcessed : PreProcessed) (allowBadFrames : Bool)
    (result : InputResult) (a : Action) : ChainState :=
  match a with
  | .callDiscardQueuedDecodes =>
    { s.record a .called s.sent with discardFrames := false, discardsSince := 0 }
  | .passOnPreProcessedFrame _ f =>
    if !preProcessed.good entry allowBadFrames then s.withhold a f .junked
    else if s.discardFrames then s.withhold a f .withheld
    else s.passOn a f result
  | .passOnFrame _ f => s.passOn a f result
  | .callOutputPartialDecodeBuffers => s.record a .called s.sent
  | .callReleaseReferenceFrame _ => s.record a .called s.sent

/-- The entry is released, and with it the coded buffer. -/
def release (s : ChainState) (entry : ℕ) : ChainState :=
  { s with
    framesInPreprocessorChain := Function.update s.framesInPreprocessorChain entry none
    chainReferences := dropReference s.chainReferences
      ((s.framesInPreprocessorChain entry).bind Action.codedBuffer)
    process := .waiting }

def processStep (s : ChainState) : Label → Process → Option ChainState
  | .extract, .waiting => s.ring.head?.map fun i => { s with ring := s.ring.tail, process := .reached i }
  | .perform preProcessed allowBadFrames result, .reached i =>
    (s.framesInPreprocessorChain i).map fun a =>
      { s.perform i preProcessed allowBadFrames result a with process := .finished i }
  | .release, .finished i => some (s.release i)
  | _, _ => none

/-- A step. -/
def step (s : ChainState) : Label → Option ChainState
  | .outputPartialDecodeBuffers => some (s.queue .callOutputPartialDecodeBuffers)
  | .discardQueuedDecodes => some s.discardQueuedDecodes
  | .releaseReferenceFrame d => some (s.queue (.callReleaseReferenceFrame d))
  | .input b f gotBuffer preProcessing => some (s.input b f gotBuffer preProcessing)
  | label => s.processStep label s.process

/-- After a reset. -/
def start : ChainState where
  framesInPreprocessorChain _ := none
  ring := []
  discardFrames := false
  promoteNextStreamParametersToNew := false
  forceStreamParameterReload := false
  process := .waiting
  chainReferences _ := 0
  sent := none
  queued := []
  performed := []
  discardsSince := 0
  withheldParameters := false

/-! ### Entries -/

/-- The entry that the process has taken off the ring. -/
def taken : Process → List ℕ
  | .waiting => []
  | .reached i => [i]
  | .finished i => [i]

/-- The entry whose action is to be performed next. -/
def toPerform : Process → List ℕ
  | .reached i => [i]
  | _ => []

/-- The actions of some entries. -/
def actions (s : ChainState) (entries : List ℕ) : List Action :=
  entries.filterMap s.framesInPreprocessorChain

/-- The entries in use are those of the ring and the one of the process, each once. -/
structure Entries (s : ChainState) : Prop where
  used : ∀ i, (s.framesInPreprocessorChain i).isSome ↔ i ∈ taken s.process ++ s.ring
  nodup : (taken s.process ++ s.ring).Nodup
  bounded : ∀ i ∈ taken s.process ++ s.ring, i < codedFrameCount

variable {s t : ChainState} {i : ℕ}

theorem findUnused_some (h : s.findUnused = some i) :
    s.framesInPreprocessorChain i = none ∧ i < codedFrameCount := by
  unfold findUnused at h
  generalize codedFrameCount = count at h ⊢
  have hnone := List.find?_some (p := fun i => (s.framesInPreprocessorChain i).isNone) h
  have hmem := List.mem_of_find?_eq_some h
  rw [List.mem_range'_1, Nat.zero_add] at hmem
  exact ⟨Option.isNone_iff_eq_none.mp hnone, hmem.2⟩

theorem actions_update_of_notMem {entries : List ℕ} {a : Option Action}
    (ht : t.framesInPreprocessorChain = Function.update s.framesInPreprocessorChain i a)
    (hi : i ∉ entries) : t.actions entries = s.actions entries := by
  apply List.filterMap_congr
  intro j hj
  rw [ht, Function.update_of_ne]
  rintro rfl
  exact hi hj

theorem Entries.notMem (h : Entries s)
    (hi : s.framesInPreprocessorChain i = none) : i ∉ taken s.process ++ s.ring := by
  intro hmem
  have hsome := (h.used i).mpr hmem
  rw [hi] at hsome
  cases hsome

theorem Entries.room (h : Entries s)
    (hi : s.framesInPreprocessorChain i = none) (hlt : i < codedFrameCount) :
    s.ring.length < codedFrameCount := by
  have hnot := h.notMem hi
  have hnodup : (i :: (taken s.process ++ s.ring)).Nodup := List.nodup_cons.mpr ⟨hnot, h.nodup⟩
  have hsub : i :: (taken s.process ++ s.ring) ⊆ List.range codedFrameCount := by
    intro j hj
    rw [List.mem_range]
    rcases List.mem_cons.mp hj with rfl | hmem
    · exact hlt
    · exact h.bounded j hmem
  have hle := (List.subperm_of_subset hnodup hsub).length_le
  rw [List.length_range] at hle
  generalize codedFrameCount = count at hle ⊢
  rw [List.length_cons, List.length_append] at hle
  omega

theorem Entries.insertAt (h : Entries s) (a : Action)
    (hi : s.framesInPreprocessorChain i = none) (hlt : i < codedFrameCount) :
    s.insertAt a i = { s with
      framesInPreprocessorChain := Function.update s.framesInPreprocessorChain i (some a)
      chainReferences := takeReference s.chainReferences a.codedBuffer
      queued := s.queued ++ [a]
      ring := s.ring ++ [i] } ∧
    Entries (s.insertAt a i) ∧ (s.insertAt a i).actions (s.insertAt a i).ring = s.actions s.ring ++ [a] ∧
      ∀ entries, entries ⊆ taken s.process → (s.insertAt a i).actions entries = s.actions entries := by
  have heq : s.insertAt a i = { s with
      framesInPreprocessorChain := Function.update s.framesInPreprocessorChain i (some a)
      chainReferences := takeReference s.chainReferences a.codedBuffer
      queued := s.queued ++ [a]
      ring := s.ring ++ [i] } := by
    have hroom := h.room hi hlt
    unfold ChainState.insertAt insertRing
    rw [if_pos hroom]
  have hnot := h.notMem hi
  rw [List.mem_append, not_or] at hnot
  rw [heq]
  refine ⟨rfl, ⟨?_, ?_, ?_⟩, ?_, ?_⟩
  · intro j
    have hold := h.used j
    by_cases hj : j = i
    · subst hj
      simp
    · simpa [Function.update_of_ne hj, hj] using hold
  · rw [← List.append_assoc, List.nodup_append]
    refine ⟨h.nodup, List.nodup_singleton i, ?_⟩
    intro j hj k hk
    rw [List.mem_singleton.mp hk]
    rintro rfl
    exact (List.mem_append.mp hj).elim hnot.1 hnot.2
  · intro j hj
    rw [← List.append_assoc] at hj
    rcases List.mem_append.mp hj with hold | hnew
    · exact h.bounded j hold
    · rw [List.mem_singleton.mp hnew]
      exact hlt
  · have hold : ∀ j ∈ s.ring, Function.update s.framesInPreprocessorChain i (some a) j =
        s.framesInPreprocessorChain j := by
      intro j hj
      apply Function.update_of_ne
      rintro rfl
      exact hnot.2 hj
    simp only [actions, List.filterMap_append, List.filterMap_congr hold]
    simp
  · intro entries hsub
    exact actions_update_of_notMem rfl fun hmem => hnot.1 (hsub hmem)

variable {rest : List ℕ}

theorem Entries.extract (h : Entries s)
    (hwaiting : s.process = .waiting) (hring : s.ring = i :: rest) :
    Entries { s with ring := rest, process := .reached i } := by
  obtain ⟨hused, hnodup, hbounded⟩ := h
  rw [hwaiting, hring] at hused hnodup hbounded
  exact ⟨hused, hnodup, hbounded⟩

theorem Entries.release (h : Entries s) (hfinished : s.process = .finished i) :
    Entries (s.release i) ∧ (s.release i).actions s.ring = s.actions s.ring := by
  obtain ⟨hused, hnodup, hbounded⟩ := h
  rw [hfinished] at hused hnodup hbounded
  have hnot : i ∉ s.ring := (List.nodup_cons.mp hnodup).1
  refine ⟨⟨?_, ?_, ?_⟩, actions_update_of_notMem rfl hnot⟩
  · intro j
    change (Function.update s.framesInPreprocessorChain i none j).isSome ↔ j ∈ s.ring
    by_cases hj : j = i
    · subst hj
      simp [hnot]
    · rw [Function.update_of_ne hj, hused j]
      simp [taken, hj]
  · exact (List.nodup_cons.mp hnodup).2
  · exact fun j hj => hbounded j (List.mem_cons_of_mem i hj)

/-! ### Stream parameters -/

/-- The set of stream parameters that a frame brings. -/
def newSet (a : Action) : Option ℕ :=
  a.frame.bind fun f => if f.newStreamParameters then f.streamParameters else none

/-- The latest set that some actions brought. -/
def latestParameters (before : List Action) : Option ℕ := (before.filterMap newSet).getLast?

/-- A frame refers to the set that it brings, or to the latest one before it; a marker may do without. -/
def Carries (before : List Action) (f : ParsedFrame) : Prop :=
  (f.newStreamParameters = true → f.streamParameters.isSome = true) ∧
  (f.newStreamParameters = false → f.streamParameters = latestParameters before ∨
    f.streamParameters = none ∧ f.newFrameParameters = false ∧ f.codedDataLength = 0)

instance (before : List Action) (f : ParsedFrame) : Decidable (Carries before f) :=
  inferInstanceAs (Decidable (_ ∧ _))

/-- Where stream parameters were withheld, a frame brings its own, or gets the ones that are promoted. -/
def ParametersMeant (s : ChainState) (f : ParsedFrame) : Prop :=
  s.withheldParameters = true → f.newStreamParameters = true ∨
    s.promoteNextStreamParametersToNew = true ∨ f.newFrameParameters = false

instance (s : ChainState) (f : ParsedFrame) : Decidable (ParametersMeant s f) :=
  inferInstanceAs (Decidable (_ → _))

variable {a : Action} {f : ParsedFrame}

theorem newSet_of_frame (ha : a.frame = some f) :
    newSet a = if f.newStreamParameters then f.streamParameters else none := by
  rw [newSet, ha]
  rfl

theorem latestParameters_concat (before : List Action) (a : Action) :
    latestParameters (before ++ [a]) = (newSet a).or (latestParameters before) := by
  unfold latestParameters
  cases h : newSet a with
  | none => simp [h]
  | some p => simp [h]

/-- The stream parameters that are promoted, to be reloaded, or withheld, and otherwise sent. -/
structure ParametersKept (s : ChainState) (before : List Action) : Prop where
  forced : s.forceStreamParameterReload = true → s.promoteNextStreamParametersToNew = true
  promoted : s.promoteNextStreamParametersToNew = true → (latestParameters before).isSome = true
  kept : s.promoteNextStreamParametersToNew = true ∨ s.withheldParameters = true ∨
    s.sent = latestParameters before

theorem mmeInput_new (hnew : f.newStreamParameters = true)
    (result : InputResult) :
    (s.mmeInput f result).2.1 = true ∧ ((s.mmeInput f result).2.2 = true →
      (s.mmeInput f result).1 = { s with
        forceStreamParameterReload := false
        sent := f.streamParameters
        withheldParameters := false }) := by
  unfold mmeInput
  rw [hnew, Bool.not_true, Bool.and_false, Bool.false_and, if_neg Bool.false_ne_true]
  cases result with
  | refused => exact ⟨rfl, fun hok => by cases hok⟩
  | noContext => exact ⟨rfl, fun hok => by cases hok⟩
  | notSent => exact ⟨rfl, fun hok => by cases hok⟩
  | notDecoded => exact ⟨rfl, fun hok => by cases hok⟩
  | accepted => exact ⟨rfl, fun _ => rfl⟩

theorem mmeInput_old (hold : f.newStreamParameters = false)
    (hforce : s.forceStreamParameterReload = false) (result : InputResult) :
    (s.mmeInput f result).2.1 = false ∧ (s.mmeInput f result).1 = s := by
  have hsame : { s with forceStreamParameterReload := false } = s := by
    rw [← hforce]
  unfold mmeInput
  rw [hold, hforce]
  split
  · exact ⟨rfl, rfl⟩
  · cases result with
    | refused => exact ⟨rfl, rfl⟩
    | noContext => exact ⟨rfl, hsame⟩
    | notSent => exact ⟨rfl, hsame⟩
    | notDecoded => exact ⟨rfl, hsame⟩
    | accepted => exact ⟨rfl, hsame⟩

theorem mmeInput_frame (s : ChainState) (f : ParsedFrame) (result : InputResult) :
    ∃ forced sent withheld, (s.mmeInput f result).1 = { s with
      forceStreamParameterReload := forced
      sent := sent
      withheldParameters := withheld } := by
  unfold mmeInput
  split
  · exact ⟨_, _, _, rfl⟩
  · cases result with
    | refused => exact ⟨_, _, _, rfl⟩
    | noContext => exact ⟨false, _, _, rfl⟩
    | notSent => exact ⟨_, _, _, rfl⟩
    | notDecoded =>
      dsimp only
      split
      · exact ⟨false, _, false, rfl⟩
      · exact ⟨false, _, _, rfl⟩
    | accepted =>
      dsimp only
      split
      · exact ⟨false, _, false, rfl⟩
      · exact ⟨false, _, _, rfl⟩

variable {before : List Action}

theorem ParametersKept.promotes (h : ParametersKept s before) (hcarries : Carries before f)
    (hpromote : s.promoteNextStreamParametersToNew = true) (hold : f.newStreamParameters = false) :
    s.promotes f = true ∧ f.streamParameters = latestParameters before ∨
      s.promotes f = false ∧ f.newFrameParameters = false ∧ f.codedDataLength = 0 := by
  unfold ChainState.promotes
  rw [hpromote, Bool.true_and]
  rcases hcarries.2 hold with hlatest | ⟨hnone, hmarker⟩
  · exact .inl ⟨hlatest ▸ h.promoted hpromote, hlatest⟩
  · exact .inr ⟨by rw [hnone]; rfl, hmarker⟩

theorem ParametersKept.not_promotes (h : ParametersKept s before)
    (f : ParsedFrame) (hpromote : s.promoteNextStreamParametersToNew = false) :
    s.promotes f = false ∧ s.forceStreamParameterReload = false := by
  constructor
  · unfold ChainState.promotes
    rw [hpromote, Bool.false_and]
  · by_contra hforced
    have hforced' := h.forced (Bool.not_eq_false _ ▸ hforced)
    rw [hpromote] at hforced'
    cases hforced'

/-- A frame that is passed on leaves the stream parameters kept: sent, or promoted for the next. -/
theorem ParametersKept.passOn
    (h : ParametersKept s before) (ha : a.frame = some f) (hcarries : Carries before f)
    (result : InputResult) : ParametersKept (s.passOn a f result) (before ++ [a]) := by
  have hlatest := latestParameters_concat before a
  rw [newSet_of_frame ha] at hlatest
  -- Where a set is to be sent, it is the latest one; it is sent, or promoted after an error.
  have hsends : (f.newStreamParameters || s.promotes f) = true →
      f.streamParameters = latestParameters (before ++ [a]) → f.streamParameters.isSome = true →
      (s.promoteNextStreamParametersToNew && !s.promotes f) = false →
      ParametersKept (s.passOn a f result) (before ++ [a]) := by
    intro hnew hsame hsome hpromote
    obtain ⟨hflag, hsent⟩ := mmeInput_new (s := s.offer a f)
      (f := { f with newStreamParameters := f.newStreamParameters || s.promotes f }) hnew result
    unfold ChainState.passOn
    simp only
    split
    next => exact ⟨fun _ => rfl, fun _ => hsame ▸ hsome, .inl rfl⟩
    next hok =>
      rw [hflag, Bool.and_true, Bool.not_eq_true, Bool.not_eq_false'] at hok
      rw [hsent hok]
      refine ⟨fun hforce => ?_, fun hpromoted => ?_, .inr (.inr hsame)⟩
      · cases hforce
      · exact (Bool.eq_false_iff.mp hpromote hpromoted).elim
  cases hnew : f.newStreamParameters with
  | true =>
    have hsome := hcarries.1 hnew
    rw [hnew, if_pos rfl] at hlatest
    obtain ⟨p, hp⟩ := Option.isSome_iff_exists.mp hsome
    rw [hp, Option.some_or] at hlatest
    apply hsends
    · rw [hnew, Bool.true_or]
    · rw [hp, hlatest]
    · exact hsome
    · unfold ChainState.promotes
      rw [hsome]
      simp
  | false =>
    rw [hnew, if_neg Bool.false_ne_true, Option.none_or] at hlatest
    cases hpromote : s.promoteNextStreamParametersToNew with
    | true =>
      rcases h.promotes hcarries hpromote hnew with ⟨hpromotes, hsame⟩ | ⟨hpromotes, hframe, hdata⟩
      · apply hsends
        · rw [hpromotes, Bool.or_true]
        · rw [hsame, hlatest]
        · rw [hsame]
          exact h.promoted hpromote
        · rw [hpromotes]
          simp
      · -- A marker goes by.
        have hmarker : (s.passOn a f result) = s.offer a f := by
          unfold ChainState.passOn mmeInput
          rw [hnew, hpromotes, hframe, hdata]
          simp
        rw [hmarker]
        have hkept : (s.offer a f).promoteNextStreamParametersToNew = true := by
          unfold ChainState.offer
          rw [hpromote, hpromotes]
          rfl
        exact ⟨fun _ => hkept, fun _ => hlatest ▸ h.promoted hpromote, .inl hkept⟩
    | false =>
      obtain ⟨hpromotes, hforce⟩ := h.not_promotes f hpromote
      obtain ⟨hflag, hsame⟩ := mmeInput_old (s := s.offer a f)
        (f := { f with newStreamParameters := f.newStreamParameters || s.promotes f })
        (by rw [hnew, hpromotes]; rfl) hforce result
      have hoffer : s.passOn a f result = s.offer a f := by
        unfold ChainState.passOn
        simp only
        rw [hflag, Bool.and_false, if_neg Bool.false_ne_true, hsame]
      have hunpromoted : (s.offer a f).promoteNextStreamParametersToNew = false := by
        unfold ChainState.offer
        rw [hpromote]
        rfl
      rw [hoffer]
      refine ⟨fun hforced => ?_, fun hpromoted => ?_, ?_⟩
      · exact (Bool.eq_false_iff.mp hforce hforced).elim
      · exact (Bool.eq_false_iff.mp hunpromoted hpromoted).elim
      · rw [hlatest]
        rcases h.kept with hpromoted | hwithheld | hsent
        · exact (Bool.eq_false_iff.mp hpromote hpromoted).elim
        · exact .inr (.inl hwithheld)
        · exact .inr (.inr hsent)

theorem ParametersKept.toSend
    (h : ParametersKept s before) (ha : a.frame = some f) (hcarries : Carries before f)
    (hmeant : ParametersMeant s f) (hframe : f.newFrameParameters = true ∨ f.newStreamParameters = true) :
    s.toSend f = latestParameters (before ++ [a]) := by
  rw [latestParameters_concat, newSet_of_frame ha]
  unfold ChainState.toSend
  cases hnew : f.newStreamParameters with
  | true =>
    obtain ⟨p, hp⟩ := Option.isSome_iff_exists.mp (hcarries.1 hnew)
    rw [hp]
    rfl
  | false =>
    have hdata : f.newFrameParameters = true := by
      rcases hframe with hdata | hnew'
      · exact hdata
      · rw [hnew] at hnew'
        cases hnew'
    rw [if_neg Bool.false_ne_true, Option.none_or, Bool.false_or]
    cases hpromote : s.promoteNextStreamParametersToNew with
    | true =>
      rcases h.promotes hcarries hpromote hnew with ⟨hpromotes, hsame⟩ | ⟨-, hmarker, -⟩
      · rw [hpromotes, Bool.true_or, if_pos rfl]
        exact hsame
      · rw [hdata] at hmarker
        cases hmarker
    | false =>
      obtain ⟨hpromotes, hforce⟩ := h.not_promotes f hpromote
      rw [hpromotes, hforce, Bool.or_false, if_neg Bool.false_ne_true]
      rcases h.kept with hpromoted | hwithheld | hsent
      · rw [hpromote] at hpromoted
        cases hpromoted
      · rcases hmeant hwithheld with hnew' | hpromoted | hmarker
        · rw [hnew] at hnew'
          cases hnew'
        · rw [hpromote] at hpromoted
          cases hpromoted
        · rw [hdata] at hmarker
          cases hmarker
      · exact hsent

theorem ParametersKept.withhold
    (h : ParametersKept s before) (ha : a.frame = some f) (outcome : Outcome)
    (hcarries : Carries before f) : ParametersKept (s.withhold a f outcome) (before ++ [a]) := by
  have hlatest := latestParameters_concat before a
  rw [newSet_of_frame ha] at hlatest
  cases hnew : f.newStreamParameters with
  | true =>
    obtain ⟨p, hp⟩ := Option.isSome_iff_exists.mp (hcarries.1 hnew)
    rw [hnew, if_pos rfl, hp, Option.some_or] at hlatest
    refine ⟨h.forced, fun _ => by rw [hlatest]; rfl, .inr (.inl ?_)⟩
    unfold ChainState.withhold
    rw [hnew, Bool.or_true]
  | false =>
    rw [hnew, if_neg Bool.false_ne_true, Option.none_or] at hlatest
    refine ⟨h.forced, fun hpromoted => hlatest ▸ h.promoted hpromoted, ?_⟩
    unfold ChainState.withhold
    rw [hnew, Bool.or_false, hlatest]
    exact h.kept

theorem passOn_frame (s : ChainState) (a : Action) (f : ParsedFrame) (result : InputResult) :
    ∃ promote forced sent withheld, s.passOn a f result = { s.record a .passedOn (s.toSend f) with
      promoteNextStreamParametersToNew := promote
      forceStreamParameterReload := forced
      sent := sent
      withheldParameters := withheld } := by
  obtain ⟨forced, sent, withheld, hr⟩ := mmeInput_frame (s.offer a f)
    { f with newStreamParameters := f.newStreamParameters || s.promotes f } result
  unfold passOn
  dsimp only
  rw [hr]
  split
  · exact ⟨true, forced, sent, withheld, rfl⟩
  · exact ⟨_, forced, sent, withheld, rfl⟩

/-! ### A faithful queue -/

/-- Every element of a list fits those before it. -/
def Stepwise {α : Type*} (Fits : List α → α → Prop) (l : List α) : Prop :=
  ∀ before a after, l = before ++ a :: after → Fits before a

theorem Stepwise.concat {α : Type*} {Fits : List α → α → Prop} {l : List α} {a : α}
    (h : Stepwise Fits l) (ha : Fits l a) : Stepwise Fits (l ++ [a]) := by
  intro before b after heq
  rcases List.eq_nil_or_concat after with rfl | ⟨front, last, rfl⟩
  · obtain ⟨rfl, hb⟩ := List.append_inj' heq rfl
    cases hb
    exact ha
  · rw [List.concat_eq_append, ← List.cons_append, ← List.append_assoc] at heq
    exact h before b front (List.append_inj' heq rfl).1

/-- A performed action fits those performed before it: a frame that the pre-processor returned well was
withheld exactly when a discard was queued behind it, and where a frame was passed on, the set of stream
parameters sent last, or being sent, was the latest one of the queue. -/
structure Fits (before : List Performed) (r : Performed) : Prop where
  withheld : ∀ b f, r.action = .passOnPreProcessedFrame b f → r.outcome ≠ .junked →
    (r.outcome = .withheld ↔ r.discardQueued = true)
  parameters : ∀ f, r.action.frame = some f → r.outcome = .passedOn →
    f.newFrameParameters = true ∨ f.newStreamParameters = true →
    r.streamParameters = latestParameters (before.map (·.action) ++ [r.action])

/-- The chain is a queue: what was queued is what was performed, in this order, and what waits; the chain
has a reference on a coded buffer for each entry that is in use; and every performed action fits. -/
structure Faithful (s : ChainState) : Prop where
  order : s.queued = s.performed.map (·.action) ++
    (s.actions (toPerform s.process) ++ s.actions s.ring)
  references : ∀ b, s.chainReferences b =
    (s.actions (taken s.process ++ s.ring)).countP fun a => a.codedBuffer = some b
  performed : Stepwise Fits s.performed

/-- What the process finds: the discards behind a frame were not all queued before the process performed
another, and no stream parameters were withheld that the frame needs. -/
def ReachedMeant (s : ChainState) (good : Bool) : Action → Prop
  | .passOnPreProcessedFrame _ f => good = true →
      (s.discardQueued = true → 0 < s.discardsSince) ∧ (s.discardFrames = false → s.ParametersMeant f)
  | .passOnFrame _ f => s.ParametersMeant f
  | _ => True

instance (s : ChainState) (good : Bool) : (a : Action) → Decidable (s.ReachedMeant good a)
  | .passOnPreProcessedFrame _ _ => inferInstanceAs (Decidable (_ → _ ∧ _))
  | .passOnFrame _ f => inferInstanceAs (Decidable (s.ParametersMeant f))
  | .callOutputPartialDecodeBuffers | .callDiscardQueuedDecodes
  | .callReleaseReferenceFrame _ => isTrue trivial

/-- Frames refer to the latest stream parameters when they are queued, and are meant when reached. -/
def QueueMeant (s : ChainState) : Label → Prop
  | .input _ f _ _ => Carries s.queued f
  | .perform preProcessed allowBadFrames _ => ∀ i ∈ toPerform s.process,
      ∀ a ∈ (s.framesInPreprocessorChain i).toList, s.ReachedMeant (preProcessed.good i allowBadFrames) a
  | _ => True

instance (s : ChainState) : (label : Label) → Decidable (s.QueueMeant label)
  | .input _ f _ _ => inferInstanceAs (Decidable (Carries s.queued f))
  | .perform preProcessed allowBadFrames _ => inferInstanceAs (Decidable (∀ i ∈ toPerform s.process,
      ∀ a ∈ (s.framesInPreprocessorChain i).toList, s.ReachedMeant (preProcessed.good i allowBadFrames) a))
  | .outputPartialDecodeBuffers | .discardQueuedDecodes | .releaseReferenceFrame _ | .extract
  | .release => isTrue trivial

/-- The invariant of the chain. -/
structure Chained (s : ChainState) : Prop where
  entries : Entries s
  faithful : Faithful s
  flag : s.discardFrames = true ↔ 0 < s.discardsSince
  since : s.discardsSince ≤
    (s.actions (toPerform s.process) ++ s.actions s.ring).count .callDiscardQueuedDecodes
  kept : ParametersKept s (s.performed.map (·.action))
  carried : Stepwise (fun before a => ∀ f, a.frame = some f → Carries before f) s.queued

theorem discardQueued_iff (s : ChainState) :
    s.discardQueued = true ↔ Action.callDiscardQueuedDecodes ∈ s.actions s.ring := by
  unfold discardQueued actions
  simp

theorem taken_subset (p : Process) : toPerform p ⊆ taken p := by
  cases p with
  | waiting => exact List.Subset.refl _
  | reached i => exact List.Subset.refl _
  | finished i => exact List.nil_subset _

theorem takeReference_countP (references : ℕ → ℕ) (l : List Action) (a : Action)
    (h : ∀ b, references b = l.countP fun a => a.codedBuffer = some b) (b : ℕ) :
    takeReference references a.codedBuffer b = (l ++ [a]).countP fun a => a.codedBuffer = some b := by
  rw [List.countP_append, ← h b]
  unfold takeReference
  cases hcoded : a.codedBuffer with
  | none => simp [hcoded]
  | some c =>
    by_cases hb : b = c
    · subst hb
      simp [hcoded]
    · have hne : c ≠ b := fun heq => hb heq.symm
      simp [hcoded, Function.update_of_ne hb, hne]

theorem Chained.insertAt (h : Chained s)
    (hfind : s.findUnused = some i) (hcarries : ∀ f, a.frame = some f → Carries s.queued f) :
    Chained (s.insertAt a i) := by
  obtain ⟨hnone, hlt⟩ := findUnused_some hfind
  obtain ⟨heq, hentries, hring, htaken⟩ := h.entries.insertAt a hnone hlt
  have hprocess : (s.insertAt a i).process = s.process := by rw [heq]
  have hwaiting : (s.insertAt a i).actions (toPerform (s.insertAt a i).process) =
      s.actions (toPerform s.process) := by
    rw [hprocess]
    exact htaken _ (taken_subset s.process)
  have hperformed : (s.insertAt a i).performed = s.performed := by rw [heq]
  have hqueued : (s.insertAt a i).queued = s.queued ++ [a] := by rw [heq]
  refine ⟨hentries, ⟨?_, ?_, ?_⟩, ?_, ?_, ?_, ?_⟩
  · rw [hperformed, hqueued, hwaiting, hring, h.faithful.order]
    simp only [List.append_assoc]
  · intro b
    have href : (s.insertAt a i).chainReferences = takeReference s.chainReferences a.codedBuffer := by
      rw [heq]
    have hsplit : (s.insertAt a i).actions (taken s.process ++ (s.insertAt a i).ring) =
        s.actions (taken s.process ++ s.ring) ++ [a] := by
      have hleft := htaken (taken s.process) (List.Subset.refl _)
      unfold actions at hleft hring ⊢
      rw [List.filterMap_append, hleft, hring, List.filterMap_append, List.append_assoc]
    rw [hprocess, href, hsplit]
    exact takeReference_countP _ _ _ h.faithful.references b
  · rw [hperformed]
    exact h.faithful.performed
  · rw [heq]
    exact h.flag
  · have hsince : (s.insertAt a i).discardsSince = s.discardsSince := by rw [heq]
    have hold := h.since
    rw [List.count_append] at hold
    rw [hsince, hwaiting, hring, List.count_append, List.count_append]
    omega
  · have hkept := h.kept
    rw [heq]
    exact ⟨hkept.forced, hkept.promoted, hkept.kept⟩
  · rw [hqueued]
    exact h.carried.concat hcarries

theorem Chained.queue (h : Chained s)
    (hcarries : ∀ f, a.frame = some f → Carries s.queued f) : Chained (s.queue a) := by
  unfold ChainState.queue
  cases hfind : s.findUnused with
  | none => exact h
  | some i => exact h.insertAt hfind hcarries

theorem Chained.discardQueuedDecodes (h : Chained s) : Chained s.discardQueuedDecodes := by
  unfold ChainState.discardQueuedDecodes
  cases hfind : s.findUnused with
  | none => exact h
  | some i =>
    have hqueued := h.insertAt (a := .callDiscardQueuedDecodes) hfind fun f hf => by cases hf
    obtain ⟨hnone, hlt⟩ := findUnused_some hfind
    obtain ⟨heq, -, hring, htaken⟩ := h.entries.insertAt .callDiscardQueuedDecodes hnone hlt
    have hprocess : (s.insertAt .callDiscardQueuedDecodes i).process = s.process := by rw [heq]
    refine ⟨?_, ?_, ?_, ?_, ?_, hqueued.carried⟩
    · exact ⟨hqueued.entries.used, hqueued.entries.nodup, hqueued.entries.bounded⟩
    · exact ⟨hqueued.faithful.order, hqueued.faithful.references, hqueued.faithful.performed⟩
    · exact iff_of_true rfl (Nat.succ_pos _)
    · have hold := h.since
      have hwaiting := htaken _ (taken_subset s.process)
      change s.discardsSince + 1 ≤ ((s.insertAt .callDiscardQueuedDecodes i).actions
        (toPerform (s.insertAt .callDiscardQueuedDecodes i).process) ++
          (s.insertAt .callDiscardQueuedDecodes i).actions
            (s.insertAt .callDiscardQueuedDecodes i).ring).count _
      rw [hprocess, hwaiting, hring, List.count_append, List.count_append, List.count_singleton_self]
      rw [List.count_append] at hold
      omega
    · exact ⟨hqueued.kept.forced, hqueued.kept.promoted, hqueued.kept.kept⟩

theorem Chained.extract (h : Chained s)
    (hwaiting : s.process = .waiting) (hring : s.ring = i :: rest) :
    Chained { s with ring := rest, process := .reached i } := by
  have hsplit : s.actions [i] ++ s.actions rest = s.actions s.ring := by
    unfold actions
    rw [← List.filterMap_append, hring, List.singleton_append]
  have horder := h.faithful.order
  have hreferences := h.faithful.references
  have hsince := h.since
  rw [hwaiting] at horder hreferences hsince
  refine ⟨h.entries.extract hwaiting hring, ⟨?_, ?_, h.faithful.performed⟩, h.flag, ?_,
    ⟨h.kept.forced, h.kept.promoted, h.kept.kept⟩, h.carried⟩
  · rw [horder, ← hsplit]
    rfl
  · intro b
    rw [hreferences b, hring]
    rfl
  · rw [← hsplit] at hsince
    exact hsince

theorem perform_frame (s : ChainState) (entry : ℕ) (preProcessed : PreProcessed) (allowBadFrames : Bool)
    (result : InputResult) (a : Action) :
    ∃ outcome streamParameters discard promote forced sent since withheld,
      s.perform entry preProcessed allowBadFrames result a = { s with
        performed := s.performed ++ [⟨a, outcome, s.discardQueued, streamParameters⟩]
        discardFrames := discard
        promoteNextStreamParametersToNew := promote
        forceStreamParameterReload := forced
        sent := sent
        discardsSince := since
        withheldParameters := withheld } := by
  cases a with
  | callOutputPartialDecodeBuffers => exact ⟨_, _, _, _, _, _, _, _, rfl⟩
  | callDiscardQueuedDecodes => exact ⟨.called, s.sent, false, _, _, _, 0, _, rfl⟩
  | callReleaseReferenceFrame d => exact ⟨_, _, _, _, _, _, _, _, rfl⟩
  | passOnFrame b f =>
    obtain ⟨promote, forced, sent, withheld, hpass⟩ := s.passOn_frame (.passOnFrame b f) f result
    exact ⟨_, _, _, _, _, _, _, _, hpass⟩
  | passOnPreProcessedFrame b f =>
    obtain ⟨promote, forced, sent, withheld, hpass⟩ :=
      s.passOn_frame (.passOnPreProcessedFrame b f) f result
    unfold perform
    dsimp only
    split
    · exact ⟨.junked, s.sent, _, _, _, _, _, _, rfl⟩
    · split
      · exact ⟨.withheld, s.sent, _, _, _, _, _, _, rfl⟩
      · exact ⟨_, _, _, _, _, _, _, _, hpass⟩

theorem fits_passOn (ha : a.frame = some f)
    (h : ParametersKept s (s.performed.map (·.action)))
    (hcarries : Carries (s.performed.map (·.action)) f) (hmeant : s.ParametersMeant f)
    (hdiscard : ∀ b f, a = .passOnPreProcessedFrame b f → s.discardQueued = false) :
    Fits s.performed ⟨a, .passedOn, s.discardQueued, s.toSend f⟩ where
  withheld b f' hb _ := by
    refine iff_of_false (fun hfalse => by cases hfalse) ?_
    rw [hdiscard b f' hb]
    exact Bool.false_ne_true
  parameters f' hf' _ hframe := by
    rw [ha] at hf'
    cases hf'
    exact h.toSend ha hcarries hmeant hframe

theorem fits_other {before : List Performed} {r : Performed} (houtcome : r.outcome ≠ .passedOn)
    (hwithheld : ∀ b f, r.action = .passOnPreProcessedFrame b f → r.outcome ≠ .junked →
      (r.outcome = .withheld ↔ r.discardQueued = true)) : Fits before r where
  withheld := hwithheld
  parameters _ _ hpassed _ := absurd hpassed houtcome

theorem ParametersKept.congr (h : ParametersKept s before) (ha : a.frame = none)
    (hforced : t.forceStreamParameterReload = s.forceStreamParameterReload)
    (hpromote : t.promoteNextStreamParametersToNew = s.promoteNextStreamParametersToNew)
    (hsent : t.sent = s.sent) (hwithheld : t.withheldParameters = s.withheldParameters) :
    ParametersKept t (before ++ [a]) := by
  have hlatest : latestParameters (before ++ [a]) = latestParameters before := by
    rw [latestParameters_concat, newSet, ha]
    rfl
  refine ⟨?_, ?_, ?_⟩
  · rw [hforced, hpromote]
    exact h.forced
  · rw [hpromote, hlatest]
    exact h.promoted
  · rw [hpromote, hsent, hwithheld, hlatest]
    exact h.kept

/-- What performing an action leaves of the invariant. -/
structure Advances (s : ChainState) (a : Action) (t : ChainState) : Prop where
  performed : Stepwise Fits t.performed
  flag : t.discardFrames = true ↔ 0 < t.discardsSince
  since : t.discardsSince ≤ (s.actions s.ring).count .callDiscardQueuedDecodes
  kept : ParametersKept t (s.performed.map (·.action) ++ [a])

theorem Chained.advances_record (h : Chained s) (ha : a.frame = none)
    (hsince : s.discardsSince ≤ (s.actions s.ring).count .callDiscardQueuedDecodes) :
    Advances s a (s.record a .called s.sent) where
  performed := by
    refine h.faithful.performed.concat (fits_other (fun hfalse => by cases hfalse) ?_)
    intro b f hb
    change a = _ at hb
    rw [hb] at ha
    cases ha
  flag := h.flag
  since := hsince
  kept := h.kept.congr ha rfl rfl rfl rfl

theorem Chained.advances_passOn (h : Chained s)
    (result : InputResult) (ha : a.frame = some f) (hcarries : Carries (s.performed.map (·.action)) f)
    (hmeant : s.ParametersMeant f)
    (hdiscard : ∀ b f, a = .passOnPreProcessedFrame b f → s.discardQueued = false)
    (hsince : s.discardsSince ≤ (s.actions s.ring).count .callDiscardQueuedDecodes) :
    Advances s a (s.passOn a f result) := by
  have hkept := h.kept.passOn ha hcarries result
  have hfits := fits_passOn ha h.kept hcarries hmeant hdiscard
  obtain ⟨promote, forced, sent, withheld, hpass⟩ := s.passOn_frame a f result
  rw [hpass] at hkept ⊢
  exact ⟨h.faithful.performed.concat hfits, h.flag, hsince, hkept⟩

theorem Chained.advances_withhold {outcome : Outcome}
    (h : Chained s) (ha : a.frame = some f) (hcarries : Carries (s.performed.map (·.action)) f)
    (houtcome : outcome ≠ .passedOn) (hdiscard : outcome ≠ .junked → s.discardQueued = true)
    (hjunked : outcome = .junked ∨ outcome = .withheld)
    (hsince : s.discardsSince ≤ (s.actions s.ring).count .callDiscardQueuedDecodes) :
    Advances s a (s.withhold a f outcome) where
  performed := by
    refine h.faithful.performed.concat (fits_other houtcome ?_)
    intro b f' _ hne
    exact iff_of_true (hjunked.resolve_left hne) (hdiscard hne)
  flag := h.flag
  since := hsince
  kept := h.kept.withhold ha outcome hcarries

variable {preProcessed : PreProcessed} {allowBadFrames : Bool}

theorem Chained.advances {rest : List Action}
    (h : Chained s) (result : InputResult)
    (horder : s.queued = s.performed.map (·.action) ++ a :: rest)
    (hcount : s.discardsSince ≤ (a :: s.actions s.ring).count .callDiscardQueuedDecodes)
    (hmeant : s.ReachedMeant (preProcessed.good i allowBadFrames) a) :
    Advances s a (s.perform i preProcessed allowBadFrames result a) := by
  have hcarries : ∀ f, a.frame = some f → Carries (s.performed.map (·.action)) f :=
    h.carried _ a rest horder
  have hsince : a ≠ .callDiscardQueuedDecodes →
      s.discardsSince ≤ (s.actions s.ring).count .callDiscardQueuedDecodes := by
    intro hne
    rwa [List.count_cons_of_ne hne] at hcount
  cases a with
  | callOutputPartialDecodeBuffers =>
    exact h.advances_record rfl (hsince fun hfalse => by cases hfalse)
  | callReleaseReferenceFrame d =>
    exact h.advances_record rfl (hsince fun hfalse => by cases hfalse)
  | callDiscardQueuedDecodes =>
    constructor
    case performed =>
      exact h.faithful.performed.concat
        (fits_other (fun hfalse => by cases hfalse) fun b f hb => by cases hb)
    case flag => exact iff_of_false Bool.false_ne_true (lt_irrefl 0)
    case since => exact Nat.zero_le _
    case kept => exact h.kept.congr rfl rfl rfl rfl rfl
  | passOnFrame b f =>
    exact h.advances_passOn result rfl (hcarries f rfl) hmeant (fun b' f' hb => by cases hb)
      (hsince fun hfalse => by cases hfalse)
  | passOnPreProcessedFrame b f =>
    have hsince' := hsince fun hfalse => by cases hfalse
    unfold ChainState.perform
    dsimp only
    split
    next =>
      exact h.advances_withhold rfl (hcarries f rfl) (fun hfalse => by cases hfalse)
        (fun hne => absurd rfl hne) (.inl rfl) hsince'
    next hgood =>
      rw [Bool.not_eq_true, Bool.not_eq_false'] at hgood
      obtain ⟨hfresh, hparameters⟩ := hmeant hgood
      split
      next hflag =>
        -- The flag stands for a discard that was queued since and is still in the ring.
        have hpos := h.flag.mp hflag
        have hqueued : s.discardQueued = true :=
          (discardQueued_iff s).mpr (List.count_pos_iff.mp (Nat.lt_of_lt_of_le hpos hsince'))
        exact h.advances_withhold rfl (hcarries f rfl) (fun hfalse => by cases hfalse)
          (fun _ => hqueued) (.inr rfl) hsince'
      next hflag =>
        have hnone : s.discardQueued = false := by
          by_contra hqueued
          exact hflag (h.flag.mpr (hfresh (Bool.not_eq_false _ ▸ hqueued)))
        exact h.advances_passOn result rfl (hcarries f rfl)
          (hparameters (Bool.not_eq_true _ ▸ hflag)) (fun _ _ _ => hnone) hsince'

theorem Chained.perform (h : Chained s) (result : InputResult) (hreached : s.process = .reached i)
    (ha : s.framesInPreprocessorChain i = some a)
    (hmeant : s.ReachedMeant (preProcessed.good i allowBadFrames) a) :
    Chained { s.perform i preProcessed allowBadFrames result a with process := .finished i } := by
  have hreach : s.actions (toPerform s.process) = [a] := by
    rw [hreached]
    simp [actions, toPerform, ha]
  have horder := h.faithful.order
  have hsince := h.since
  rw [hreach] at horder hsince
  obtain ⟨hperformed, hflag, hcount, hkept⟩ := h.advances result horder hsince hmeant
  have hentries := h.entries
  have hreferences := h.faithful.references
  have hcarried := h.carried
  obtain ⟨outcome, streamParameters, discard, promote, forced, sent, since, withheld, hframe⟩ :=
    s.perform_frame i preProcessed allowBadFrames result a
  rw [hframe] at hperformed hflag hcount hkept ⊢
  obtain ⟨hused, hnodup, hbounded⟩ := hentries
  rw [hreached] at hused hnodup hbounded hreferences
  refine ⟨⟨hused, hnodup, hbounded⟩, ⟨?_, hreferences, hperformed⟩, hflag, hcount, ?_, hcarried⟩
  · simp only [List.map_append, List.map_singleton, List.append_assoc]
    exact horder
  · simp only [List.map_append, List.map_singleton]
    exact ⟨hkept.forced, hkept.promoted, hkept.kept⟩

theorem dropReference_countP (references : ℕ → ℕ) (l : List Action) (a : Action)
    (h : ∀ b, references b = (a :: l).countP fun a => a.codedBuffer = some b) (b : ℕ) :
    dropReference references a.codedBuffer b = l.countP fun a => a.codedBuffer = some b := by
  have hb := h b
  unfold dropReference
  cases hcoded : a.codedBuffer with
  | none => simpa [hcoded] using hb
  | some c =>
    by_cases heq : b = c
    · subst heq
      simp [hcoded] at hb
      simp [hb]
    · have hne : c ≠ b := fun hcb => heq hcb.symm
      simpa [hcoded, Function.update_of_ne heq, hne] using hb

theorem Chained.release (h : Chained s) (hfinished : s.process = .finished i) :
    Chained (s.release i) := by
  obtain ⟨hentries, hring⟩ := h.entries.release hfinished
  have horder := h.faithful.order
  have hreferences := h.faithful.references
  have hsince := h.since
  rw [hfinished] at horder hreferences hsince
  have hused : (s.framesInPreprocessorChain i).isSome := by
    rw [h.entries.used i, hfinished]
    exact List.mem_cons_self
  obtain ⟨a, ha⟩ := Option.isSome_iff_exists.mp hused
  have hsplit : s.actions (taken (.finished i) ++ s.ring) = a :: s.actions s.ring := by
    simp [actions, taken, ha]
  refine ⟨hentries, ⟨?_, ?_, h.faithful.performed⟩, h.flag, ?_,
    ⟨h.kept.forced, h.kept.promoted, h.kept.kept⟩, h.carried⟩
  · change s.queued = _ ++ (_ ++ (s.release i).actions s.ring)
    rw [horder, hring]
    rfl
  · intro b
    change dropReference s.chainReferences ((s.framesInPreprocessorChain i).bind Action.codedBuffer) b =
      ((s.release i).actions s.ring).countP _
    rw [ha, Option.bind_some, hring]
    apply dropReference_countP
    intro b'
    rw [hreferences b', hsplit]
  · change s.discardsSince ≤ (_ ++ (s.release i).actions s.ring).count _
    rw [hring]
    exact hsince

variable {label : Label}

theorem Chained.processStep (h : Chained s)
    (hlabel : s.QueueMeant label) (hstep : s.processStep label s.process = some t) : Chained t := by
  unfold ChainState.processStep at hstep
  split at hstep
  next hwaiting =>
    rw [Option.map_eq_some_iff] at hstep
    obtain ⟨i, hhead, rfl⟩ := hstep
    obtain ⟨rest, hring⟩ := List.head?_eq_some_iff.mp hhead
    rw [hring, List.tail_cons]
    exact h.extract hwaiting hring
  next preProcessed allowBadFrames result i hreached =>
    rw [Option.map_eq_some_iff] at hstep
    obtain ⟨a, ha, rfl⟩ := hstep
    apply h.perform result hreached ha
    apply hlabel i
    · rw [hreached]
      exact List.mem_singleton_self i
    · rw [ha]
      exact List.mem_singleton_self a
  next i hfinished =>
    cases hstep
    exact h.release hfinished
  next => cases hstep

theorem chained_step (h : Chained s) (hlabel : s.QueueMeant label)
    (hstep : s.step label = some t) : Chained t := by
  cases label with
  | outputPartialDecodeBuffers =>
    cases hstep
    exact h.queue fun f hf => by cases hf
  | discardQueuedDecodes =>
    cases hstep
    exact h.discardQueuedDecodes
  | releaseReferenceFrame d =>
    cases hstep
    exact h.queue fun f hf => by cases hf
  | input b f gotBuffer preProcessing =>
    cases hstep
    unfold ChainState.input
    split
    · exact h.queue fun f' hf => by cases hf; exact hlabel
    · split
      · exact h
      · split
        · exact h
        · split
          · exact h
          · exact h.queue fun f' hf => by cases hf; exact hlabel
  | extract => exact h.processStep hlabel hstep
  | perform preProcessed allowBadFrames result => exact h.processStep hlabel hstep
  | release => exact h.processStep hlabel hstep

theorem start_chained : Chained start where
  entries := ⟨fun _ => iff_of_false Bool.false_ne_true List.not_mem_nil, List.nodup_nil,
    fun _ hi => (List.not_mem_nil hi).elim⟩
  faithful := ⟨rfl, fun _ => rfl, fun before r after heq => by cases before <;> cases heq⟩
  flag := iff_of_false Bool.false_ne_true (lt_irrefl 0)
  since := le_refl 0
  kept := ⟨fun hforced => (by cases hforced), fun hpromoted => (by cases hpromoted), .inr (.inr rfl)⟩
  carried before a after heq := by cases before <;> cases heq

/-- **A faithful queue**: in every run in which the frames refer to the latest stream parameters, none
that a frame needs are withheld, and of the discards queued behind a frame one was queued after the
process last performed one, the chain is a queue, withholds the frames that are discarded, and loses no
stream parameters. -/
theorem run_faithful {labels : List Label} {s : ChainState}
    (hlabels : Lts.Along step QueueMeant start labels) (h : Lts.run step start labels = some s) :
    s.Faithful :=
  (Lts.run_invariant_along (I := Chained) (fun _ _ _ ht hlabel hstep => chained_step ht hlabel hstep)
    start_chained hlabels h).faithful

/-- A frame with new stream parameters. -/
def newFrame : ParsedFrame := ⟨true, true, some 1, 0, true, 100⟩

/-- A frame that goes on with them. -/
def nextFrame : ParsedFrame := ⟨true, false, some 1, 1, true, 100⟩

/-- The process takes an entry, performs its action and releases it. -/
def processed (i statusMask : ℕ) (result : InputResult) : List Label :=
  [.extract, .perform ⟨true, i, statusMask⟩ false result, .release]

/-- Frames after an error of `Codec_MmeVideo_c::Input`, and a discard. -/
def promotedAndWithheld : List Label :=
  [.input 0 newFrame true true, .input 1 nextFrame true true] ++ processed 0 0 .refused ++
    processed 1 0 .accepted ++ [.input 2 nextFrame true true, .discardQueuedDecodes] ++
      processed 0 0 .accepted

/-- `run_faithful` over frames that are passed on and withheld. -/
theorem run_faithful_promotedAndWithheld :
    ∃ s, Lts.run step start promotedAndWithheld = some s ∧
      s.performed.map (·.outcome) = [.passedOn, .passedOn, .withheld] ∧ s.Faithful := by
  have hlabels : Lts.Along step QueueMeant start promotedAndWithheld := by decide +kernel
  exact ⟨_, rfl, by decide +kernel, run_faithful hlabels rfl⟩

/-- The frames refer to the latest stream parameters. -/
def InputMeant (s : ChainState) : Label → Prop
  | .input _ f _ _ => Carries s.queued f
  | _ => True

instance (s : ChainState) : (label : Label) → Decidable (s.InputMeant label)
  | .input _ f _ _ => inferInstanceAs (Decidable (Carries s.queued f))
  | .outputPartialDecodeBuffers | .discardQueuedDecodes | .releaseReferenceFrame _ | .extract
  | .perform _ _ _ | .release => isTrue trivial

/-- A frame between two discards. -/
def betweenDiscards : List Label :=
  [.discardQueuedDecodes, .input 0 newFrame true true, .discardQueuedDecodes] ++
    processed 0 0 .accepted ++ processed 1 0 .accepted

/-- The first of two discards clears the flag of the second. -/
theorem not_run_faithful_betweenDiscards :
    ¬ ∀ (labels : List Label) (s : ChainState), Lts.Along step InputMeant start labels →
      Lts.run step start labels = some s → s.Faithful := by
  intro hall
  have hlabels : Lts.Along step InputMeant start betweenDiscards := by decide +kernel
  have hfaithful := hall betweenDiscards _ hlabels rfl
  have hfits := hfaithful.performed [⟨.callDiscardQueuedDecodes, .called, true, none⟩]
    ⟨.passOnPreProcessedFrame 0 newFrame, .passedOn, true, some 1⟩ [] (by decide +kernel)
  have hwithheld := (hfits.withheld 0 newFrame rfl (fun hfalse => by cases hfalse)).mpr rfl
  cases hwithheld

end ChainState

end Player2.Codec.Chain

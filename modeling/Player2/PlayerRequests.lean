import Mathlib.Data.List.Nodup
import Mathlib.Data.List.Pairwise
import Mathlib.Data.List.TakeWhile

/-! # Requests for many streams

`SetModuleParameters`, `InputJump` and `InputGlitch` are addressed to all playbacks or one and to all
streams or one.  Two nested loops over linked lists find the streams; the value that stands for all of
them is the pointer that ends the lists.

`truthful_iff` says when a request reaches each instance it is meant for once, and no other, and the
status says whether that succeeded.  A collator is followed by a call that is not supported; an output
coordinator is only found with a stream; a call in sequence does not look whether the ring takes it, nor
whether the parameter block fits. -/

namespace Player2.PlayerRequests

/-! ### Playbacks and streams -/

/-- `PlayerStatus_t`. -/
inductive PlayerStatus
  | playerNoError
  | playerError
  | playerNotSupported
  | other (code : ℕ)
deriving DecidableEq

/-- A stream: which one it is, its playback, and the demultiplexor it is attached to. -/
structure Stream where
  id : ℕ
  playback : ℕ
  nextBufferSequenceNumber : ℕ
  demultiplexor : Option ℕ
deriving DecidableEq

/-- A playback and `ListOfStreams`. -/
structure Playback where
  id : ℕ
  listOfStreams : List Stream
deriving DecidableEq

/-- `ListOfPlaybacks` and the number of the demultiplexors. -/
structure Player where
  listOfPlaybacks : List Playback
  demultiplexorCount : ℕ
  distinct : (listOfPlaybacks.map Playback.id).Nodup
  nodup : ∀ p ∈ listOfPlaybacks, p.listOfStreams.Nodup
  playback_of_mem : ∀ p ∈ listOfPlaybacks, ∀ s ∈ p.listOfStreams, s.playback = p.id

/-- The playback and the stream that a request is addressed to; `none` is `PlayerAllPlaybacks` and
`PlayerAllStreams`. -/
structure Address (player : Player) where
  playback : Option Playback
  stream : Option Stream
  playback_mem : ∀ p ∈ playback, p ∈ player.listOfPlaybacks
  stream_mem : ∀ s ∈ stream, ∃ p ∈ player.listOfPlaybacks, s ∈ p.listOfStreams

/-- `PlayerComponent_t`. -/
inductive Component
  | player
  | demultiplexor
  | collator
  | frameParser
  | codec
  | manifestor
  | outputTimer
  | outputCoordinator
  | external
deriving DecidableEq

/-- The functions for calls in sequence that are used here; the last one is `0xffffffff`. -/
inductive ComponentFunction
  | frameParserFnSetModuleParameters
  | codecFnSetModuleParameters
  | outputTimerFnSetModuleParameters
  | manifestorFnSetModuleParameters
  | unknown
deriving DecidableEq

/-- The rings that lead to the processes of a stream. -/
inductive Ring
  | collatedFrameRing
  | parsedFrameRing
  | decodedFrameRing
deriving DecidableEq

/-- The types of calls in sequence that are used here. -/
inductive SequenceType
  | immediate
  | beforeSequenceNumber
deriving DecidableEq

/-- Whatever can receive a request; the demultiplexors are numbered, and one that streams are attached to
has a context for each of them. -/
inductive Instance
  | player
  | demultiplexor (i : ℕ)
  | demultiplexorContext (i : ℕ) (s : Stream)
  | outputCoordinator (p : Playback)
  | collator (s : Stream)
  | frameParser (s : Stream)
  | codec (s : Stream)
  | outputTimer (s : Stream)
  | manifestor (s : Stream)
deriving DecidableEq

/-- What is said to an instance, at once or in a control structure. -/
inductive Message
  | setModuleParameters (parameterBlock : List UInt8)
  | inSequence (sequenceType : SequenceType) (sequenceValue : ℕ) (parameterBlock : List UInt8)
  | inputJump (surplusDataInjected continuousReverseJump : Bool)
  | contextInputJump
  | inputGlitch
deriving DecidableEq

/-- A request for an instance, and whether handing it over succeeded. -/
structure Delivery where
  receiver : Instance
  message : Message
  succeeded : Bool
deriving DecidableEq

/-- What the components answer to the request, and whether there is a control structure and room for it. -/
structure Answers where
  player : PlayerStatus
  demultiplexor : ℕ → PlayerStatus
  context : Stream → PlayerStatus
  outputCoordinator : Playback → PlayerStatus
  collator : Stream → PlayerStatus
  getBuffer : Stream → PlayerStatus
  room : Stream → Ring → Bool

/-! ### The loops -/

/-- The entries that the loops visit: with `NULL` for the address they go from the head of the list to
its end, otherwise they start at the entry addressed and go on while they are there. -/
def visited {ι : Type} [DecidableEq ι] (address : Option ι) (list : List ι) : List ι :=
  match address with
  | none => list
  | some x => (list.dropWhile fun y => y ≠ x).takeWhile fun y => y = x

/-- `CurrentStatus` where it is looked at, and what has been delivered for it. -/
structure Call where
  currentStatus : PlayerStatus
  deliveries : List Delivery
deriving DecidableEq

/-- `Status`, and everything delivered. -/
structure Outcome where
  status : PlayerStatus
  deliveries : List Delivery
deriving DecidableEq

/-- The status of a call replaces the one that there is, unless there was no error. -/
def Outcome.accumulate (o : Outcome) (c : Call) : Outcome :=
  ⟨if c.currentStatus ≠ .playerNoError then c.currentStatus else o.status, o.deliveries ++ c.deliveries⟩

/-- Calls one after the other. -/
def perform (calls : List Call) : Outcome := calls.foldl Outcome.accumulate ⟨.playerNoError, []⟩

variable {player : Player}

/-- `Stream->Playback`. -/
def Player.playbackOf (player : Player) (s : Stream) : Option Playback :=
  player.listOfPlaybacks.find? fun p => p.id = s.playback

namespace Address

/-- The check that all three begin with. -/
def differing (a : Address player) : Bool :=
  match a.playback, a.stream with
  | some p, some s => s.playback ≠ p.id
  | _, _ => false

/-- `Playback` after the playback of a specific stream has taken its place. -/
def subject (a : Address player) : Option Playback :=
  match a.stream with
  | some s => player.playbackOf s
  | none => a.playback

/-- The two nested loops; `stream` is `Stream` at the head of the inner one. -/
def visits (a : Address player) (stream : Playback → Option Stream) : List (Playback × Stream) :=
  (visited a.subject player.listOfPlaybacks).flatMap fun p =>
    (visited (stream p) p.listOfStreams).map (Prod.mk p)

end Address

/-! ### The requests -/

/-- `PLAYER_MAX_INLINE_PARAMETER_BLOCK_SIZE`, which is the size of `Block`. -/
def maxInlineParameterBlockSize : ℕ := 64

namespace ComponentFunction

def destinationRing : ComponentFunction → Option Ring
  | frameParserFnSetModuleParameters => some .collatedFrameRing
  | codecFnSetModuleParameters => some .parsedFrameRing
  | manifestorFnSetModuleParameters => some .decodedFrameRing
  | outputTimerFnSetModuleParameters => some .decodedFrameRing
  | unknown => none

/-- Whose `SetModuleParameters` it is that `PerformInSequenceCall` calls. -/
def receiver (s : Stream) : ComponentFunction → Option Instance
  | frameParserFnSetModuleParameters => some (.frameParser s)
  | codecFnSetModuleParameters => some (.codec s)
  | manifestorFnSetModuleParameters => some (.manifestor s)
  | outputTimerFnSetModuleParameters => some (.outputTimer s)
  | unknown => none

end ComponentFunction

/-- `CallInSequence`; what `Insert` says is not looked at.  A parameter block that is longer than `Block`
overruns the control structure, and does not count as delivered. -/
def callInSequence (answers : Answers) (s : Stream) (sequenceType : SequenceType) (sequenceValue : ℕ)
    (fn : ComponentFunction) (parameterBlock : List UInt8) : Call :=
  let handOver (succeeded : Bool) : List Delivery :=
    (fn.receiver s).toList.map fun r =>
      ⟨r, .inSequence sequenceType sequenceValue parameterBlock, succeeded⟩
  if answers.getBuffer s ≠ .playerNoError then ⟨answers.getBuffer s, handOver false⟩
  else
    match fn.destinationRing with
    | none => ⟨.playerNotSupported, []⟩
    | some ring =>
      ⟨.playerNoError,
        handOver (answers.room s ring && parameterBlock.length ≤ maxInlineParameterBlockSize)⟩

/-- A call of a component that answers with a status. -/
def callNow (receiver : Instance) (message : Message) (status : PlayerStatus) : Call :=
  ⟨status, [⟨receiver, message, status = .playerNoError⟩]⟩

namespace Component

/-- The components whose parameters can be set at once only. -/
def immediateOnly : Component → Bool
  | .player => true
  | .demultiplexor => true
  | .outputCoordinator => true
  | .collator => true
  | _ => false

def fn : Component → ComponentFunction
  | .frameParser => .frameParserFnSetModuleParameters
  | .codec => .codecFnSetModuleParameters
  | .outputTimer => .outputTimerFnSetModuleParameters
  | .manifestor => .manifestorFnSetModuleParameters
  | _ => .unknown

end Component

/-- A call of one of the three functions. -/
inductive Request
  | setModuleParameters (component : Component) (immediately : Bool) (parameterBlock : List UInt8)
  | inputJump (surplusDataInjected continuousReverseJump : Bool)
  | inputGlitch
deriving DecidableEq

/-- `SequenceType`. -/
def sequenceTypeOf (immediately : Bool) : SequenceType :=
  if immediately then .immediate else .beforeSequenceNumber

/-- What `SetModuleParameters` does for a playback and a stream; there is an `else` missing after the
call of the collator, and its status is replaced. -/
def setStreamParameters (answers : Answers) (component : Component) (immediately : Bool)
    (parameterBlock : List UInt8) (p : Playback) (s : Stream) : Call :=
  let collated : List Delivery :=
    if component = .collator then
      (callNow (.collator s) (.setModuleParameters parameterBlock) (answers.collator s)).deliveries
    else []
  let call : Call :=
    if component = .outputCoordinator then
      callNow (.outputCoordinator p) (.setModuleParameters parameterBlock) (answers.outputCoordinator p)
    else
      callInSequence answers s (sequenceTypeOf immediately) s.nextBufferSequenceNumber component.fn
        parameterBlock
  ⟨call.currentStatus, collated ++ call.deliveries⟩

/-- `SetModuleParameters`.  For the output coordinator the stream is replaced by the first one of the
playback, in the outer loop. -/
def setModuleParameters (answers : Answers) (a : Address player) (component : Component)
    (immediately : Bool) (parameterBlock : List UInt8) : Outcome :=
  if a.differing then ⟨.playerError, []⟩
  else if !immediately && component.immediateOnly then ⟨.playerError, []⟩
  else if !immediately && maxInlineParameterBlockSize ≤ parameterBlock.length then ⟨.playerError, []⟩
  else
    match component with
    | .player => perform [callNow .player (.setModuleParameters parameterBlock) answers.player]
    | .demultiplexor =>
      perform ((List.range player.demultiplexorCount).map fun i =>
        callNow (.demultiplexor i) (.setModuleParameters parameterBlock) (answers.demultiplexor i))
    | component =>
      let stream (p : Playback) : Option Stream :=
        if component = .outputCoordinator then p.listOfStreams.head? else a.stream
      perform ((a.visits stream).map fun v =>
        setStreamParameters answers component immediately parameterBlock v.1 v.2)

def inputJump (answers : Answers) (a : Address player) (surplusDataInjected continuousReverseJump : Bool) :
    Outcome :=
  if a.differing then ⟨.playerError, []⟩
  else
    perform ((a.visits fun _ => a.stream).flatMap fun v =>
      callNow (.collator v.2) (.inputJump surplusDataInjected continuousReverseJump) (answers.collator v.2) ::
        v.2.demultiplexor.toList.map fun i =>
          callNow (.demultiplexorContext i v.2) .contextInputJump (answers.context v.2))

def inputGlitch (answers : Answers) (a : Address player) : Outcome :=
  if a.differing then ⟨.playerError, []⟩
  else
    perform ((a.visits fun _ => a.stream).map fun v =>
      callNow (.collator v.2) .inputGlitch (answers.collator v.2))

/-- A request, performed. -/
def Request.outcome (answers : Answers) (a : Address player) : Request → Outcome
  | setModuleParameters component immediately parameterBlock =>
    PlayerRequests.setModuleParameters answers a component immediately parameterBlock
  | inputJump surplusDataInjected continuousReverseJump =>
    PlayerRequests.inputJump answers a surplusDataInjected continuousReverseJump
  | inputGlitch => PlayerRequests.inputGlitch answers a

/-! ### The specification -/

/-- The playback is addressed, itself or with one of its streams. -/
structure Address.ToPlayback (a : Address player) (p : Playback) : Prop where
  mem : p ∈ player.listOfPlaybacks
  playback : ∀ x ∈ a.playback, p = x
  stream : ∀ s ∈ a.stream, s ∈ p.listOfStreams

/-- The stream is addressed. -/
def Address.ToStream (a : Address player) (s : Stream) : Prop :=
  (∀ x ∈ a.stream, s = x) ∧ ∃ p, a.ToPlayback p ∧ s ∈ p.listOfStreams

/-- The instances that a request is meant for. -/
def Request.Meant (a : Address player) : Request → Instance → Prop
  | setModuleParameters .player _ _, .player => True
  | setModuleParameters .demultiplexor _ _, .demultiplexor i => i < player.demultiplexorCount
  | setModuleParameters .outputCoordinator _ _, .outputCoordinator p => a.ToPlayback p
  | setModuleParameters .collator _ _, .collator s => a.ToStream s
  | setModuleParameters .frameParser _ _, .frameParser s => a.ToStream s
  | setModuleParameters .codec _ _, .codec s => a.ToStream s
  | setModuleParameters .outputTimer _ _, .outputTimer s => a.ToStream s
  | setModuleParameters .manifestor _ _, .manifestor s => a.ToStream s
  | inputJump _ _, .collator s => a.ToStream s
  | inputJump _ _, .demultiplexorContext i s => a.ToStream s ∧ s.demultiplexor = some i
  | inputGlitch, .collator s => a.ToStream s
  | _, _ => False

example (a : Address player) : ¬ Request.Meant a .inputGlitch .player := by simp [Request.Meant]

/-- What a request says to an instance it is meant for. -/
def Request.message : Request → Instance → Message
  | setModuleParameters _ immediately parameterBlock, .frameParser s
  | setModuleParameters _ immediately parameterBlock, .codec s
  | setModuleParameters _ immediately parameterBlock, .outputTimer s
  | setModuleParameters _ immediately parameterBlock, .manifestor s =>
    .inSequence (sequenceTypeOf immediately) s.nextBufferSequenceNumber parameterBlock
  | setModuleParameters _ _ parameterBlock, _ => .setModuleParameters parameterBlock
  | inputJump _ _, .demultiplexorContext _ _ => .contextInputJump
  | inputJump surplusDataInjected continuousReverseJump, _ =>
    .inputJump surplusDataInjected continuousReverseJump
  | inputGlitch, _ => .inputGlitch

/-- The checks let the request pass. -/
def Request.Accepted (a : Address player) : Request → Prop
  | setModuleParameters component immediately parameterBlock =>
    a.differing = false ∧
      (immediately = true ∨
        component.immediateOnly = false ∧ parameterBlock.length < maxInlineParameterBlockSize)
  | _ => a.differing = false

/-- A request goes to each instance that it is meant for once, and to no other one. -/
structure Reached (answers : Answers) (a : Address player) (r : Request) : Prop where
  once : ((r.outcome answers a).deliveries.map Delivery.receiver).Nodup
  meant : ∀ i, i ∈ (r.outcome answers a).deliveries.map Delivery.receiver ↔ r.Meant a i
  message : ∀ d ∈ (r.outcome answers a).deliveries, d.message = r.message d.receiver

/-- There is no error exactly if every delivery succeeded. -/
def Reported (answers : Answers) (a : Address player) (r : Request) : Prop :=
  (r.outcome answers a).status = .playerNoError ↔
    ∀ d ∈ (r.outcome answers a).deliveries, d.succeeded = true

/-- A request reaches what it is addressed to, and the status says so. -/
def Truthful (answers : Answers) (a : Address player) (r : Request) : Prop :=
  Reached answers a r ∧ Reported answers a r

/-- The condition on a request. -/
def Request.Fine (answers : Answers) (a : Address player) : Request → Prop
  | setModuleParameters .player _ _ => True
  | setModuleParameters .demultiplexor _ _ => True
  | setModuleParameters .outputCoordinator _ _ => ∀ p, a.ToPlayback p → p.listOfStreams ≠ []
  | setModuleParameters .collator _ _ =>
    (∃ s, a.ToStream s) → ∃ s, a.ToStream s ∧ answers.collator s ≠ .playerNoError
  | setModuleParameters component _ parameterBlock =>
    match component.fn.destinationRing with
    | none => ∀ s, ¬ a.ToStream s
    | some ring =>
      (∀ s, a.ToStream s → answers.getBuffer s = .playerNoError) →
        ∀ s, a.ToStream s →
          answers.room s ring = true ∧ parameterBlock.length ≤ maxInlineParameterBlockSize
  | _ => True

/-! ### Calls one after the other -/

theorem accumulate_status (calls : List Call) (o : Outcome) :
    (calls.foldl Outcome.accumulate o).status = .playerNoError ↔
      o.status = .playerNoError ∧ ∀ c ∈ calls, c.currentStatus = .playerNoError := by
  induction calls generalizing o with
  | nil => simp
  | cons c calls ih =>
    rw [List.foldl_cons, ih, List.forall_mem_cons, ← and_assoc]
    refine and_congr_left fun _ => ?_
    by_cases hc : c.currentStatus = .playerNoError
    · simp [Outcome.accumulate, hc]
    · simp [Outcome.accumulate, hc]

theorem accumulate_deliveries (calls : List Call) (o : Outcome) :
    (calls.foldl Outcome.accumulate o).deliveries = o.deliveries ++ calls.flatMap Call.deliveries := by
  induction calls generalizing o with
  | nil => exact (List.append_nil _).symm
  | cons c calls ih =>
    rw [List.foldl_cons, ih, List.flatMap_cons, ← List.append_assoc]
    rfl

variable {calls : List Call}

theorem perform_status :
    (perform calls).status = .playerNoError ↔ ∀ c ∈ calls, c.currentStatus = .playerNoError := by
  rw [perform, accumulate_status]
  exact ⟨And.right, fun h => ⟨rfl, h⟩⟩

theorem perform_deliveries (calls : List Call) :
    (perform calls).deliveries = calls.flatMap Call.deliveries := accumulate_deliveries calls _

/-- The status of a call says whether its deliveries succeeded. -/
def Call.Honest (c : Call) : Prop :=
  c.currentStatus = .playerNoError ↔ ∀ d ∈ c.deliveries, d.succeeded = true

theorem callNow_honest (receiver : Instance) (message : Message) (status : PlayerStatus) :
    (callNow receiver message status).Honest := by
  simp [Call.Honest, callNow]

theorem perform_honest (h : ∀ c ∈ calls, c.Honest) :
    (perform calls).status = .playerNoError ↔ ∀ d ∈ (perform calls).deliveries, d.succeeded = true := by
  rw [perform_status, perform_deliveries]
  constructor
  · intro hall d hd
    obtain ⟨c, hc, hd⟩ := List.mem_flatMap.mp hd
    exact (h c hc).mp (hall c hc) d hd
  · intro hall c hc
    exact (h c hc).mpr fun d hd => hall d (List.mem_flatMap.mpr ⟨c, hc, hd⟩)

/-! ### What the loops visit -/

section

variable {ι : Type} [DecidableEq ι] {address : Option ι} {list : List ι}

theorem visited_sublist (address : Option ι) (list : List ι) : (visited address list).Sublist list := by
  cases address with
  | none => exact List.Sublist.refl _
  | some x => exact (List.takeWhile_sublist _).trans (List.dropWhile_sublist _)

theorem mem_visited (h : ∀ x ∈ address, x ∈ list) {y : ι} :
    y ∈ visited address list ↔ y ∈ list ∧ ∀ x ∈ address, y = x := by
  cases address with
  | none => exact ⟨fun hy => ⟨hy, nofun⟩, And.left⟩
  | some x =>
    constructor
    · intro hy
      refine ⟨(visited_sublist _ _).subset hy, ?_⟩
      intro z hz
      obtain rfl := Option.mem_some_iff.mp hz
      have htake : y ∈ List.takeWhile (fun w => decide (w = x)) _ := hy
      simpa using List.mem_takeWhile_imp htake
    · rintro ⟨-, hy⟩
      obtain rfl := hy x rfl
      have hmem : y ∈ list := h y rfl
      clear h hy
      -- the entry addressed is where the search ends
      induction list with
      | nil => exact absurd hmem List.not_mem_nil
      | cons z list ih =>
        by_cases hz : z = y
        · simp [visited, hz]
        · have hrest : y ∈ list := (List.mem_cons.mp hmem).resolve_left (Ne.symm hz)
          have hskip : visited (some y) (z :: list) = visited (some y) list := by
            simp [visited, hz]
          rw [hskip]
          exact ih hrest

end

section

variable {a : Address player}

variable {p : Playback} {s : Stream}

theorem Player.playbackOf_of_mem (hp : p ∈ player.listOfPlaybacks)
    (hs : s ∈ p.listOfStreams) : player.playbackOf s = some p := by
  have hid := player.playback_of_mem p hp s hs
  have hsome : (player.playbackOf s).isSome := by
    rw [Player.playbackOf, List.find?_isSome]
    exact ⟨p, hp, decide_eq_true hid.symm⟩
  obtain ⟨q, hq⟩ := Option.isSome_iff_exists.mp hsome
  have hqid : q.id = s.playback := by simpa using List.find?_some hq
  have hqmem : q ∈ player.listOfPlaybacks := List.mem_of_find?_eq_some hq
  rw [hq, List.inj_on_of_nodup_map player.distinct hqmem hp (hqid.trans hid)]

theorem Address.subject_mem (a : Address player) : ∀ p ∈ a.subject, p ∈ player.listOfPlaybacks := by
  intro p hp
  unfold Address.subject at hp
  split at hp
  next s hs => exact List.mem_of_find?_eq_some hp
  next => exact a.playback_mem p hp

theorem Address.playback_iff (h : a.differing = false) :
    a.ToPlayback p ↔ p ∈ player.listOfPlaybacks ∧ ∀ x ∈ a.subject, p = x := by
  cases hs : a.stream with
  | none =>
    have hsubject : a.subject = a.playback := by rw [Address.subject, hs]
    rw [hsubject]
    refine ⟨fun hp => ⟨hp.mem, hp.playback⟩, fun hp => ⟨hp.1, hp.2, ?_⟩⟩
    rw [hs]
    nofun
  | some s =>
    obtain ⟨q, hq, hsq⟩ := a.stream_mem s hs
    have hsubject : a.subject = some q := by
      rw [Address.subject, hs]
      exact Player.playbackOf_of_mem hq hsq
    rw [hsubject]
    constructor
    · intro hp
      refine ⟨hp.mem, ?_⟩
      intro x hx
      obtain rfl := Option.mem_some_iff.mp hx
      have hown := Player.playbackOf_of_mem hp.mem (hp.stream s hs)
      rw [Player.playbackOf_of_mem hq hsq] at hown
      exact (Option.some.inj hown).symm
    · rintro ⟨-, hp⟩
      obtain rfl := hp q rfl
      refine ⟨hq, ?_, ?_⟩
      · intro x hx
        rw [Address.differing, hx, hs, decide_eq_false_iff_not, not_not] at h
        have hid := player.playback_of_mem p hq s hsq
        exact List.inj_on_of_nodup_map player.distinct hq (a.playback_mem x hx) (hid.symm.trans h)
      · intro t ht
        obtain rfl : s = t := Option.some.inj (hs.symm.trans ht)
        exact hsq

variable {stream : Playback → Option Stream}

theorem Address.mem_visits (h : a.differing = false)
    (hstream : ∀ p, a.ToPlayback p → ∀ s ∈ stream p, s ∈ p.listOfStreams) {v : Playback × Stream} :
    v ∈ a.visits stream ↔
      a.ToPlayback v.1 ∧ v.2 ∈ v.1.listOfStreams ∧ ∀ s ∈ stream v.1, v.2 = s := by
  obtain ⟨p, s⟩ := v
  rw [Address.visits, List.mem_flatMap]
  constructor
  · rintro ⟨q, hq, hmap⟩
    obtain ⟨t, ht, heq⟩ := List.mem_map.mp hmap
    obtain ⟨rfl, rfl⟩ := Prod.mk.inj heq
    have hp := (Address.playback_iff h).mpr ((mem_visited a.subject_mem).mp hq)
    exact ⟨hp, (mem_visited (hstream q hp)).mp ht⟩
  · rintro ⟨hp, hs⟩
    refine ⟨p, (mem_visited a.subject_mem).mpr ((Address.playback_iff h).mp hp), ?_⟩
    exact List.mem_map_of_mem ((mem_visited (hstream p hp)).mpr hs)

theorem Address.visits_nodup (a : Address player) (stream : Playback → Option Stream) :
    (a.visits stream).Nodup := by
  have hsub := visited_sublist a.subject player.listOfPlaybacks
  rw [Address.visits, List.nodup_flatMap]
  constructor
  · intro p hp
    have hnodup := (visited_sublist (stream p) _).nodup (player.nodup p (hsub.subset hp))
    exact hnodup.map fun s t heq => (Prod.mk.inj heq).2
  · refine List.Pairwise.imp ?_ (hsub.nodup (List.Nodup.of_map _ player.distinct))
    intro p q hpq v hp hq
    obtain ⟨s, -, rfl⟩ := List.mem_map.mp hp
    obtain ⟨t, -, heq⟩ := List.mem_map.mp hq
    exact hpq (Prod.mk.inj heq).1.symm

theorem Address.visits_snd_nodup (stream : Playback → Option Stream) (h : a.differing = false)
    (hstream : ∀ p, a.ToPlayback p → ∀ s ∈ stream p, s ∈ p.listOfStreams) :
    ((a.visits stream).map Prod.snd).Nodup := by
  refine List.Nodup.map_on ?_ (a.visits_nodup stream)
  intro v hv w hw heq
  obtain ⟨hp, hs, -⟩ := (Address.mem_visits h hstream).mp hv
  obtain ⟨hq, ht, -⟩ := (Address.mem_visits h hstream).mp hw
  refine Prod.ext ?_ heq
  have hid : v.1.id = w.1.id := by
    rw [← player.playback_of_mem _ hp.mem _ hs, ← player.playback_of_mem _ hq.mem _ ht, heq]
  exact List.inj_on_of_nodup_map player.distinct hp.mem hq.mem hid

theorem Address.mem_visits_snd (h : a.differing = false) :
    (∃ p, (p, s) ∈ a.visits fun _ => a.stream) ↔ a.ToStream s := by
  have hmem := fun p => Address.mem_visits (v := (p, s)) h (fun p (hp : a.ToPlayback p) => hp.stream)
  constructor
  · rintro ⟨p, hp⟩
    obtain ⟨hplayback, hs, hall⟩ := (hmem p).mp hp
    exact ⟨hall, p, hplayback, hs⟩
  · rintro ⟨hall, p, hplayback, hs⟩
    exact ⟨p, (hmem p).mpr ⟨hplayback, hs, hall⟩⟩

/-- With the first stream of each playback in place of the one addressed, the playbacks that have streams
are visited. -/
theorem Address.mem_visits_fst (h : a.differing = false) :
    (∃ s, (p, s) ∈ a.visits fun q => q.listOfStreams.head?) ↔ a.ToPlayback p ∧ p.listOfStreams ≠ [] := by
  have hmem := fun s => Address.mem_visits (v := (p, s)) h
    (fun q _ t (ht : t ∈ q.listOfStreams.head?) => List.mem_of_mem_head? ht)
  constructor
  · rintro ⟨s, hs⟩
    obtain ⟨hplayback, hs, -⟩ := (hmem s).mp hs
    exact ⟨hplayback, List.ne_nil_of_mem hs⟩
  · rintro ⟨hplayback, hne⟩
    obtain ⟨s, rest, hlist⟩ := List.exists_cons_of_ne_nil hne
    refine ⟨s, (hmem s).mpr ⟨hplayback, hlist ▸ List.mem_cons_self, ?_⟩⟩
    intro t ht
    rw [hlist] at ht
    exact Option.some.inj ht

theorem Address.visits_fst_nodup (h : a.differing = false) :
    ((a.visits fun q => q.listOfStreams.head?).map Prod.fst).Nodup := by
  have hmem := fun v => Address.mem_visits (v := v) h
    (fun q _ t (ht : t ∈ q.listOfStreams.head?) => List.mem_of_mem_head? ht)
  refine List.Nodup.map_on ?_ (a.visits_nodup _)
  intro v hv w hw heq
  obtain ⟨-, hs, hfirst⟩ := (hmem v).mp hv
  obtain ⟨-, -, hfirst'⟩ := (hmem w).mp hw
  obtain ⟨t, rest, hlist⟩ := List.exists_cons_of_ne_nil (List.ne_nil_of_mem hs)
  have hv : v.2 = t := hfirst t (by rw [hlist]; rfl)
  have hw : w.2 = t := hfirst' t (by rw [← heq, hlist]; rfl)
  exact Prod.ext heq (hv.trans hw.symm)

end

/-! ### Each request -/

/-- The stream that an instance belongs to. -/
def Instance.stream : Instance → Option Stream
  | .demultiplexorContext _ s => some s
  | .collator s => some s
  | .frameParser s => some s
  | .codec s => some s
  | .outputTimer s => some s
  | .manifestor s => some s
  | _ => none

section

variable {answers : Answers} {a : Address player} {r : Request} {calls : List Call}

theorem reported_of_honest (heq : r.outcome answers a = perform calls) (h : ∀ c ∈ calls, c.Honest) :
    Reported answers a r := by
  rw [Reported, heq]
  exact perform_honest h

theorem receivers_flatMap {ι : Type} (l : List ι) {call : ι → List Call} {receivers : ι → List Instance}
    (h : ∀ x, ((call x).flatMap Call.deliveries).map Delivery.receiver = receivers x) :
    ((l.flatMap call).flatMap Call.deliveries).map Delivery.receiver = l.flatMap receivers := by
  induction l with
  | nil => rfl
  | cons x l ih =>
    rw [List.flatMap_cons, List.flatMap_append, List.map_append, ih, h, List.flatMap_cons]

variable {call : Playback × Stream → List Call}

theorem reached_of_streams (receivers : Stream → List Instance)
    (h : a.differing = false)
    (heq : r.outcome answers a = perform ((a.visits fun _ => a.stream).flatMap call))
    (hreceivers : ∀ v, ((call v).flatMap Call.deliveries).map Delivery.receiver = receivers v.2)
    (hnodup : ∀ s, (receivers s).Nodup) (hstream : ∀ s, ∀ i ∈ receivers s, i.stream = some s)
    (hmeant : ∀ i, r.Meant a i ↔ ∃ s, a.ToStream s ∧ i ∈ receivers s)
    (hmessage : ∀ v, ∀ c ∈ call v, ∀ d ∈ c.deliveries, d.message = r.message d.receiver) :
    Reached answers a r := by
  have hall : (r.outcome answers a).deliveries.map Delivery.receiver =
      (a.visits fun _ => a.stream).flatMap fun v => receivers v.2 := by
    rw [heq, perform_deliveries]
    exact receivers_flatMap _ hreceivers
  constructor
  · rw [hall, List.nodup_flatMap]
    refine ⟨fun v _ => hnodup v.2, ?_⟩
    have hsnd := Address.visits_snd_nodup (fun _ => a.stream) h fun p hp => hp.stream
    refine (List.pairwise_map.mp hsnd).imp ?_
    intro v w hvw i hv hw
    exact hvw (Option.some.inj ((hstream _ i hv).symm.trans (hstream _ i hw)))
  · intro i
    rw [hall, hmeant, List.mem_flatMap]
    constructor
    · rintro ⟨v, hv, hi⟩
      exact ⟨v.2, (Address.mem_visits_snd h).mp ⟨v.1, hv⟩, hi⟩
    · rintro ⟨s, hs, hi⟩
      obtain ⟨p, hp⟩ := (Address.mem_visits_snd h).mpr hs
      exact ⟨(p, s), hp, hi⟩
  · rw [heq, perform_deliveries]
    intro d hd
    obtain ⟨c, hc, hd⟩ := List.mem_flatMap.mp hd
    obtain ⟨v, -, hc⟩ := List.mem_flatMap.mp hc
    exact hmessage v c hc d hd

theorem forall_calls_iff {p : Call → Prop} {q : Stream → Prop}
    (h : a.differing = false) (hcall : ∀ v, (∀ c ∈ call v, p c) ↔ q v.2) :
    (∀ c ∈ (a.visits fun _ => a.stream).flatMap call, p c) ↔ ∀ s, a.ToStream s → q s := by
  constructor
  · intro hall s hs
    obtain ⟨playback, hmem⟩ := (Address.mem_visits_snd h).mpr hs
    refine (hcall (playback, s)).mp fun c hc => ?_
    exact hall c (List.mem_flatMap.mpr ⟨(playback, s), hmem, hc⟩)
  · intro hall c hc
    obtain ⟨v, hv, hc⟩ := List.mem_flatMap.mp hc
    exact (hcall v).mpr (hall v.2 ((Address.mem_visits_snd h).mp ⟨v.1, hv⟩)) c hc

theorem inputGlitch_truthful (h : Request.Accepted a .inputGlitch) :
    Truthful answers a .inputGlitch := by
  have hd : a.differing = false := h
  have heq : Request.outcome answers a .inputGlitch =
      perform ((a.visits fun _ => a.stream).flatMap fun v =>
        [callNow (.collator v.2) .inputGlitch (answers.collator v.2)]) := by
    rw [Request.outcome, inputGlitch, hd, List.map_eq_flatMap]
    rfl
  constructor
  · refine reached_of_streams (fun s => [.collator s]) hd heq ?_ ?_ ?_ ?_ ?_
    · exact fun v => rfl
    · exact fun s => List.nodup_singleton _
    · intro s i hi
      obtain rfl := List.mem_singleton.mp hi
      rfl
    · intro i
      cases i <;> simp [Request.Meant]
    · intro v c hc d hmem
      obtain rfl := List.mem_singleton.mp hc
      obtain rfl := List.mem_singleton.mp hmem
      rfl
  · refine reported_of_honest heq ?_
    refine (forall_calls_iff (q := fun _ => True) hd ?_).mpr fun _ _ => trivial
    intro v
    simp [callNow_honest]

theorem inputJump_truthful {surplusDataInjected continuousReverseJump : Bool}
    (h : Request.Accepted a (.inputJump surplusDataInjected continuousReverseJump)) :
    Truthful answers a (.inputJump surplusDataInjected continuousReverseJump) := by
  have hd : a.differing = false := h
  have heq : Request.outcome answers a (.inputJump surplusDataInjected continuousReverseJump) =
      perform ((a.visits fun _ => a.stream).flatMap fun v =>
        callNow (.collator v.2) (.inputJump surplusDataInjected continuousReverseJump)
            (answers.collator v.2) ::
          v.2.demultiplexor.toList.map fun i =>
            callNow (.demultiplexorContext i v.2) .contextInputJump (answers.context v.2)) := by
    rw [Request.outcome, inputJump, hd]
    rfl
  constructor
  · refine reached_of_streams (fun s =>
      .collator s :: s.demultiplexor.toList.map fun i => .demultiplexorContext i s) hd heq ?_ ?_ ?_ ?_ ?_
    · intro v
      cases hdemux : v.2.demultiplexor <;> rfl
    · intro s
      cases hdemux : s.demultiplexor <;> simp
    · intro s i hi
      cases hdemux : s.demultiplexor <;> rw [hdemux] at hi <;> simp at hi
      · exact hi ▸ rfl
      · obtain rfl | rfl := hi <;> rfl
    · intro i
      cases i <;> simp [Request.Meant]
    · intro v c hc d hmem
      cases hdemux : v.2.demultiplexor <;> rw [hdemux] at hc <;> simp at hc
      · obtain rfl := hc
        obtain rfl := List.mem_singleton.mp hmem
        rfl
      · obtain rfl | rfl := hc <;> obtain rfl := List.mem_singleton.mp hmem <;> rfl
  · refine reported_of_honest heq ?_
    refine (forall_calls_iff (q := fun _ => True) hd ?_).mpr fun _ _ => trivial
    intro v
    simp [callNow_honest]

/-! ### Setting module parameters -/

variable {component : Component} {immediately : Bool} {parameterBlock : List UInt8}

theorem Request.Accepted.checks
    (h : Request.Accepted a (.setModuleParameters component immediately parameterBlock)) :
    a.differing = false ∧ (!immediately && component.immediateOnly) = false ∧
      (!immediately && maxInlineParameterBlockSize ≤ parameterBlock.length) = false := by
  obtain ⟨hd, rfl | ⟨honly, hlength⟩⟩ := h
  · exact ⟨hd, rfl, rfl⟩
  · refine ⟨hd, ?_, ?_⟩
    · rw [honly, Bool.and_false]
    · rw [decide_eq_false (Nat.not_le.mpr hlength), Bool.and_false]

theorem setModuleParameters_player (h : Request.Accepted a (.setModuleParameters .player immediately
    parameterBlock)) : Truthful answers a (.setModuleParameters .player immediately parameterBlock) := by
  obtain ⟨hd, honly, hlength⟩ := h.checks
  have heq : Request.outcome answers a (.setModuleParameters .player immediately parameterBlock) =
      perform [callNow .player (.setModuleParameters parameterBlock) answers.player] := by
    rw [Request.outcome, setModuleParameters, hd, honly, hlength]
    rfl
  refine ⟨⟨?_, ?_, ?_⟩, reported_of_honest heq ?_⟩
  · rw [heq]
    exact List.nodup_singleton _
  · intro i
    rw [heq]
    cases i <;> simp [Request.Meant, perform_deliveries, callNow]
  · rw [heq]
    intro d hmem
    obtain rfl := List.mem_singleton.mp hmem
    rfl
  · intro c hc
    obtain rfl := List.mem_singleton.mp hc
    exact callNow_honest _ _ _

theorem setModuleParameters_demultiplexor (h : Request.Accepted a (.setModuleParameters .demultiplexor
    immediately parameterBlock)) :
    Truthful answers a (.setModuleParameters .demultiplexor immediately parameterBlock) := by
  obtain ⟨hd, honly, hlength⟩ := h.checks
  have heq : Request.outcome answers a (.setModuleParameters .demultiplexor immediately parameterBlock) =
      perform ((List.range player.demultiplexorCount).flatMap fun i =>
        [callNow (.demultiplexor i) (.setModuleParameters parameterBlock) (answers.demultiplexor i)]) := by
    rw [Request.outcome, setModuleParameters, hd, honly, hlength, ← List.map_eq_flatMap]
    rfl
  have hall : (Request.outcome answers a (.setModuleParameters .demultiplexor immediately
      parameterBlock)).deliveries.map Delivery.receiver =
      (List.range player.demultiplexorCount).flatMap fun i => [.demultiplexor i] := by
    rw [heq, perform_deliveries]
    exact receivers_flatMap _ fun _ => rfl
  rw [← List.map_eq_flatMap] at hall
  refine ⟨⟨?_, ?_, ?_⟩, reported_of_honest heq ?_⟩
  · rw [hall]
    exact List.nodup_range.map fun i j hij => Instance.demultiplexor.inj hij
  · intro i
    rw [hall]
    cases i <;> simp [Request.Meant]
  · rw [heq, perform_deliveries]
    intro d hmem
    obtain ⟨c, hc, hmem⟩ := List.mem_flatMap.mp hmem
    obtain ⟨i, -, hc⟩ := List.mem_flatMap.mp hc
    obtain rfl := List.mem_singleton.mp hc
    obtain rfl := List.mem_singleton.mp hmem
    rfl
  · intro c hc
    obtain ⟨i, -, hc⟩ := List.mem_flatMap.mp hc
    obtain rfl := List.mem_singleton.mp hc
    exact callNow_honest _ _ _

/-- The output coordinators of the playbacks that have a stream are called. -/
theorem setModuleParameters_outputCoordinator (h : Request.Accepted a (.setModuleParameters
    .outputCoordinator immediately parameterBlock)) :
    Truthful answers a (.setModuleParameters .outputCoordinator immediately parameterBlock) ↔
      ∀ p, a.ToPlayback p → p.listOfStreams ≠ [] := by
  obtain ⟨hd, honly, hlength⟩ := h.checks
  have heq : Request.outcome answers a (.setModuleParameters .outputCoordinator immediately
      parameterBlock) =
      perform ((a.visits fun p => p.listOfStreams.head?).flatMap fun v =>
        [callNow (.outputCoordinator v.1) (.setModuleParameters parameterBlock)
          (answers.outputCoordinator v.1)]) := by
    rw [Request.outcome, ← List.map_eq_flatMap]
    unfold setModuleParameters
    rw [hd, honly, hlength]
    rfl
  have hall : (Request.outcome answers a (.setModuleParameters .outputCoordinator immediately
      parameterBlock)).deliveries.map Delivery.receiver =
      (a.visits fun p => p.listOfStreams.head?).flatMap fun v => [.outputCoordinator v.1] := by
    rw [heq, perform_deliveries]
    exact receivers_flatMap _ fun _ => rfl
  rw [← List.map_eq_flatMap] at hall
  have hmem (p : Playback) : (Instance.outputCoordinator p ∈ (a.visits fun p => p.listOfStreams.head?).map
      fun v => .outputCoordinator v.1) ↔ a.ToPlayback p ∧ p.listOfStreams ≠ [] := by
    rw [← Address.mem_visits_fst hd, List.mem_map]
    constructor
    · rintro ⟨v, hv, heq⟩
      obtain rfl := Instance.outputCoordinator.inj heq
      exact ⟨v.2, hv⟩
    · rintro ⟨s, hs⟩
      exact ⟨(p, s), hs, rfl⟩
  constructor
  · rintro ⟨hreached, -⟩ p hp
    have hreceiver := (hreached.meant (.outputCoordinator p)).mpr hp
    rw [hall] at hreceiver
    exact ((hmem p).mp hreceiver).2
  · intro hstreams
    refine ⟨⟨?_, ?_, ?_⟩, reported_of_honest heq ?_⟩
    · rw [hall]
      have hmap := (Address.visits_fst_nodup hd).map fun p q hpq => Instance.outputCoordinator.inj hpq
      rw [List.map_map] at hmap
      exact hmap
    · intro i
      rw [hall]
      cases i with
      | outputCoordinator p =>
        rw [hmem]
        exact ⟨And.left, fun hp => ⟨hp, hstreams p hp⟩⟩
      | _ => simp [Request.Meant]
    · rw [heq, perform_deliveries]
      intro d hd
      obtain ⟨c, hc, hd⟩ := List.mem_flatMap.mp hd
      obtain ⟨v, -, hc⟩ := List.mem_flatMap.mp hc
      obtain rfl := List.mem_singleton.mp hc
      obtain rfl := List.mem_singleton.mp hd
      rfl
    · intro c hc
      obtain ⟨v, -, hc⟩ := List.mem_flatMap.mp hc
      obtain rfl := List.mem_singleton.mp hc
      exact callNow_honest _ _ _

/-- The components of the streams, the collator among them. -/
def Component.OfStream (component : Component) : Prop :=
  component ≠ .player ∧ component ≠ .demultiplexor ∧ component ≠ .outputCoordinator

theorem setModuleParameters_streams (answers : Answers) (hcomponent : component.OfStream)
    (h : Request.Accepted a (.setModuleParameters component immediately parameterBlock)) :
    Request.outcome answers a (.setModuleParameters component immediately parameterBlock) =
      perform ((a.visits fun _ => a.stream).flatMap fun v =>
        [setStreamParameters answers component immediately parameterBlock v.1 v.2]) := by
  obtain ⟨hd, honly, hlength⟩ := h.checks
  obtain ⟨hplayer, hdemux, hcoordinator⟩ := hcomponent
  rw [Request.outcome, ← List.map_eq_flatMap]
  unfold setModuleParameters
  rw [hd, honly, hlength]
  cases component with
  | player => exact absurd rfl hplayer
  | demultiplexor => exact absurd rfl hdemux
  | outputCoordinator => exact absurd rfl hcoordinator
  | _ => rfl

variable {s : Stream} {sequenceType : SequenceType} {sequenceValue : ℕ} {fn : ComponentFunction}

theorem callInSequence_receivers :
    (callInSequence answers s sequenceType sequenceValue fn parameterBlock).deliveries.map
      Delivery.receiver = (fn.receiver s).toList := by
  unfold callInSequence
  by_cases hbuffer : answers.getBuffer s = .playerNoError
  · cases fn <;> simp [hbuffer, ComponentFunction.destinationRing, ComponentFunction.receiver]
  · cases fn <;> simp [hbuffer, ComponentFunction.receiver]

theorem callInSequence_message {d : Delivery}
    (hd : d ∈ (callInSequence answers s sequenceType sequenceValue fn parameterBlock).deliveries) :
    d.message = .inSequence sequenceType sequenceValue parameterBlock := by
  unfold callInSequence at hd
  split at hd
  · obtain ⟨r, -, rfl⟩ := List.mem_map.mp hd
    rfl
  · split at hd
    · exact absurd hd List.not_mem_nil
    · obtain ⟨r, -, rfl⟩ := List.mem_map.mp hd
      rfl

variable {ring : Ring}

theorem callInSequence_status (hring : fn.destinationRing = some ring) :
    (callInSequence answers s sequenceType sequenceValue fn parameterBlock).currentStatus =
      .playerNoError ↔ answers.getBuffer s = .playerNoError := by
  unfold callInSequence
  by_cases hbuffer : answers.getBuffer s = .playerNoError
  · simp [hbuffer, hring]
  · simp [hbuffer]

theorem callInSequence_unknown :
    (callInSequence answers s sequenceType sequenceValue .unknown parameterBlock).currentStatus ≠
      .playerNoError := by
  unfold callInSequence
  by_cases hbuffer : answers.getBuffer s = .playerNoError
  · simp [hbuffer, ComponentFunction.destinationRing]
  · simp [hbuffer]

theorem callInSequence_succeeded (hring : fn.destinationRing = some ring) :
    (∀ d ∈ (callInSequence answers s sequenceType sequenceValue fn parameterBlock).deliveries,
      d.succeeded = true) ↔
      answers.getBuffer s = .playerNoError ∧ answers.room s ring = true ∧
        parameterBlock.length ≤ maxInlineParameterBlockSize := by
  unfold callInSequence
  by_cases hbuffer : answers.getBuffer s = .playerNoError
  · cases fn <;> simp [hbuffer, hring, ComponentFunction.receiver]
    cases hring
  · cases fn <;> simp [hbuffer, ComponentFunction.receiver]
    cases hring

theorem setModuleParameters_inSequence (hring : component.fn.destinationRing = some ring)
    (h : Request.Accepted a (.setModuleParameters component immediately parameterBlock)) :
    Truthful answers a (.setModuleParameters component immediately parameterBlock) ↔
      ((∀ s, a.ToStream s → answers.getBuffer s = .playerNoError) →
        ∀ s, a.ToStream s →
          answers.room s ring = true ∧ parameterBlock.length ≤ maxInlineParameterBlockSize) := by
  obtain ⟨hd, -, -⟩ := h.checks
  have hcollator : component ≠ .collator := by
    rintro rfl
    cases hring
  have hcomponent : component.OfStream := by
    refine ⟨?_, ?_, ?_⟩ <;> rintro rfl <;> cases hring
  have heq := setModuleParameters_streams answers hcomponent h
  have hcall (v : Playback × Stream) :
      setStreamParameters answers component immediately parameterBlock v.1 v.2 =
        callInSequence answers v.2 (sequenceTypeOf immediately) v.2.nextBufferSequenceNumber component.fn
          parameterBlock := by
    unfold setStreamParameters
    rw [if_neg hcollator, if_neg hcomponent.2.2]
    rfl
  have hreached : Reached answers a (.setModuleParameters component immediately parameterBlock) := by
    refine reached_of_streams (fun s => (component.fn.receiver s).toList) hd heq ?_ ?_ ?_ ?_ ?_
    · intro v
      rw [hcall, List.flatMap_singleton, callInSequence_receivers]
    · intro s
      cases component.fn.receiver s <;> simp
    · intro s i hi
      cases component <;> cases hring <;> exact List.mem_singleton.mp hi ▸ rfl
    · intro i
      cases component <;> cases hring <;> cases i <;>
        simp [Request.Meant, Component.fn, ComponentFunction.receiver]
    · intro v c hc d hmem
      obtain rfl := List.mem_singleton.mp hc
      rw [hcall] at hmem
      have hreceiver := List.mem_map_of_mem (f := Delivery.receiver) hmem
      rw [callInSequence_receivers] at hreceiver
      rw [callInSequence_message hmem]
      cases component <;> cases hring <;> rw [List.mem_singleton.mp hreceiver] <;> rfl
  have hstatus : (Request.outcome answers a (.setModuleParameters component immediately
      parameterBlock)).status = .playerNoError ↔
        ∀ s, a.ToStream s → answers.getBuffer s = .playerNoError := by
    rw [heq, perform_status]
    refine forall_calls_iff hd fun v => ?_
    rw [List.forall_mem_singleton, hcall]
    exact callInSequence_status hring
  have hsucceeded : (∀ d ∈ (Request.outcome answers a (.setModuleParameters component immediately
      parameterBlock)).deliveries, d.succeeded = true) ↔
        ∀ s, a.ToStream s → answers.getBuffer s = .playerNoError ∧ answers.room s ring = true ∧
          parameterBlock.length ≤ maxInlineParameterBlockSize := by
    rw [heq, perform_deliveries, List.forall_mem_flatMap]
    refine forall_calls_iff hd fun v => ?_
    rw [List.forall_mem_singleton, hcall]
    exact callInSequence_succeeded hring
  rw [Truthful, and_iff_right hreached, Reported, hstatus, hsucceeded]
  constructor
  · intro hiff hbuffer s hs
    exact (hiff.mp hbuffer s hs).2
  · intro hall
    exact ⟨fun hbuffer s hs => ⟨hbuffer s hs, hall hbuffer s hs⟩, fun hall s hs => (hall s hs).1⟩

theorem setModuleParameters_external
    (h : Request.Accepted a (.setModuleParameters .external immediately parameterBlock)) :
    Truthful answers a (.setModuleParameters .external immediately parameterBlock) ↔
      ∀ s, ¬ a.ToStream s := by
  obtain ⟨hd, -, -⟩ := h.checks
  have heq := setModuleParameters_streams answers (by simp [Component.OfStream]) h
  have hcall (v : Playback × Stream) :
      setStreamParameters answers .external immediately parameterBlock v.1 v.2 =
        callInSequence answers v.2 (sequenceTypeOf immediately) v.2.nextBufferSequenceNumber .unknown
          parameterBlock := rfl
  have hnone (v : Playback × Stream) :
      (setStreamParameters answers .external immediately parameterBlock v.1 v.2).deliveries = [] := by
    rw [hcall, ← List.map_eq_nil_iff (f := Delivery.receiver), callInSequence_receivers]
    rfl
  have hreached : Reached answers a (.setModuleParameters .external immediately parameterBlock) := by
    refine reached_of_streams (fun _ => []) hd heq ?_ ?_ ?_ ?_ ?_
    · intro v
      rw [List.flatMap_singleton, hnone, List.map_nil]
    · exact fun s => List.nodup_nil
    · exact fun s i hi => absurd hi List.not_mem_nil
    · intro i
      cases i <;> simp [Request.Meant]
    · intro v c hc d hmem
      obtain rfl := List.mem_singleton.mp hc
      rw [hnone] at hmem
      exact absurd hmem List.not_mem_nil
  have hstatus : (Request.outcome answers a (.setModuleParameters .external immediately
      parameterBlock)).status = .playerNoError ↔ ∀ s, a.ToStream s → False := by
    rw [heq, perform_status]
    refine forall_calls_iff hd fun v => ?_
    rw [List.forall_mem_singleton, hcall]
    exact iff_of_false callInSequence_unknown id
  have hsucceeded : ∀ d ∈ (Request.outcome answers a (.setModuleParameters .external immediately
      parameterBlock)).deliveries, d.succeeded = true := by
    rw [heq, perform_deliveries, List.forall_mem_flatMap]
    refine (forall_calls_iff (q := fun _ => True) hd fun v => ?_).mpr fun _ _ => trivial
    rw [List.forall_mem_singleton, hnone]
    exact iff_of_true (fun d hmem => absurd hmem List.not_mem_nil) trivial
  rw [Truthful, and_iff_right hreached, Reported, hstatus]
  exact iff_true_right hsucceeded

/-- The collators are called, but the status is that of a call that is not supported. -/
theorem setModuleParameters_collator
    (h : Request.Accepted a (.setModuleParameters .collator immediately parameterBlock)) :
    Truthful answers a (.setModuleParameters .collator immediately parameterBlock) ↔
      ((∃ s, a.ToStream s) → ∃ s, a.ToStream s ∧ answers.collator s ≠ .playerNoError) := by
  obtain ⟨hd, -, -⟩ := h.checks
  have heq := setModuleParameters_streams answers (by simp [Component.OfStream]) h
  have hcall (v : Playback × Stream) :
      setStreamParameters answers .collator immediately parameterBlock v.1 v.2 =
        ⟨(callInSequence answers v.2 (sequenceTypeOf immediately) v.2.nextBufferSequenceNumber .unknown
            parameterBlock).currentStatus,
          [⟨.collator v.2, .setModuleParameters parameterBlock,
            answers.collator v.2 = .playerNoError⟩]⟩ := by
    have hnone : (callInSequence answers v.2 (sequenceTypeOf immediately) v.2.nextBufferSequenceNumber
        .unknown parameterBlock).deliveries = [] := by
      rw [← List.map_eq_nil_iff (f := Delivery.receiver), callInSequence_receivers]
      rfl
    unfold setStreamParameters
    simp [callNow, Component.fn, hnone]
  have hreached : Reached answers a (.setModuleParameters .collator immediately parameterBlock) := by
    refine reached_of_streams (fun s => [.collator s]) hd heq ?_ ?_ ?_ ?_ ?_
    · intro v
      rw [hcall]
      rfl
    · exact fun s => List.nodup_singleton _
    · intro s i hi
      obtain rfl := List.mem_singleton.mp hi
      rfl
    · intro i
      cases i <;> simp [Request.Meant]
    · intro v c hc d hmem
      obtain rfl := List.mem_singleton.mp hc
      rw [hcall] at hmem
      obtain rfl := List.mem_singleton.mp hmem
      rfl
  have hstatus : (Request.outcome answers a (.setModuleParameters .collator immediately
      parameterBlock)).status = .playerNoError ↔ ∀ s, a.ToStream s → False := by
    rw [heq, perform_status]
    refine forall_calls_iff hd fun v => ?_
    rw [List.forall_mem_singleton, hcall]
    exact iff_of_false callInSequence_unknown id
  have hsucceeded : (∀ d ∈ (Request.outcome answers a (.setModuleParameters .collator immediately
      parameterBlock)).deliveries, d.succeeded = true) ↔
        ∀ s, a.ToStream s → answers.collator s = .playerNoError := by
    rw [heq, perform_deliveries, List.forall_mem_flatMap]
    refine forall_calls_iff hd fun v => ?_
    rw [List.forall_mem_singleton, hcall, List.forall_mem_singleton]
    exact decide_eq_true_iff
  rw [Truthful, and_iff_right hreached, Reported, hstatus, hsucceeded]
  constructor
  · rintro hiff ⟨s, hs⟩
    by_contra hnone
    push Not at hnone
    exact hiff.mpr hnone s hs
  · intro hsome
    refine ⟨fun hno s hs => absurd hs (hno s), fun hall s hs => ?_⟩
    obtain ⟨t, ht, hfail⟩ := hsome ⟨s, hs⟩
    exact hfail (hall t ht)

/-- **Requests for many streams**: exactly when a request that is accepted reaches what it is addressed to
and reports truthfully. -/
theorem truthful_iff (answers : Answers) (a : Address player) (r : Request) (h : r.Accepted a) :
    Truthful answers a r ↔ r.Fine answers a := by
  cases r with
  | inputJump surplusDataInjected continuousReverseJump =>
    exact iff_of_true (inputJump_truthful h) trivial
  | inputGlitch => exact iff_of_true (inputGlitch_truthful h) trivial
  | setModuleParameters component immediately parameterBlock =>
    cases component with
    | player => exact iff_of_true (setModuleParameters_player h) trivial
    | demultiplexor => exact iff_of_true (setModuleParameters_demultiplexor h) trivial
    | outputCoordinator => exact setModuleParameters_outputCoordinator h
    | collator => exact setModuleParameters_collator h
    | external => exact setModuleParameters_external h
    | frameParser => exact setModuleParameters_inSequence rfl h
    | codec => exact setModuleParameters_inSequence rfl h
    | manifestor => exact setModuleParameters_inSequence rfl h
    | outputTimer => exact setModuleParameters_inSequence rfl h

end

/-- A playback with a stream. -/
def onePlayback : Player where
  listOfPlaybacks := [⟨0, [⟨0, 0, 0, none⟩]⟩]
  demultiplexorCount := 0
  distinct := by decide
  nodup := by decide
  playback_of_mem := by decide

/-- All playbacks and all streams. -/
def everything : Address onePlayback where
  playback := none
  stream := none
  playback_mem := nofun
  stream_mem := nofun

/-- Everything is possible and succeeds. -/
def willing : Answers where
  player := .playerNoError
  demultiplexor _ := .playerNoError
  context _ := .playerNoError
  outputCoordinator _ := .playerNoError
  collator _ := .playerNoError
  getBuffer _ := .playerNoError
  room _ _ := true

/-- Parameters for the codec. -/
theorem truthful_codec : Truthful willing everything (.setModuleParameters .codec false [0]) := by
  have haccepted : Request.Accepted everything (.setModuleParameters .codec false [0]) :=
    ⟨rfl, .inr ⟨rfl, by decide⟩⟩
  exact (truthful_iff _ _ _ haccepted).mpr fun _ _ _ => ⟨rfl, by decide⟩

/-- Parameters for the collator are set, and an error is reported. -/
theorem not_truthful : Request.Accepted everything (.setModuleParameters .collator true [0]) ∧
    ¬ Truthful willing everything (.setModuleParameters .collator true [0]) := by
  refine ⟨⟨rfl, .inl rfl⟩, ?_⟩
  rintro ⟨-, hreported⟩
  revert hreported
  unfold Reported
  decide

end Player2.PlayerRequests

import Player2.Slots
import Player2.Run

/-! # Calls in sequence

`CallInSequence` asks for something to be done by one of a stream's four processes, at once or when a
sequence number or a playback time is reached.  The request is a control structure in a buffer of its
own; it goes to the process through the ring that also brings its frames.  The process performs it when
it takes it from the ring, or keeps it in one of two small tables and looks at these before and after
every frame.

`run_inSequence` says when this does what it is for: a request is performed once, not before its point
is reached, and in the order of the requests that are due together.  A request for a playback time is
only understood by the third process, and by the fourth when it finds it in its tables; a table that is
full drops requests, and a request that gets a slot in front of one that is occupied overtakes. -/

namespace Player2.InSequence

/-! ### Control structures -/

/-- `INVALID_SEQUENCE_VALUE`, which is `INVALID_TIME` too. -/
def invalidSequenceValue : ℕ := 0xfeedfacedeadbeef

/-- `PlayerSequenceType_t`. -/
inductive SequenceType
  | immediate
  | beforeSequenceNumber
  | afterSequenceNumber
  | beforePlaybackTime
  | afterPlaybackTime
deriving DecidableEq

/-- The request is tied to a sequence number. -/
def SequenceType.isSequenceNumber : SequenceType → Bool
  | .beforeSequenceNumber => true
  | .afterSequenceNumber => true
  | _ => false

/-- The request goes into the table for requests before a frame. -/
def SequenceType.isBefore : SequenceType → Bool
  | .beforeSequenceNumber => true
  | .beforePlaybackTime => true
  | _ => false

/-- `PlayerControlStructure_t`, as far as it says when; the requests are numbered in the order in which
they are issued. -/
structure ControlStructure where
  id : ℕ
  sequenceType : SequenceType
  sequenceValue : ℕ
deriving DecidableEq

/-- The check of `ProcessAccumulatedControlMessages`. -/
def ControlStructure.due (m : ControlStructure) (sequenceNumber time : ℕ) : Bool :=
  if m.sequenceType.isSequenceNumber then
    sequenceNumber != invalidSequenceValue && m.sequenceValue ≤ sequenceNumber
  else time != invalidSequenceValue && m.sequenceValue ≤ time

/-- A table of control structures with the count that is kept of them. -/
structure MessageTable where
  count : ℕ
  slots : List (Option ControlStructure)
deriving DecidableEq

namespace MessageTable

/-- `PLAYER_MAX_CTOP_MESSAGES`, and the same for the other processes. -/
def size : ℕ := 4

def empty : MessageTable := ⟨0, List.replicate size none⟩

/-- The control structures in the table. -/
def messages (t : MessageTable) : List ControlStructure := t.slots.reduceOption

/-- `AccumulateControlMessage`, which fails when the table is full. -/
def accumulate (t : MessageTable) (m : ControlStructure) : Option MessageTable :=
  (Slots.insert t.slots m).map fun slots => ⟨t.count + 1, slots⟩

/-- `ProcessAccumulatedControlMessages`: the table afterwards, and the messages performed. -/
def process (t : MessageTable) (sequenceNumber time : ℕ) : MessageTable × List ControlStructure :=
  if t.count = 0 then (t, [])
  else
    let performed := t.messages.filter fun m => m.due sequenceNumber time
    (⟨t.count - performed.length, Slots.clear (fun m => m.due sequenceNumber time) t.slots⟩, performed)

/-- The count is the number of the messages. -/
def Counted (t : MessageTable) : Prop := t.count = t.messages.length

theorem empty_messages : empty.messages = [] := List.reduceOption_replicate_none

theorem empty_counted : empty.Counted := by
  rfl

variable {t t' : MessageTable} {m : ControlStructure} {sequenceNumber time : ℕ}

theorem accumulate_perm (h : t.accumulate m = some t') : t'.messages.Perm (m :: t.messages) := by
  obtain ⟨slots, hinsert, rfl⟩ := Option.map_eq_some_iff.mp h
  exact Slots.insert_perm hinsert

/-- A request that gets a slot behind all that are occupied comes last. -/
theorem accumulate_messages (hpacked : Slots.Packed t.slots) (h : t.accumulate m = some t') :
    t'.messages = t.messages ++ [m] := by
  obtain ⟨slots, hinsert, rfl⟩ := Option.map_eq_some_iff.mp h
  exact hpacked.insert hinsert

theorem Counted.accumulate (ht : t.Counted) (h : t.accumulate m = some t') : t'.Counted := by
  have hlength := (accumulate_perm h).length_eq
  obtain ⟨slots, hinsert, rfl⟩ := Option.map_eq_some_iff.mp h
  rw [List.length_cons] at hlength
  rw [Counted, hlength, ← ht]

theorem Counted.process (ht : t.Counted) :
    (t.process sequenceNumber time).1.messages =
        t.messages.filter (fun m => !m.due sequenceNumber time) ∧
      (t.process sequenceNumber time).2 = t.messages.filter (fun m => m.due sequenceNumber time) ∧
      (t.process sequenceNumber time).1.Counted := by
  unfold MessageTable.process
  split
  next hcount =>
    have hempty : t.messages = [] := List.eq_nil_of_length_eq_zero (ht.symm.trans hcount)
    rw [hempty]
    exact ⟨rfl, rfl, ht⟩
  next hcount =>
    have hmessages : (Slots.clear (fun m => m.due sequenceNumber time) t.slots).reduceOption =
        t.messages.filter (fun m => !m.due sequenceNumber time) := Slots.clear_reduceOption _ _
    refine ⟨hmessages, rfl, ?_⟩
    have hlength := List.length_eq_length_filter_add (l := t.messages)
      (fun m => m.due sequenceNumber time)
    change t.count - _ = (Slots.clear (fun m => m.due sequenceNumber time) t.slots).reduceOption.length
    rw [hmessages, ht]
    omega

theorem Counted.process_perm (ht : t.Counted) :
    ((t.process sequenceNumber time).2 ++ (t.process sequenceNumber time).1.messages).Perm t.messages := by
  rw [ht.process.1, ht.process.2.1]
  exact List.filter_append_perm _ _

theorem Counted.not_due (h : t.Counted)
    (hm : m ∈ (t.process sequenceNumber time).1.messages)
    (htype : m.sequenceType.isSequenceNumber = true) (hseq : sequenceNumber ≠ invalidSequenceValue) :
    sequenceNumber < m.sequenceValue := by
  rw [h.process.1, List.mem_filter, Bool.not_eq_true'] at hm
  have hnot := hm.2
  unfold ControlStructure.due at hnot
  rw [if_pos htype, Bool.and_eq_false_iff, bne_eq_false_iff_eq, decide_eq_false_iff_not] at hnot
  rcases hnot with heq | hlt
  · exact absurd heq hseq
  · exact Nat.lt_of_not_le hlt

end MessageTable

/-! ### The processes -/

/-- A process of a stream. -/
inductive ProcessKind
  | collateToParse
  | parseToDecode
  | decodeToManifest
  | postManifest
deriving DecidableEq

/-- A frame that a process handles: its sequence number, and the one that the process goes by, which is
another one in `ProcessDecodeToManifest` only. -/
structure Frame where
  value : ℕ
  sequenceNumber : ℕ
  marker : Bool
  nativePlaybackTime : ℕ
deriving DecidableEq

/-- A request that was performed: at which of the points where a process performs requests, and whether
what it was tied to had been reached. -/
structure Performed where
  message : ControlStructure
  point : ℕ
  reached : Bool
deriving DecidableEq

/-- A process and its control structures: the ones in the ring, the two tables and the local variables.
`SequenceNumber` is in two parts, whether it is valid and its value at the last frame handled; in
`ProcessDecodeToManifest` a frame that is kept for later makes it valid, too.  The frames kept, the frames
handled, the number of the next point, the number of requests accepted, the requests performed and the
control buffers released are not in the source. -/
structure ProcessState where
  ring : List ControlStructure
  before : MessageTable
  after : MessageTable
  begun : Bool
  sequenceNumber : ℕ
  maximumActualSequenceNumberSeen : ℕ
  time : ℕ
  terminated : Bool
  kept : List Frame
  frames : List Frame
  point : ℕ
  accepted : ℕ
  performed : List Performed
  released : List ℕ
deriving DecidableEq

/-- A call of `CallInSequence`, with whether there is a control buffer, the function is one of those that
are supported, and the ring has room; the process takes a control structure from its ring, or a frame that
it keeps for later; it handles a frame; it ends. -/
inductive Label
  | callInSequence (sequenceType : SequenceType) (sequenceValue : ℕ) (obtained supported inserted : Bool)
  | control
  | keep (f : Frame)
  | frame (f : Frame)
  | terminate
deriving DecidableEq

/-- What a request is tied to has been reached: a frame with that sequence number, or a higher one, has
come to the process, or a frame with that time, or a later one, has been handled. -/
def reachedBy (kept frames : List Frame) (m : ControlStructure) : Bool :=
  m.sequenceType == .immediate ||
    if m.sequenceType.isSequenceNumber then (kept ++ frames).any fun f => m.sequenceValue ≤ f.value
    else frames.any fun f =>
      f.nativePlaybackTime != invalidSequenceValue && m.sequenceValue ≤ f.nativePlaybackTime

namespace ProcessState

/-- The time that a process goes by when it handles a frame. -/
def messageTime (kind : ProcessKind) (s : ProcessState) (f : Frame) : ℕ :=
  match kind with
  | .collateToParse => invalidSequenceValue
  | .parseToDecode => invalidSequenceValue
  | .decodeToManifest => if f.marker then s.time else f.nativePlaybackTime
  | .postManifest => if f.marker then invalidSequenceValue else f.nativePlaybackTime

/-- `ProcessNow`, when a control structure comes from the ring. -/
def processNow (kind : ProcessKind) (s : ProcessState) (m : ControlStructure) : Bool :=
  match kind with
  | .decodeToManifest =>
    m.sequenceType == .immediate ||
      (if m.sequenceType.isSequenceNumber then
        s.begun && m.sequenceValue ≤ s.maximumActualSequenceNumberSeen
      else s.time != invalidSequenceValue && m.sequenceValue ≤ s.time)
  | _ =>
    m.sequenceType == .immediate ||
      s.begun && m.sequenceValue ≤ s.maximumActualSequenceNumberSeen

/-- `ProcessControlMessage`, for requests that are due at one point: each is performed, and its buffer is
released. -/
def perform (s : ProcessState) (messages : List ControlStructure) : ProcessState :=
  { s with
    point := s.point + 1
    performed := s.performed ++ messages.map fun m => ⟨m, s.point, reachedBy s.kept s.frames m⟩
    released := s.released ++ messages.map ControlStructure.id }

/-- A control structure is kept in one of the tables; if that is full, its buffer is released. -/
def accumulate (s : ProcessState) (m : ControlStructure) : ProcessState :=
  if m.sequenceType.isBefore then
    match s.before.accumulate m with
    | some before => { s with before := before }
    | none => { s with released := s.released ++ [m.id] }
  else
    match s.after.accumulate m with
    | some after => { s with after := after }
    | none => { s with released := s.released ++ [m.id] }

/-- A control structure comes from the ring. -/
def control (kind : ProcessKind) (s : ProcessState) (m : ControlStructure) : ProcessState :=
  if s.processNow kind m then s.perform [m] else s.accumulate m

/-- A frame is kept for later. -/
def keep (s : ProcessState) (f : Frame) : ProcessState :=
  { s with begun := f.value != invalidSequenceValue, kept := s.kept ++ [f] }

/-- The local variables for a frame. -/
def seeFrame (kind : ProcessKind) (s : ProcessState) (f : Frame) : ProcessState :=
  { s with
    begun := f.sequenceNumber != invalidSequenceValue
    sequenceNumber := f.sequenceNumber
    maximumActualSequenceNumberSeen := max f.value s.maximumActualSequenceNumberSeen
    time := s.messageTime kind f
    frames := s.frames ++ [f] }

/-- The control messages before a frame are looked at. -/
def processBefore (s : ProcessState) : ProcessState :=
  let scan := s.before.process s.sequenceNumber s.time
  { s.perform scan.2 with before := scan.1 }

/-- The control messages after a frame are looked at. -/
def processAfter (s : ProcessState) : ProcessState :=
  let scan := s.after.process s.sequenceNumber s.time
  { s.perform scan.2 with after := scan.1 }

/-- A frame is handled. -/
def frame (kind : ProcessKind) (s : ProcessState) (f : Frame) : ProcessState :=
  (s.seeFrame kind f).processBefore.processAfter

/-- `CallInSequence`; the ring's answer is not looked at. -/
def callInSequence (s : ProcessState) (sequenceType : SequenceType) (sequenceValue : ℕ)
    (obtained supported inserted : Bool) : ProcessState :=
  if obtained && supported then
    { s with
      accepted := s.accepted + 1
      ring := if inserted then s.ring ++ [⟨s.accepted, sequenceType, sequenceValue⟩] else s.ring }
  else s

/-- One step; a frame's own sequence number is the one that a process goes by, except in
`ProcessDecodeToManifest`, where it is not above the largest one seen. -/
def step (kind : ProcessKind) (s : ProcessState) : Label → Option ProcessState
  | .callInSequence sequenceType sequenceValue obtained supported inserted =>
    some (s.callInSequence sequenceType sequenceValue obtained supported inserted)
  | .control =>
    match s.ring with
    | [] => none
    | m :: rest => if s.terminated then none else some (control kind { s with ring := rest } m)
  | .keep f =>
    if s.terminated then none else if kind = .decodeToManifest then some (s.keep f) else none
  | .frame f =>
    if s.terminated then none
    else if kind = .decodeToManifest ∧ f.sequenceNumber ≤ max f.value s.maximumActualSequenceNumberSeen ∨
        f.sequenceNumber = f.value then
      some (s.frame kind f)
    else none
  | .terminate => some { s with terminated := true }

def start : ProcessState where
  ring := []
  before := .empty
  after := .empty
  begun := false
  sequenceNumber := invalidSequenceValue
  maximumActualSequenceNumberSeen := 0
  time := invalidSequenceValue
  terminated := false
  kept := []
  frames := []
  point := 0
  accepted := 0
  performed := []
  released := []

/-- The requests that are still to be performed: none, when the process has ended. -/
def waiting (s : ProcessState) : List ControlStructure :=
  if s.terminated then [] else s.ring ++ s.before.messages ++ s.after.messages

/-! ### What it is for -/

/-- What a request is tied to can be told by the process: `ProcessDecodeToManifest` knows times, and
`ProcessPostManifest` those that it does not take for a number that it has seen. -/
def TimeMeant (kind : ProcessKind) (s : ProcessState) (m : ControlStructure) : Prop :=
  m.sequenceType = .immediate ∨ m.sequenceType.isSequenceNumber = true ∨ kind = .decodeToManifest ∨
    kind = .postManifest ∧ s.processNow kind m = false

instance (kind : ProcessKind) (s : ProcessState) (m : ControlStructure) :
    Decidable (TimeMeant kind s m) := inferInstanceAs (Decidable (_ ∨ _ ∨ _ ∨ _))

/-- The table in which a request is kept. -/
def tableFor (s : ProcessState) (m : ControlStructure) : MessageTable :=
  if m.sequenceType.isBefore then s.before else s.after

/-- The table for a request has room, and no slot behind the first free one is occupied. -/
def HasRoom (s : ProcessState) (m : ControlStructure) : Prop :=
  ((s.tableFor m).accumulate m).isSome = true ∧ Slots.Packed (s.tableFor m).slots

instance (s : ProcessState) (m : ControlStructure) : Decidable (s.HasRoom m) :=
  inferInstanceAs (Decidable (_ ∧ _))

/-- The control structure at the head of the ring is one that can be dealt with. -/
def HeadMeant (kind : ProcessKind) (s : ProcessState) : List ControlStructure → Prop
  | [] => True
  | m :: _ => TimeMeant kind s m ∧ (s.processNow kind m = false → s.HasRoom m)

instance (kind : ProcessKind) (s : ProcessState) :
    (ring : List ControlStructure) → Decidable (HeadMeant kind s ring)
  | [] => isTrue trivial
  | _ :: _ => inferInstanceAs (Decidable (_ ∧ (_ → _)))

/-- A step at which the process is meant to work: there is room in the ring, and in the tables behind the
requests that are kept there; a request for a time is one that the process can tell; a frame that is kept
has a valid sequence number; the process ends when nothing waits. -/
def Meant (kind : ProcessKind) (s : ProcessState) : Label → Prop
  | .callInSequence _ _ _ _ inserted => inserted = true ∧ s.terminated = false
  | .control => HeadMeant kind s s.ring
  | .keep f => f.value ≠ invalidSequenceValue
  | .frame _ => True
  | .terminate => s.waiting = []

instance (kind : ProcessKind) (s : ProcessState) : (label : Label) → Decidable (Meant kind s label)
  | .callInSequence _ _ _ _ _ => inferInstanceAs (Decidable (_ ∧ _))
  | .control => inferInstanceAs (Decidable (HeadMeant kind s s.ring))
  | .keep _ => inferInstanceAs (Decidable (_ ≠ _))
  | .frame _ => isTrue trivial
  | .terminate => inferInstanceAs (Decidable (_ = _))

/-- What calls in sequence are for. -/
structure Faithful (kind : ProcessKind) (s : ProcessState) : Prop where
  /-- Each accepted request waits, or was performed once. -/
  accounted : (s.performed.map (fun p => p.message.id) ++ s.waiting.map ControlStructure.id).Perm
    (List.range s.accepted)
  /-- A control buffer is released with its request. -/
  released : s.released = s.performed.map fun p => p.message.id
  /-- No request is performed before what it is tied to is reached. -/
  notEarly : ∀ p ∈ s.performed, p.reached = true
  /-- Requests performed at one point are performed in the order in which they were issued. -/
  ordered : s.performed.Pairwise fun p p' => p.point = p'.point → p.message.id < p'.message.id
  /-- A request for a sequence number does not wait in a table when the last frame handled has that number,
  or a higher one. -/
  punctual : ∀ m ∈ s.before.messages ++ s.after.messages, m.sequenceType.isSequenceNumber = true →
    s.sequenceNumber ≠ invalidSequenceValue → s.sequenceNumber < m.sequenceValue

/-! ### The requests performed -/

/-- What holds of the requests performed so far. -/
structure Log (s : ProcessState) : Prop where
  released : s.released = s.performed.map fun p => p.message.id
  notEarly : ∀ p ∈ s.performed, p.reached = true
  ordered : s.performed.Pairwise fun p p' => p.point = p'.point → p.message.id < p'.message.id
  points : ∀ p ∈ s.performed, p.point < s.point

variable {s : ProcessState}

theorem Log.perform (h : s.Log) {messages : List ControlStructure}
    (hreached : ∀ m ∈ messages, reachedBy s.kept s.frames m = true)
    (hordered : messages.Pairwise fun m m' => m.id < m'.id) : (s.perform messages).Log where
  released := by
    change s.released ++ _ = (s.performed ++ _).map _
    rw [h.released, List.map_append, List.map_map]
    rfl
  notEarly := by
    intro p hp
    rcases List.mem_append.mp hp with hold | hnew
    · exact h.notEarly p hold
    · obtain ⟨m, hm, rfl⟩ := List.mem_map.mp hnew
      exact hreached m hm
  ordered := by
    refine List.pairwise_append.mpr ⟨h.ordered, ?_, ?_⟩
    · rw [List.pairwise_map]
      refine hordered.imp ?_
      intro m m' hlt _
      exact hlt
    · intro p hp p' hp' heq
      obtain ⟨m, -, rfl⟩ := List.mem_map.mp hp'
      exact absurd heq (Nat.ne_of_lt (h.points p hp))
  points := by
    intro p hp
    rcases List.mem_append.mp hp with hold | hnew
    · exact Nat.lt_succ_of_lt (h.points p hold)
    · obtain ⟨m, -, rfl⟩ := List.mem_map.mp hnew
      exact Nat.lt_succ_self _

/-! ### The frames seen -/

/-- The local variables are about the frames handled. -/
structure Seen (s : ProcessState) : Prop where
  begun : s.begun = true → s.kept ++ s.frames ≠ []
  numbered : s.sequenceNumber ≠ invalidSequenceValue → s.frames ≠ []
  below : s.sequenceNumber ≠ invalidSequenceValue →
    s.sequenceNumber ≤ s.maximumActualSequenceNumberSeen
  attained : s.maximumActualSequenceNumberSeen = 0 ∨
    ∃ f ∈ s.frames, s.maximumActualSequenceNumberSeen = f.value
  timed : s.time ≠ invalidSequenceValue → ∃ f ∈ s.frames, s.time = f.nativePlaybackTime

variable {m : ControlStructure}

theorem Seen.reached_of_le (h : s.Seen)
    (htype : m.sequenceType.isSequenceNumber = true) (hsome : s.kept ++ s.frames ≠ [])
    (hle : m.sequenceValue ≤ s.maximumActualSequenceNumberSeen) : reachedBy s.kept s.frames m = true := by
  have hframe : ∃ f ∈ s.kept ++ s.frames, m.sequenceValue ≤ f.value := by
    rcases h.attained with hzero | ⟨f, hf, heq⟩
    · obtain ⟨f, hf⟩ := List.exists_mem_of_ne_nil _ hsome
      exact ⟨f, hf, by omega⟩
    · exact ⟨f, List.mem_append_right _ hf, heq ▸ hle⟩
  obtain ⟨f, hf, hle⟩ := hframe
  unfold reachedBy
  rw [Bool.or_eq_true, if_pos htype, List.any_eq_true]
  exact .inr ⟨f, hf, decide_eq_true hle⟩

theorem Seen.reached_of_time (h : s.Seen)
    (htype : ¬ m.sequenceType.isSequenceNumber = true) (htime : s.time ≠ invalidSequenceValue)
    (hle : m.sequenceValue ≤ s.time) : reachedBy s.kept s.frames m = true := by
  obtain ⟨f, hf, heq⟩ := h.timed htime
  unfold reachedBy
  rw [Bool.or_eq_true, if_neg htype, List.any_eq_true]
  refine .inr ⟨f, hf, ?_⟩
  rw [Bool.and_eq_true, bne_iff_ne, decide_eq_true_eq]
  exact ⟨heq ▸ htime, heq ▸ hle⟩

theorem Seen.reached_of_due (h : s.Seen)
    (hdue : m.due s.sequenceNumber s.time = true) : reachedBy s.kept s.frames m = true := by
  unfold ControlStructure.due at hdue
  by_cases htype : m.sequenceType.isSequenceNumber = true
  · rw [if_pos htype, Bool.and_eq_true, bne_iff_ne, decide_eq_true_eq] at hdue
    have hsome := List.append_ne_nil_of_right_ne_nil s.kept (h.numbered hdue.1)
    exact h.reached_of_le htype hsome (Nat.le_trans hdue.2 (h.below hdue.1))
  · rw [if_neg htype, Bool.and_eq_true, bne_iff_ne, decide_eq_true_eq] at hdue
    exact h.reached_of_time htype hdue.1 hdue.2

theorem reachedBy_of_immediate {kept frames : List Frame}
    (h : m.sequenceType = .immediate) : reachedBy kept frames m = true := by
  unfold reachedBy
  rw [h]
  rfl

variable {kind : ProcessKind}

theorem processNow_of_sequenceNumber (htype : m.sequenceType.isSequenceNumber = true) :
    s.processNow kind m = true ↔ s.begun = true ∧
      m.sequenceValue ≤ s.maximumActualSequenceNumberSeen := by
  have himmediate : (m.sequenceType == SequenceType.immediate) = false := by
    cases hm : m.sequenceType with
    | immediate =>
      rw [hm] at htype
      cases htype
    | _ => rfl
  cases kind <;>
    simp only [processNow, himmediate, htype, Bool.false_or, if_true, Bool.and_eq_true,
      decide_eq_true_eq]

theorem Seen.reached_of_now (h : s.Seen)
    (hmeant : TimeMeant kind s m) (hnow : s.processNow kind m = true) :
    reachedBy s.kept s.frames m = true := by
  by_cases htype : m.sequenceType.isSequenceNumber = true
  · obtain ⟨hbegun, hle⟩ := (processNow_of_sequenceNumber htype).mp hnow
    exact h.reached_of_le htype (h.begun hbegun) hle
  · rcases hmeant with himmediate | hsequence | hkind | ⟨-, hnot⟩
    · exact reachedBy_of_immediate himmediate
    · exact absurd hsequence htype
    · subst hkind
      unfold processNow at hnow
      rw [Bool.or_eq_true, beq_iff_eq, if_neg htype, Bool.and_eq_true, bne_iff_ne,
        decide_eq_true_eq] at hnow
      rcases hnow with himmediate | ⟨htime, hle⟩
      · exact reachedBy_of_immediate himmediate
      · exact h.reached_of_time htype htime hle
    · rw [hnot] at hnow
      cases hnow

variable {f : Frame}

theorem Seen.seeFrame (h : s.Seen)
    (hf : f.sequenceNumber ≤ max f.value s.maximumActualSequenceNumberSeen) :
    (s.seeFrame kind f).Seen where
  begun _ := List.append_ne_nil_of_right_ne_nil _
    (List.append_ne_nil_of_right_ne_nil _ (List.cons_ne_nil f []))
  numbered _ := List.append_ne_nil_of_right_ne_nil _ (List.cons_ne_nil f [])
  below _ := hf
  attained := by
    change max f.value s.maximumActualSequenceNumberSeen = 0 ∨ ∃ g ∈ s.frames ++ [f],
      max f.value s.maximumActualSequenceNumberSeen = g.value
    rcases Nat.le_total f.value s.maximumActualSequenceNumberSeen with hle | hle
    · rw [Nat.max_eq_right hle]
      rcases h.attained with hzero | ⟨g, hg, heq⟩
      · exact .inl hzero
      · exact .inr ⟨g, List.mem_append_left _ hg, heq⟩
    · rw [Nat.max_eq_left hle]
      exact .inr ⟨f, List.mem_append_right _ (List.mem_singleton_self f), rfl⟩
  timed := by
    intro htime
    change s.messageTime kind f ≠ _ at htime
    change ∃ g ∈ s.frames ++ [f], s.messageTime kind f = g.nativePlaybackTime
    have hmem : f ∈ s.frames ++ [f] := List.mem_append_right _ (List.mem_singleton_self f)
    unfold messageTime at htime ⊢
    cases kind with
    | collateToParse => exact absurd rfl htime
    | parseToDecode => exact absurd rfl htime
    | decodeToManifest =>
      dsimp only at htime ⊢
      split at htime
      next hmarker =>
        rw [if_pos hmarker]
        obtain ⟨g, hg, heq⟩ := h.timed htime
        exact ⟨g, List.mem_append_left _ hg, heq⟩
      next hmarker =>
        rw [if_neg hmarker]
        exact ⟨f, hmem, rfl⟩
    | postManifest =>
      dsimp only at htime ⊢
      split at htime
      next => exact absurd rfl htime
      next hmarker =>
        rw [if_neg hmarker]
        exact ⟨f, hmem, rfl⟩

/-! ### The order of the requests -/

/-- The requests in each table were issued before those in the ring, and lie in it as they were issued. -/
structure InOrder (s : ProcessState) : Prop where
  before : (s.before.messages ++ s.ring).Pairwise fun m m' => m.id < m'.id
  after : (s.after.messages ++ s.ring).Pairwise fun m m' => m.id < m'.id

section Order

variable {s : ProcessState} {m : ControlStructure} {rest : List ControlStructure}

theorem InOrder.issue (h : s.InOrder) (hbefore : ∀ m' ∈ s.before.messages ++ s.ring, m'.id < m.id)
    (hafter : ∀ m' ∈ s.after.messages ++ s.ring, m'.id < m.id) :
    InOrder { s with ring := s.ring ++ [m] } where
  before := by
    rw [← List.append_assoc]
    exact List.pairwise_append.mpr ⟨h.before, List.pairwise_singleton _ _, fun m' hm' m'' hm'' =>
      List.mem_singleton.mp hm'' ▸ hbefore m' hm'⟩
  after := by
    rw [← List.append_assoc]
    exact List.pairwise_append.mpr ⟨h.after, List.pairwise_singleton _ _, fun m' hm' m'' hm'' =>
      List.mem_singleton.mp hm'' ▸ hafter m' hm'⟩

/-- The request at the head of the ring leaves it. -/
theorem InOrder.take (h : s.InOrder) (hring : s.ring = m :: rest) : InOrder { s with ring := rest } where
  before := h.before.sublist (hring ▸ (List.sublist_cons_self m rest).append_left _)
  after := h.after.sublist (hring ▸ (List.sublist_cons_self m rest).append_left _)

variable {t : MessageTable}

/-- It comes last in a table. -/
theorem InOrder.keepBefore (h : s.InOrder) (hring : s.ring = m :: rest)
    (ht : t.messages = s.before.messages ++ [m]) : InOrder { s with ring := rest, before := t } where
  before := by
    rw [ht, List.append_assoc, List.singleton_append, ← hring]
    exact h.before
  after := (h.take hring).after

theorem InOrder.keepAfter (h : s.InOrder) (hring : s.ring = m :: rest)
    (ht : t.messages = s.after.messages ++ [m]) : InOrder { s with ring := rest, after := t } where
  before := (h.take hring).before
  after := by
    rw [ht, List.append_assoc, List.singleton_append, ← hring]
    exact h.after

/-- A scan of a table leaves a part of it in place and performs the other part. -/
theorem process_pairwise (ht : t.Counted)
    (h : (t.messages ++ rest).Pairwise fun m m' => m.id < m'.id) (sequenceNumber time : ℕ) :
    ((t.process sequenceNumber time).1.messages ++ rest).Pairwise (fun m m' => m.id < m'.id) ∧
      (t.process sequenceNumber time).2.Pairwise fun m m' => m.id < m'.id := by
  rw [ht.process.1, ht.process.2.1]
  exact ⟨h.sublist (List.filter_sublist.append_right _),
    (List.pairwise_append.mp h).1.sublist List.filter_sublist⟩

theorem InOrder.processBefore (h : s.InOrder) (ht : s.before.Counted) :
    s.processBefore.InOrder ∧
      (s.before.process s.sequenceNumber s.time).2.Pairwise fun m m' => m.id < m'.id :=
  have hscan := process_pairwise ht h.before s.sequenceNumber s.time
  ⟨⟨hscan.1, h.after⟩, hscan.2⟩

theorem InOrder.processAfter (h : s.InOrder) (ht : s.after.Counted) :
    s.processAfter.InOrder ∧
      (s.after.process s.sequenceNumber s.time).2.Pairwise fun m m' => m.id < m'.id :=
  have hscan := process_pairwise ht h.after s.sequenceNumber s.time
  ⟨⟨h.before, hscan.1⟩, hscan.2⟩

end Order

/-! ### The steps -/

/-- The requests accepted: the ones performed and the ones that wait. -/
def requests (s : ProcessState) : List ControlStructure :=
  s.performed.map Performed.message ++ s.waiting

/-- No request in the tables that is tied to a sequence number is overdue. -/
def Punctual (s : ProcessState) : Prop :=
  ∀ m ∈ s.before.messages ++ s.after.messages, m.sequenceType.isSequenceNumber = true →
    s.sequenceNumber ≠ invalidSequenceValue → s.sequenceNumber < m.sequenceValue

/-- What holds of a process when every step of it is as it is meant. -/
structure Sound (s : ProcessState) : Prop where
  log : s.Log
  seen : s.Seen
  order : s.InOrder
  countedBefore : s.before.Counted
  countedAfter : s.after.Counted
  accounted : (s.requests.map ControlStructure.id).Perm (List.range s.accepted)
  punctual : s.Punctual
  valid : s.sequenceNumber ≠ invalidSequenceValue → s.begun = true

theorem Sound.faithful (h : s.Sound) : s.Faithful kind where
  accounted := by
    have haccounted := h.accounted
    rw [requests, List.map_append, List.map_map] at haccounted
    exact haccounted
  released := h.log.released
  notEarly := h.log.notEarly
  ordered := h.log.ordered
  punctual := h.punctual

theorem requests_of_running (h : s.terminated = false) :
    s.requests = s.performed.map Performed.message ++ (s.ring ++ s.before.messages ++ s.after.messages) := by
  unfold requests waiting
  rw [h]
  rfl

/-- What waits was issued already. -/
theorem Sound.issued (h : s.Sound) (hrunning : s.terminated = false) :
    ∀ m ∈ s.ring ++ s.before.messages ++ s.after.messages, m.id < s.accepted := by
  intro m hm
  have haccounted := h.accounted
  rw [requests_of_running hrunning] at haccounted
  rw [← List.mem_range, ← haccounted.mem_iff]
  exact List.mem_map_of_mem (List.mem_append_right _ hm)

theorem Sound.callInSequence (h : s.Sound) (hrunning : s.terminated = false)
    (sequenceType : SequenceType) (sequenceValue : ℕ) (obtained supported : Bool) :
    (s.callInSequence sequenceType sequenceValue obtained supported true).Sound := by
  unfold ProcessState.callInSequence
  split
  next =>
    have hissued := h.issued hrunning
    have horder := h.order.issue (m := ⟨s.accepted, sequenceType, sequenceValue⟩)
      (fun m' hm' => hissued m' (List.mem_append_left _ (List.perm_append_comm.mem_iff.mp hm')))
      (fun m' hm' => hissued m' (by
        rw [List.append_assoc, List.mem_append, List.mem_append]
        exact (List.mem_append.mp hm').symm.imp_right .inr))
    refine ⟨⟨h.log.released, h.log.notEarly, h.log.ordered, h.log.points⟩,
      ⟨h.seen.begun, h.seen.numbered, h.seen.below, h.seen.attained, h.seen.timed⟩,
      ⟨horder.before, horder.after⟩, h.countedBefore, h.countedAfter, ?_, h.punctual, h.valid⟩
    have haccounted := h.accounted
    rw [requests_of_running hrunning] at haccounted
    rw [List.range_succ]
    refine List.Perm.trans ?_ (haccounted.append_right [s.accepted])
    change (List.map ControlStructure.id _).Perm
      (_ ++ [(⟨s.accepted, sequenceType, sequenceValue⟩ : ControlStructure)].map ControlStructure.id)
    rw [← List.map_append]
    refine List.Perm.map _ ?_
    refine (List.Perm.of_eq (requests_of_running ?_)).trans ?_
    · exact hrunning
    simp only [if_true, List.append_assoc]
    refine (List.perm_append_left_iff _).mpr ((List.perm_append_left_iff _).mpr ?_)
    rw [← List.append_assoc s.before.messages]
    exact List.perm_append_comm
  next => exact h

variable {rest : List ControlStructure}

theorem Sound.now (h : s.Sound) (hrunning : s.terminated = false) (hring : s.ring = m :: rest)
    (hreached : reachedBy s.kept s.frames m = true) :
    (perform { s with ring := rest } [m]).Sound := by
  have hlog : Log { s with ring := rest } :=
    ⟨h.log.released, h.log.notEarly, h.log.ordered, h.log.points⟩
  have hall : ∀ m' ∈ [m], reachedBy s.kept s.frames m' = true := by
    intro m' hm'
    rw [List.mem_singleton.mp hm']
    exact hreached
  have horder := h.order.take hring
  refine ⟨hlog.perform hall (List.pairwise_singleton _ _),
    ⟨h.seen.begun, h.seen.numbered, h.seen.below, h.seen.attained, h.seen.timed⟩,
    ⟨horder.before, horder.after⟩, h.countedBefore, h.countedAfter, ?_, h.punctual, h.valid⟩
  refine List.Perm.trans (List.Perm.map _ ?_) h.accounted
  rw [requests_of_running hrunning, hring]
  have hrunning' : (perform { s with ring := rest } [m]).terminated = false := hrunning
  rw [requests_of_running hrunning']
  change ((s.performed ++ [(⟨m, s.point, reachedBy s.kept s.frames m⟩ : Performed)]).map Performed.message ++
    (rest ++ s.before.messages ++ s.after.messages)).Perm _
  rw [List.map_append, List.append_assoc]
  exact List.Perm.refl _

/-- A control structure from the ring is kept in a table with room behind the occupied slots. -/
theorem Sound.later (h : s.Sound) (hrunning : s.terminated = false)
    (hring : s.ring = m :: rest) (hnot : s.processNow kind m = false) (hroom : s.HasRoom m) :
    (accumulate { s with ring := rest } m).Sound := by
  have hlog : Log { s with ring := rest } :=
    ⟨h.log.released, h.log.notEarly, h.log.ordered, h.log.points⟩
  have hlate : m.sequenceType.isSequenceNumber = true → s.sequenceNumber ≠ invalidSequenceValue →
      s.sequenceNumber < m.sequenceValue := by
    intro htype hseq
    have hbelow := h.seen.below hseq
    by_contra hle
    have hnow : s.processNow kind m = true :=
      (processNow_of_sequenceNumber htype).mpr ⟨h.valid hseq, by omega⟩
    rw [hnot] at hnow
    cases hnow
  have haccounted := h.accounted
  rw [requests_of_running hrunning, hring] at haccounted
  unfold HasRoom tableFor at hroom
  unfold ProcessState.accumulate
  by_cases hbefore : m.sequenceType.isBefore = true
  · rw [if_pos hbefore] at hroom ⊢
    obtain ⟨before, hsome⟩ := Option.isSome_iff_exists.mp hroom.1
    have horder := h.order.keepBefore hring (MessageTable.accumulate_messages hroom.2 hsome)
    have hperm := MessageTable.accumulate_perm hsome
    rw [hsome]
    refine ⟨⟨hlog.released, hlog.notEarly, hlog.ordered, hlog.points⟩,
      ⟨h.seen.begun, h.seen.numbered, h.seen.below, h.seen.attained, h.seen.timed⟩,
      ⟨horder.before, horder.after⟩, h.countedBefore.accumulate hsome, h.countedAfter, ?_, ?_, h.valid⟩
    · refine List.Perm.trans (List.Perm.map _ ?_) haccounted
      refine (List.Perm.of_eq (requests_of_running ?_)).trans ?_
      · exact hrunning
      refine (List.perm_append_left_iff _).mpr ?_
      refine ((hperm.append_left rest).append_right _).trans ?_
      exact List.perm_middle.append_right _
    · intro m' hm'
      rcases List.mem_cons.mp ((hperm.append_right _).mem_iff.mp hm') with rfl | hold
      · exact hlate
      · exact h.punctual m' hold
  · rw [if_neg hbefore] at hroom ⊢
    obtain ⟨after, hsome⟩ := Option.isSome_iff_exists.mp hroom.1
    have horder := h.order.keepAfter hring (MessageTable.accumulate_messages hroom.2 hsome)
    have hperm := MessageTable.accumulate_perm hsome
    rw [hsome]
    refine ⟨⟨hlog.released, hlog.notEarly, hlog.ordered, hlog.points⟩,
      ⟨h.seen.begun, h.seen.numbered, h.seen.below, h.seen.attained, h.seen.timed⟩,
      ⟨horder.before, horder.after⟩, h.countedBefore, h.countedAfter.accumulate hsome, ?_, ?_, h.valid⟩
    · refine List.Perm.trans (List.Perm.map _ ?_) haccounted
      refine (List.Perm.of_eq (requests_of_running ?_)).trans ?_
      · exact hrunning
      refine (List.perm_append_left_iff _).mpr ?_
      exact (hperm.append_left _).trans List.perm_middle
    · intro m' hm'
      have hmem := ((hperm.append_left s.before.messages).trans List.perm_middle).mem_iff.mp hm'
      rcases List.mem_cons.mp hmem with rfl | hold
      · exact hlate
      · exact h.punctual m' hold

theorem Sound.keep (h : s.Sound) (hf : f.value ≠ invalidSequenceValue) :
    (s.keep f).Sound := by
  have hkept : s.kept ++ [f] ++ s.frames ≠ [] :=
    List.append_ne_nil_of_left_ne_nil (List.append_ne_nil_of_right_ne_nil _ (List.cons_ne_nil f [])) _
  refine ⟨⟨h.log.released, h.log.notEarly, h.log.ordered, h.log.points⟩,
    ⟨fun _ => hkept, h.seen.numbered, h.seen.below, h.seen.attained, h.seen.timed⟩,
    ⟨h.order.before, h.order.after⟩, h.countedBefore, h.countedAfter, h.accounted, h.punctual, fun _ => bne_iff_ne.mpr hf⟩

/-- The part of `Sound` that a scan of the tables keeps: the frame that is being handled is seen
already, and only the scans make the tables punctual. -/
structure Handling (s : ProcessState) : Prop where
  log : s.Log
  seen : s.Seen
  order : s.InOrder
  countedBefore : s.before.Counted
  countedAfter : s.after.Counted
  running : s.terminated = false
  accounted : (s.requests.map ControlStructure.id).Perm (List.range s.accepted)

theorem performed_perm (performed : List Performed) (point : ℕ) (reached : ControlStructure → Bool)
    (first last : List ControlStructure) {due rest table : List ControlStructure}
    (hperm : (due ++ rest).Perm table) :
    ((performed ++ due.map fun m => (⟨m, point, reached m⟩ : Performed)).map Performed.message ++
        (first ++ rest ++ last)).Perm
      (performed.map Performed.message ++ (first ++ table ++ last)) := by
  have hid : Performed.message ∘ (fun m => (⟨m, point, reached m⟩ : Performed)) = id := rfl
  rw [List.map_append, List.map_map, hid, List.map_id, List.append_assoc]
  refine List.Perm.append_left _ ?_
  rw [← List.append_assoc]
  refine List.Perm.append_right _ ?_
  rw [← List.append_assoc]
  refine (List.perm_append_comm.append_right _).trans ?_
  rw [List.append_assoc]
  exact hperm.append_left _

theorem Handling.reached (h : s.Handling) {t : MessageTable} (ht : t.Counted) :
    ∀ m ∈ (t.process s.sequenceNumber s.time).2, reachedBy s.kept s.frames m = true := by
  intro m hm
  rw [ht.process.2.1] at hm
  exact h.seen.reached_of_due (List.mem_filter.mp hm).2

theorem Handling.processBefore (h : s.Handling) : s.processBefore.Handling := by
  obtain ⟨horder, hordered⟩ := h.order.processBefore h.countedBefore
  have hlog := h.log.perform (h.reached h.countedBefore) hordered
  have hrunning : s.processBefore.terminated = false := h.running
  constructor
  case log => exact ⟨hlog.released, hlog.notEarly, hlog.ordered, hlog.points⟩
  case seen => exact ⟨h.seen.begun, h.seen.numbered, h.seen.below, h.seen.attained, h.seen.timed⟩
  case order => exact horder
  case countedBefore => exact h.countedBefore.process.2.2
  case countedAfter => exact h.countedAfter
  case running => exact h.running
  case accounted =>
    refine List.Perm.trans (List.Perm.map _ ?_) h.accounted
    rw [requests_of_running hrunning, requests_of_running h.running]
    exact performed_perm s.performed s.point _ s.ring s.after.messages h.countedBefore.process_perm

theorem Handling.processAfter (h : s.Handling) : s.processAfter.Handling := by
  obtain ⟨horder, hordered⟩ := h.order.processAfter h.countedAfter
  have hlog := h.log.perform (h.reached h.countedAfter) hordered
  have hrunning : s.processAfter.terminated = false := h.running
  constructor
  case log => exact ⟨hlog.released, hlog.notEarly, hlog.ordered, hlog.points⟩
  case seen => exact ⟨h.seen.begun, h.seen.numbered, h.seen.below, h.seen.attained, h.seen.timed⟩
  case order => exact horder
  case countedBefore => exact h.countedBefore
  case countedAfter => exact h.countedAfter.process.2.2
  case running => exact h.running
  case accounted =>
    refine List.Perm.trans (List.Perm.map _ ?_) h.accounted
    rw [requests_of_running hrunning, requests_of_running h.running]
    have hscan : ((s.after.process s.sequenceNumber s.time).2 ++
        (s.after.process s.sequenceNumber s.time).1.messages).Perm s.after.messages :=
      h.countedAfter.process_perm
    have hperm := performed_perm s.performed s.point (reachedBy s.kept s.frames)
      (s.ring ++ s.before.messages) [] hscan
    rw [List.append_nil, List.append_nil] at hperm
    exact hperm

theorem Sound.frame (h : s.Sound)
    (hrunning : s.terminated = false)
    (hf : f.sequenceNumber ≤ max f.value s.maximumActualSequenceNumberSeen) : (s.frame kind f).Sound := by
  have hseen : (s.seeFrame kind f).Handling :=
    ⟨⟨h.log.released, h.log.notEarly, h.log.ordered, h.log.points⟩, h.seen.seeFrame hf,
      ⟨h.order.before, h.order.after⟩, h.countedBefore, h.countedAfter, hrunning, h.accounted⟩
  have hbefore := hseen.processBefore
  have hafter := hbefore.processAfter
  refine ⟨hafter.log, hafter.seen, hafter.order, hafter.countedBefore, hafter.countedAfter, hafter.accounted, ?_,
    fun hseq => bne_iff_ne.mpr hseq⟩
  intro m hm htype hseq
  rcases List.mem_append.mp hm with hm | hm
  · exact hseen.countedBefore.not_due hm htype hseq
  · exact hbefore.countedAfter.not_due hm htype hseq

theorem Sound.terminate (h : s.Sound) (hwaiting : s.waiting = []) :
    Sound { s with terminated := true } := by
  refine ⟨⟨h.log.released, h.log.notEarly, h.log.ordered, h.log.points⟩,
    ⟨h.seen.begun, h.seen.numbered, h.seen.below, h.seen.attained, h.seen.timed⟩,
    ⟨h.order.before, h.order.after⟩, h.countedBefore, h.countedAfter, ?_, h.punctual, h.valid⟩
  have haccounted := h.accounted
  rw [requests, hwaiting] at haccounted
  exact haccounted

theorem Sound.step {s t : ProcessState} {label : Label} (h : s.Sound)
    (hmeant : Meant kind s label) (hstep : step kind s label = some t) : t.Sound := by
  cases label with
  | callInSequence sequenceType sequenceValue obtained supported inserted =>
    obtain ⟨rfl, hrunning⟩ := hmeant
    obtain rfl := Option.some.inj hstep
    exact h.callInSequence hrunning sequenceType sequenceValue obtained supported
  | control =>
    unfold ProcessState.step at hstep
    cases hring : s.ring with
    | nil =>
      rw [hring] at hstep
      cases hstep
    | cons m rest =>
      rw [hring, Option.ite_none_left_eq_some] at hstep
      obtain ⟨hrunning, hcontrol⟩ := hstep
      have hrunning := Bool.eq_false_iff.mpr hrunning
      obtain rfl := Option.some.inj hcontrol
      have hhead : HeadMeant kind s (m :: rest) := hring ▸ hmeant
      unfold ProcessState.control
      split
      next hnow => exact h.now hrunning hring (h.seen.reached_of_now hhead.1 hnow)
      next hnot =>
        have hnot : s.processNow kind m = false := Bool.eq_false_iff.mpr hnot
        exact h.later hrunning hring hnot (hhead.2 hnot)
  | keep f =>
    unfold ProcessState.step at hstep
    rw [Option.ite_none_left_eq_some, Option.ite_none_right_eq_some] at hstep
    obtain ⟨-, -, heq⟩ := hstep
    obtain rfl := Option.some.inj heq
    exact h.keep hmeant
  | frame f =>
    unfold ProcessState.step at hstep
    rw [Option.ite_none_left_eq_some, Option.ite_none_right_eq_some] at hstep
    obtain ⟨hrunning, hf, heq⟩ := hstep
    obtain rfl := Option.some.inj heq
    have hle : f.sequenceNumber ≤ max f.value s.maximumActualSequenceNumberSeen := by
      rcases hf with ⟨-, hle⟩ | heq
      · exact hle
      · exact heq ▸ Nat.le_max_left _ _
    exact h.frame (Bool.eq_false_iff.mpr hrunning) hle
  | terminate =>
    obtain rfl := Option.some.inj hstep
    exact h.terminate hmeant

theorem start_sound : start.Sound where
  log := ⟨rfl, fun _ h => absurd h List.not_mem_nil, List.Pairwise.nil,
    fun _ h => absurd h List.not_mem_nil⟩
  seen := ⟨fun h => absurd h Bool.false_ne_true, fun h => absurd rfl h, fun h => absurd rfl h, .inl rfl,
    fun h => absurd rfl h⟩
  order := ⟨List.Pairwise.nil, List.Pairwise.nil⟩
  countedBefore := MessageTable.empty_counted
  countedAfter := MessageTable.empty_counted
  accounted := List.Perm.nil
  punctual _ h := absurd h List.not_mem_nil
  valid h := absurd rfl h

end ProcessState
end Player2.InSequence

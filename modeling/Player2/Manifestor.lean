import Player2.Circular
import Player2.Run
import Mathlib.Algebra.Order.Ring.Nat

/-! # The video manifestor

`Manifestor_VideoStmfb_c` puts decode buffers on display.  `_QueueDecodeBuffer` runs with `BufferLock`
taken and hands the entries of a buffer to the display driver one by one; the driver answers with a display
callback for the first of them and a done callback for each, at any time after it has accepted the entry.
`BufferReleaseThread` takes `BufferLock` for each of its rounds, and gives the buffers back on the output
ring.  Events are registered by `QueueEventSignal` and signalled by `DisplaySignalThread`.

A state holds the fields that these share, where the caller that has the lock stands in
`_QueueDecodeBuffer`, the entries that the driver has, and a record of what has happened: which uses of the
buffers there were, which of them have gone on display or have come back, and which events were signalled.
A buffer that is queued again while it is on display stays in the same use. -/

namespace Player2.Manifestor

/-! ### Constants and records -/

def maxDecodeBuffers : ℕ := 32

def maxDequeueBuffers : ℕ := maxDecodeBuffers + 8

def maximumWaitingEvents : ℕ := 32

def invalidBufferId : ℕ := 0xffffffff

def anyBufferId : ℕ := 0xfffffffe

def eventIllegalIdentifier : ℕ := 0

/-- `EventRecord_s`, with the code of its event.  `ordinal` says which registration it is, and `use` which
use of a buffer was the last one queued when it was registered. -/
structure EventRecord where
  id : ℕ
  code : ℕ
  ordinal : ℕ
  use : Option ℕ
deriving DecidableEq

inductive BufferState
  | available
  | queued
  | notQueued
  | multiQueue
deriving DecidableEq

inductive InitialFrameState
  | possible
  | queued
  | notQueued
  | onDisplay
  | notPossible
deriving DecidableEq

/-- `StreamBuffer_s`; `use` is the number of its current, or last, use. -/
structure StreamBuffer where
  queueCount : ℕ
  eventPending : Bool
  bufferState : BufferState
  use : ℕ
deriving DecidableEq

/-- An entry that the driver has accepted and that is not done.  `first` says that it has a display
callback, and `shown` that the callback has been made. -/
structure Entry where
  index : ℕ
  use : ℕ
  first : Bool
  shown : Bool
deriving DecidableEq

/-- Where a call of `_QueueDecodeBuffer` stands. -/
inductive Stage
  /-- The buffer has taken the value of `EventPending`. -/
  | latched
  /-- `EventPending` is cleared. -/
  | cleared
  /-- `QueueBuffer` has `left` entries to hand over; before the first of them it registers events. -/
  | putting (left : ℕ) (first : Bool)
deriving DecidableEq

/-- Who has `BufferLock`. -/
inductive Lock
  | free
  | queuing (index : ℕ) (stage : Stage)
  | releasing
deriving DecidableEq

/-- A buffer inserted in the output ring: the use that ends, the count its buffer has then, and how many of
its entries are not done. -/
structure Insertion where
  use : ℕ
  queueCount : ℕ
  outstanding : ℕ
deriving DecidableEq

/-- An event signalled, and whether the use it waited for had gone on display. -/
structure Signal where
  ordinal : ℕ
  onTime : Bool
deriving DecidableEq

/-- The manifestor, with the entries that the driver has in `plane`.  `returned` are the buffers of the
done callbacks that have not been looked at.  `uses` is the number of uses begun, `accepted` are the ones
accepted, `shown` the ones gone on display, `lastUse` the one that `lastQueuedBuffer` names, and
`registered` is the number of events registered. -/
structure ManifestorState where
  eventList : Circular.Ring EventRecord
  eventPending : Bool
  flushing : Bool
  buffers : ℕ → StreamBuffer
  bufferOnDisplay : ℕ
  lastQueuedBuffer : ℕ
  queuedBufferCount : ℤ
  notQueuedBufferCount : ℕ
  dequeuedStreamBuffers : Circular.Ring ℕ
  initialFrameState : InitialFrameState
  initialFrames : List ℕ
  bufferDisplayed : ℕ
  signalling : Option ℕ
  lock : Lock
  plane : List Entry
  outputRing : List Insertion
  returned : List ℕ
  uses : ℕ
  accepted : List ℕ
  shown : List ℕ
  lastUse : Option ℕ
  registered : ℕ
  signalled : List Signal

/-- The manifestor as `Reset` and `GetDecodeBufferPool` leave it. -/
def initial : ManifestorState where
  eventList := ⟨fun _ => ⟨invalidBufferId, eventIllegalIdentifier, 0, none⟩, 0, 0⟩
  eventPending := false
  flushing := false
  buffers := fun _ => ⟨0, false, .available, 0⟩
  bufferOnDisplay := invalidBufferId
  lastQueuedBuffer := anyBufferId
  queuedBufferCount := 0
  notQueuedBufferCount := 0
  dequeuedStreamBuffers := ⟨fun _ => 0, 0, 0⟩
  initialFrameState := .possible
  initialFrames := []
  bufferDisplayed := 0
  signalling := none
  lock := .free
  plane := []
  outputRing := []
  returned := []
  uses := 0
  accepted := []
  shown := []
  lastUse := none
  registered := 0
  signalled := []

namespace ManifestorState

/-! ### Events -/

/-- The events that wait, the oldest one first. -/
def waiting (s : ManifestorState) : List EventRecord := s.eventList.held maximumWaitingEvents

/-- The use that the event waits for has gone on display; there may be none. -/
def Due (s : ManifestorState) (e : EventRecord) : Prop := ∀ u ∈ e.use, u ∈ s.shown

instance (s : ManifestorState) (e : EventRecord) : Decidable (s.Due e) :=
  inferInstanceAs (Decidable (∀ u ∈ e.use, u ∈ s.shown))

/-- `QueueEventSignal`; the identifier is what `GetBufferId` gives.  When the list is full, the oldest event
goes. -/
def queueEventSignal (s : ManifestorState) (code : ℕ) : ManifestorState :=
  let list := s.eventList
  let list :=
    if (list.last + 1) % maximumWaitingEvents = list.next then list.drop maximumWaitingEvents else list
  { s with
    eventList := list.push maximumWaitingEvents ⟨s.lastQueuedBuffer, code, s.registered, s.lastUse⟩
    eventPending := true
    registered := s.registered + 1 }

/-- The first event is marked as signalled, and the list goes on to the next one. -/
def passFirst (list : Circular.Ring EventRecord) : Circular.Ring EventRecord :=
  (list.overwrite { list.slots list.next with id := invalidBufferId }).drop maximumWaitingEvents

/-- The loop of `ServiceEventQueue`, with the events that it comes to; the number bounds its rounds. -/
def serviceLoop (id : ℕ) :
    ℕ → Bool → Circular.Ring EventRecord → Option (Circular.Ring EventRecord × List EventRecord)
  | 0, _, _ => none
  | rounds + 1, foundId, list =>
    let e := list.slots list.next
    let foundId := foundId || e.id == id
    let list := passFirst list
    let nextId := (list.slots list.next).id
    if list.next = list.last ∨ foundId = true ∧ nextId ≠ anyBufferId ∧ nextId ≠ id then some (list, [e])
    else (serviceLoop id rounds foundId list).map fun (list, events) => (list, e :: events)

/-- `SignalEvent` for the events that the loop comes to; one with the illegal code is not signalled. -/
def signalEvents (s : ManifestorState) (events : List EventRecord) : List Signal :=
  (events.filter fun e => e.code ≠ eventIllegalIdentifier).map fun e => ⟨e.ordinal, decide (s.Due e)⟩

def serviceEventQueue (s : ManifestorState) (id : ℕ) : Option ManifestorState :=
  if s.eventList.last = s.eventList.next then some s
  else
    (serviceLoop id maximumWaitingEvents false s.eventList).map fun (list, events) =>
      { s with eventList := list, signalled := s.signalled ++ s.signalEvents events }

/-- `ReleaseQueuedDecodeBuffers` behind the flush of the display queue. -/
def clearEventList (s : ManifestorState) : ManifestorState :=
  { s with
    eventList :=
      ⟨fun i => if i < maximumWaitingEvents then { s.eventList.slots i with id := invalidBufferId }
        else s.eventList.slots i, 0, 0⟩
    flushing := false }

/-! ### Queuing -/

/-- A field of one buffer changes. -/
def updateBuffer (s : ManifestorState) (b : ℕ) (f : StreamBuffer → StreamBuffer) : ManifestorState :=
  { s with buffers := Function.update s.buffers b (f (s.buffers b)) }

/-- The buffer takes the value of `EventPending`. -/
def latchEventPending (s : ManifestorState) (b : ℕ) : ManifestorState :=
  { s.updateBuffer b fun buffer => { buffer with eventPending := s.eventPending } with
    lock := .queuing b .latched }

/-- `QueueDecodeBuffer` for an available buffer begins a use of it. -/
def queueDecodeBuffer (s : ManifestorState) (b : ℕ) : ManifestorState :=
  { (s.updateBuffer b fun buffer => { buffer with use := s.uses }).latchEventPending b with
    uses := s.uses + 1 }

/-- `RequeueBufferOnDisplayIfNecessary`, for the buffer it selects. -/
def requeueBuffer (s : ManifestorState) (b : ℕ) : ManifestorState :=
  (s.updateBuffer b fun buffer => { buffer with bufferState := .multiQueue }).latchEventPending b

/-- `EventPending` is cleared, and an available buffer is now not queued. -/
def clearEventPending (s : ManifestorState) (b : ℕ) : ManifestorState :=
  { s.updateBuffer b fun buffer =>
      if buffer.bufferState = .available then { buffer with bufferState := .notQueued } else buffer with
    eventPending := false
    lock := .queuing b .cleared }

/-- The display windows cannot be set, and the call fails. -/
def displayWindowsFail (s : ManifestorState) (b : ℕ) : ManifestorState :=
  { s.updateBuffer b fun buffer =>
      if buffer.bufferState = .notQueued then { buffer with bufferState := .available } else buffer with
    lock := .free }

/-- The use of the buffer is accepted, if the call has begun it. -/
def acceptUse (s : ManifestorState) (b : ℕ) : List ℕ :=
  if (s.buffers b).bufferState = .notQueued then s.accepted ++ [(s.buffers b).use] else s.accepted

/-- The buffer is not to be displayed. -/
def leaveNotQueued (s : ManifestorState) (b : ℕ) : ManifestorState :=
  { s with
    notQueuedBufferCount := s.notQueuedBufferCount + 1
    accepted := s.acceptUse b
    lock := .free }

/-- `QueueBuffer` raises the count by the number of entries before it hands over any of them. -/
def raiseQueueCount (s : ManifestorState) (b n : ℕ) : ManifestorState :=
  { s.updateBuffer b fun buffer => { buffer with queueCount := (buffer.queueCount + n) % 2 ^ 32 } with
    lock := .queuing b (.putting n true) }

/-- `QueueBuffer` registers an event of its own. -/
def registerDisplayEvent (s : ManifestorState) (b code : ℕ) : ManifestorState :=
  (s.updateBuffer b fun buffer => { buffer with eventPending := true }).queueEventSignal code

/-- The driver accepts an entry. -/
def planeAccepts (s : ManifestorState) (b left : ℕ) (first : Bool) : ManifestorState :=
  { s with
    plane := s.plane ++ [⟨b, (s.buffers b).use, first, false⟩]
    lock := .queuing b (.putting left false) }

/-- The driver refuses an entry, and `QueueBuffer` fails. -/
def planeRefuses (s : ManifestorState) (b : ℕ) : ManifestorState :=
  { s.leaveNotQueued b with eventPending := false }

/-- `QueueBuffer` has handed over every entry. -/
def bufferQueued (s : ManifestorState) (b : ℕ) : ManifestorState :=
  if (s.buffers b).bufferState = .notQueued then
    { s.updateBuffer b fun buffer => { buffer with bufferState := .queued } with
      queuedBufferCount := s.queuedBufferCount + 1
      lastQueuedBuffer := b
      lastUse := some (s.buffers b).use
      accepted := s.acceptUse b
      lock := .free }
  else { s with lock := .free }

/-- `InitialFrame`, with the driver's answer. -/
def queueInitialFrame (s : ManifestorState) (b : ℕ) (accepts : Bool) : ManifestorState :=
  { s.updateBuffer b fun buffer => { buffer with eventPending := false, queueCount := 0 } with
    initialFrameState := if accepts then .queued else .notQueued
    initialFrames := if accepts then s.initialFrames ++ [b] else s.initialFrames }

/-! ### Callbacks -/

/-- `DisplayCallback` for the entry at this place. -/
def displayCallback (s : ManifestorState) (place : ℕ) (e : Entry) : ManifestorState :=
  { s with
    plane := s.plane.set place { e with shown := true }
    bufferOnDisplay := e.index
    bufferDisplayed :=
      if (s.buffers e.index).eventPending then s.bufferDisplayed + 1 else s.bufferDisplayed
    shown := e.use :: s.shown }

def initialFrameDisplayCallback (s : ManifestorState) (b : ℕ) : ManifestorState :=
  { s with
    initialFrames := s.initialFrames.erase b
    bufferOnDisplay := b
    initialFrameState := .onDisplay }

/-- `DoneCallback` for the entry at this place; it is ignored unless the buffer is queued. -/
def doneCallback (s : ManifestorState) (place : ℕ) (e : Entry) : ManifestorState :=
  let state := (s.buffers e.index).bufferState
  if state ≠ .queued ∧ state ≠ .multiQueue then { s with plane := s.plane.eraseIdx place }
  else
    { s with
      plane := s.plane.eraseIdx place
      dequeuedStreamBuffers := s.dequeuedStreamBuffers.push maxDequeueBuffers e.index
      returned := s.returned ++ [e.index] }

/-! ### The release thread -/

/-- The buffer is inserted in the output ring. -/
def insertion (s : ManifestorState) (b : ℕ) : Insertion :=
  ⟨(s.buffers b).use, (s.buffers b).queueCount, s.plane.countP fun e => e.use == (s.buffers b).use⟩

/-- The buffers that are not queued. -/
def notQueuedBuffers (s : ManifestorState) : List ℕ :=
  (List.range maxDecodeBuffers).filter fun b => (s.buffers b).bufferState = .notQueued

/-- A round begins with the buffers that are not queued. -/
def releaseNotQueued (s : ManifestorState) : ManifestorState :=
  if s.notQueuedBufferCount = 0 then { s with lock := .releasing }
  else
    { s with
      buffers := fun b =>
        if b ∈ s.notQueuedBuffers then { s.buffers b with bufferState := .available } else s.buffers b
      outputRing := s.outputRing ++ s.notQueuedBuffers.map s.insertion
      initialFrameState :=
        if s.notQueuedBuffers = [] then s.initialFrameState else .notPossible
      notQueuedBufferCount := 0
      lock := .releasing }

/-- A done callback is taken from the ring, and off the count of its buffer. -/
def takeDone (s : ManifestorState) (b : ℕ) : ManifestorState :=
  { s.updateBuffer b fun buffer =>
      { buffer with queueCount := (buffer.queueCount + (2 ^ 32 - 1)) % 2 ^ 32 } with
    dequeuedStreamBuffers := s.dequeuedStreamBuffers.drop maxDequeueBuffers
    returned := s.returned.tail
    lock := .free }

/-- The buffer comes back. -/
def comeBack (s : ManifestorState) (b : ℕ) : ManifestorState :=
  { s.updateBuffer b fun buffer => { buffer with bufferState := .available } with
    queuedBufferCount := s.queuedBufferCount - 1
    outputRing := s.outputRing ++ [s.insertion b]
    initialFrameState := .notPossible }

/-- The round takes a buffer from `DequeuedStreamBuffers`, which comes back when its count is zero. -/
def releaseDequeued (s : ManifestorState) : ManifestorState :=
  let ring := s.dequeuedStreamBuffers
  if ring.next = ring.last then { s with lock := .free }
  else
    let b := ring.slots ring.next
    let s := s.takeDone b
    if (s.buffers b).queueCount = 0 then s.comeBack b else s

end ManifestorState

/-! ### Steps -/

/-- What can happen next. -/
inductive Label
  /-- `QueueEventSignal`, called by anybody. -/
  | queueEventSignal (code : ℕ)
  /-- `QueueDecodeBuffer` takes the lock. -/
  | queueDecodeBuffer (b : ℕ)
  /-- `SetOutputWindow`, or the release thread while the window changes, queues a buffer again. -/
  | requeueBuffer (b : ℕ)
  | clearEventPending
  | displayWindowsFail
  /-- Both display counts are zero. -/
  | leaveNotQueued
  /-- `QueueBuffer` has built its entries. -/
  | raiseQueueCount (n : ℕ)
  | registerDisplayEvent (code : ℕ)
  | planeAccepts
  | planeRefuses
  | bufferQueued
  | initialFrame (b : ℕ) (accepts : Bool)
  | displayCallback (place : ℕ)
  | initialFrameDisplayCallback (b : ℕ)
  | doneCallback (place : ℕ)
  | releaseNotQueued
  | releaseDequeued
  /-- `DisplaySignalThread` has come through its semaphore. -/
  | displaySignal
  | serviceEventQueue
  /-- `ReleaseQueuedDecodeBuffers` flushes the display queue. -/
  | flushDisplayQueue
  | clearEventList
deriving DecidableEq

/-- One step; `none` when it is not possible. -/
def step (s : ManifestorState) : Label → Option ManifestorState
  | .queueEventSignal code => some (s.queueEventSignal code)
  | .queueDecodeBuffer b =>
    if s.lock = .free ∧ b < maxDecodeBuffers ∧ (s.buffers b).bufferState = .available then
      some (s.queueDecodeBuffer b)
    else none
  | .requeueBuffer b =>
    if s.lock = .free ∧ b < maxDecodeBuffers ∧
        ((s.buffers b).bufferState = .queued ∨ (s.buffers b).bufferState = .multiQueue) then
      some (s.requeueBuffer b)
    else none
  | .clearEventPending =>
    match s.lock with
    | .queuing b .latched => some (s.clearEventPending b)
    | _ => none
  | .displayWindowsFail =>
    match s.lock with
    | .queuing b .cleared => some (s.displayWindowsFail b)
    | _ => none
  | .leaveNotQueued =>
    match s.lock with
    | .queuing b .cleared => some (s.leaveNotQueued b)
    | _ => none
  | .raiseQueueCount n =>
    match s.lock with
    | .queuing b .cleared => if 0 < n then some (s.raiseQueueCount b n) else none
    | _ => none
  | .registerDisplayEvent code =>
    match s.lock with
    | .queuing b (.putting _ true) => some (s.registerDisplayEvent b code)
    | _ => none
  | .planeAccepts =>
    match s.lock with
    | .queuing b (.putting (left + 1) first) => some (s.planeAccepts b left first)
    | _ => none
  | .planeRefuses =>
    match s.lock with
    | .queuing b (.putting (_ + 1) _) => some (s.planeRefuses b)
    | _ => none
  | .bufferQueued =>
    match s.lock with
    | .queuing b (.putting 0 _) => some (s.bufferQueued b)
    | _ => none
  | .initialFrame b accepts =>
    if s.initialFrameState = .possible ∧ s.lock = .free ∧ b < maxDecodeBuffers ∧
        (s.buffers b).bufferState = .available then
      some (s.queueInitialFrame b accepts)
    else none
  | .displayCallback place =>
    match s.plane[place]? with
    | some e => if e.first = true ∧ e.shown = false then some (s.displayCallback place e) else none
    | none => none
  | .initialFrameDisplayCallback b =>
    if b ∈ s.initialFrames then some (s.initialFrameDisplayCallback b) else none
  | .doneCallback place => s.plane[place]?.map (s.doneCallback place)
  | .releaseNotQueued => if s.lock = .free then some s.releaseNotQueued else none
  | .releaseDequeued => if s.lock = .releasing then some s.releaseDequeued else none
  | .displaySignal =>
    if s.signalling = none ∧ 0 < s.bufferDisplayed then
      some { s with signalling := some s.bufferOnDisplay, bufferDisplayed := s.bufferDisplayed - 1 }
    else none
  | .serviceEventQueue =>
    match s.signalling with
    | some id => { s with signalling := none }.serviceEventQueue id
    | none => none
  | .flushDisplayQueue =>
    if s.flushing then none
    else
      some { s with
        flushing := true
        initialFrameState :=
          if s.bufferOnDisplay = invalidBufferId then .notQueued else s.initialFrameState }
  | .clearEventList => if s.flushing then some s.clearEventList else none

abbrev run := Lts.run step

/-! ### What a step can do -/

/-- What each label does, and when. -/
inductive Steps (s : ManifestorState) : Label → ManifestorState → Prop
  | queueEventSignal (code : ℕ) : Steps s (.queueEventSignal code) (s.queueEventSignal code)
  | queueDecodeBuffer (b : ℕ) (hlock : s.lock = .free) (hb : b < maxDecodeBuffers)
      (hstate : (s.buffers b).bufferState = .available) :
      Steps s (.queueDecodeBuffer b) (s.queueDecodeBuffer b)
  | requeueBuffer (b : ℕ) (hlock : s.lock = .free) (hb : b < maxDecodeBuffers)
      (hstate : (s.buffers b).bufferState = .queued ∨ (s.buffers b).bufferState = .multiQueue) :
      Steps s (.requeueBuffer b) (s.requeueBuffer b)
  | clearEventPending (b : ℕ) (hlock : s.lock = .queuing b .latched) :
      Steps s .clearEventPending (s.clearEventPending b)
  | displayWindowsFail (b : ℕ) (hlock : s.lock = .queuing b .cleared) :
      Steps s .displayWindowsFail (s.displayWindowsFail b)
  | leaveNotQueued (b : ℕ) (hlock : s.lock = .queuing b .cleared) :
      Steps s .leaveNotQueued (s.leaveNotQueued b)
  | raiseQueueCount (b n : ℕ) (hlock : s.lock = .queuing b .cleared) (hn : 0 < n) :
      Steps s (.raiseQueueCount n) (s.raiseQueueCount b n)
  | registerDisplayEvent (b left code : ℕ) (hlock : s.lock = .queuing b (.putting left true)) :
      Steps s (.registerDisplayEvent code) (s.registerDisplayEvent b code)
  | planeAccepts (b left : ℕ) (first : Bool) (hlock : s.lock = .queuing b (.putting (left + 1) first)) :
      Steps s .planeAccepts (s.planeAccepts b left first)
  | planeRefuses (b left : ℕ) (first : Bool) (hlock : s.lock = .queuing b (.putting (left + 1) first)) :
      Steps s .planeRefuses (s.planeRefuses b)
  | bufferQueued (b : ℕ) (first : Bool) (hlock : s.lock = .queuing b (.putting 0 first)) :
      Steps s .bufferQueued (s.bufferQueued b)
  | initialFrame (b : ℕ) (accepts : Bool) (hinitial : s.initialFrameState = .possible)
      (hlock : s.lock = .free) (hb : b < maxDecodeBuffers)
      (hstate : (s.buffers b).bufferState = .available) :
      Steps s (.initialFrame b accepts) (s.queueInitialFrame b accepts)
  | displayCallback (place : ℕ) (e : Entry) (he : s.plane[place]? = some e) (hfirst : e.first = true)
      (hshown : e.shown = false) : Steps s (.displayCallback place) (s.displayCallback place e)
  | initialFrameDisplayCallback (b : ℕ) (hb : b ∈ s.initialFrames) :
      Steps s (.initialFrameDisplayCallback b) (s.initialFrameDisplayCallback b)
  | doneCallback (place : ℕ) (e : Entry) (he : s.plane[place]? = some e) :
      Steps s (.doneCallback place) (s.doneCallback place e)
  | releaseNotQueued (hlock : s.lock = .free) : Steps s .releaseNotQueued s.releaseNotQueued
  | releaseDequeued (hlock : s.lock = .releasing) : Steps s .releaseDequeued s.releaseDequeued
  | displaySignal (hnone : s.signalling = none) (hdisplayed : 0 < s.bufferDisplayed) :
      Steps s .displaySignal
        { s with signalling := some s.bufferOnDisplay, bufferDisplayed := s.bufferDisplayed - 1 }
  | serviceEventQueue (id : ℕ) (s' : ManifestorState) (hid : s.signalling = some id)
      (hs' : { s with signalling := none }.serviceEventQueue id = some s') :
      Steps s .serviceEventQueue s'
  | flushDisplayQueue (hflushing : s.flushing = false) :
      Steps s .flushDisplayQueue { s with
        flushing := true
        initialFrameState :=
          if s.bufferOnDisplay = invalidBufferId then .notQueued else s.initialFrameState }
  | clearEventList (hflushing : s.flushing = true) : Steps s .clearEventList s.clearEventList

theorem steps_of_step {s s' : ManifestorState} {label : Label} (h : step s label = some s') :
    Steps s label s' := by
  cases label with
  | queueEventSignal code =>
    obtain rfl := Option.some.inj h
    exact .queueEventSignal code
  | queueDecodeBuffer b =>
    obtain ⟨⟨hlock, hb, hstate⟩, rfl⟩ := Option.ite_some_none_eq_some.mp h
    exact .queueDecodeBuffer b hlock hb hstate
  | requeueBuffer b =>
    obtain ⟨⟨hlock, hb, hstate⟩, rfl⟩ := Option.ite_some_none_eq_some.mp h
    exact .requeueBuffer b hlock hb hstate
  | initialFrame b accepts =>
    obtain ⟨⟨hinitial, hlock, hb, hstate⟩, rfl⟩ := Option.ite_some_none_eq_some.mp h
    exact .initialFrame b accepts hinitial hlock hb hstate
  | initialFrameDisplayCallback b =>
    obtain ⟨hb, rfl⟩ := Option.ite_some_none_eq_some.mp h
    exact .initialFrameDisplayCallback b hb
  | doneCallback place =>
    obtain ⟨e, he, rfl⟩ := Option.map_eq_some_iff.mp h
    exact .doneCallback place e he
  | releaseNotQueued =>
    obtain ⟨hlock, rfl⟩ := Option.ite_some_none_eq_some.mp h
    exact .releaseNotQueued hlock
  | releaseDequeued =>
    obtain ⟨hlock, rfl⟩ := Option.ite_some_none_eq_some.mp h
    exact .releaseDequeued hlock
  | displaySignal =>
    obtain ⟨⟨hnone, hdisplayed⟩, rfl⟩ := Option.ite_some_none_eq_some.mp h
    exact .displaySignal hnone hdisplayed
  | clearEventList =>
    obtain ⟨hflushing, rfl⟩ := Option.ite_some_none_eq_some.mp h
    exact .clearEventList hflushing
  | flushDisplayQueue =>
    obtain ⟨hflushing, hs'⟩ := Option.ite_none_left_eq_some.mp h
    obtain rfl := Option.some.inj hs'
    exact .flushDisplayQueue (Bool.eq_false_iff.mpr hflushing)
  | displayCallback place =>
    dsimp only [step] at h
    split at h
    next e he =>
      obtain ⟨⟨hfirst, hshown⟩, rfl⟩ := Option.ite_some_none_eq_some.mp h
      exact .displayCallback place e he hfirst hshown
    next => cases h
  | serviceEventQueue =>
    dsimp only [step] at h
    split at h
    next id hid => exact .serviceEventQueue id s' hid h
    next => cases h
  | raiseQueueCount n =>
    dsimp only [step] at h
    split at h
    next b hlock =>
      obtain ⟨hn, rfl⟩ := Option.ite_some_none_eq_some.mp h
      exact .raiseQueueCount b n hlock hn
    next => cases h
  | clearEventPending =>
    dsimp only [step] at h
    split at h
    next b hlock =>
      obtain rfl := Option.some.inj h
      exact .clearEventPending b hlock
    next => cases h
  | displayWindowsFail =>
    dsimp only [step] at h
    split at h
    next b hlock =>
      obtain rfl := Option.some.inj h
      exact .displayWindowsFail b hlock
    next => cases h
  | leaveNotQueued =>
    dsimp only [step] at h
    split at h
    next b hlock =>
      obtain rfl := Option.some.inj h
      exact .leaveNotQueued b hlock
    next => cases h
  | registerDisplayEvent code =>
    dsimp only [step] at h
    split at h
    next b left hlock =>
      obtain rfl := Option.some.inj h
      exact .registerDisplayEvent b left code hlock
    next => cases h
  | planeAccepts =>
    dsimp only [step] at h
    split at h
    next b left first hlock =>
      obtain rfl := Option.some.inj h
      exact .planeAccepts b left first hlock
    next => cases h
  | planeRefuses =>
    dsimp only [step] at h
    split at h
    next b left first hlock =>
      obtain rfl := Option.some.inj h
      exact .planeRefuses b left first hlock
    next => cases h
  | bufferQueued =>
    dsimp only [step] at h
    split at h
    next b first hlock =>
      obtain rfl := Option.some.inj h
      exact .bufferQueued b first hlock
    next => cases h

end Player2.Manifestor

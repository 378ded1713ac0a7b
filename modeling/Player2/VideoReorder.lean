import Mathlib.Algebra.Order.Ring.Nat
import Mathlib.Data.List.Perm.Basic
import Mathlib.Data.List.Induction

/-! # The display order in forward play

The decoding order of a video stream is not its display order: a reference frame is decoded before
the frames that are predicted from it and displayed after them.  `FrameParser_Video_c` gives a frame
that is no reference its display frame index at once.  A reference frame waits, its buffer held by
a reference, in `DeferredCodedFrameBuffer` (and `DeferredCodedFrameBufferSecondField`) until the next
reference frame or until the queue is purged.

`HeldBack` says what this is for.  `run_reordered` says that the frame parser does it, for any
sequence of frames and fields, discontinuities and errors: it gives the frames consecutive indices
in the order of `HeldBack`, and gives back the references it takes. -/

namespace Player2.Video

/-! ### Holding one back -/

/-- What happens to a sequence of frames. -/
inductive Action (α : Type*)
  | pass (a : α)
  | hold (a : α)
  | purge
deriving DecidableEq

/-- The frames displayed so far, and the one held back. -/
structure HeldBack (α : Type*) where
  displayed : List α
  held : Option α
deriving DecidableEq

namespace HeldBack
variable {α : Type*}

/-- A frame passes the one held back; the next one to be held replaces it. -/
def act (h : HeldBack α) : Action α → HeldBack α
  | .pass a => { h with displayed := h.displayed ++ [a] }
  | .hold a => ⟨h.displayed ++ h.held.toList, some a⟩
  | .purge => ⟨h.displayed ++ h.held.toList, none⟩

/-- A sequence of actions, from the start. -/
def run (actions : List (Action α)) : HeldBack α := actions.foldl act ⟨[], none⟩

/-- The frame an action brings. -/
def frame : Action α → Option α
  | .pass a => some a
  | .hold a => some a
  | .purge => none

theorem run_append (actions more : List (Action α)) :
    run (actions ++ more) = more.foldl act (run actions) := List.foldl_append

theorem run_perm (actions : List (Action α)) :
    (actions.filterMap frame).Perm ((run actions).displayed ++ (run actions).held.toList) := by
  induction actions using List.reverseRecOn with
  | nil => exact List.Perm.nil
  | append_singleton actions action ih =>
    rw [run_append, List.filterMap_append]
    cases action with
    | pass a =>
      refine (ih.append_right [a]).trans ?_
      change ((run actions).displayed ++ (run actions).held.toList ++ [a]).Perm
        ((run actions).displayed ++ [a] ++ (run actions).held.toList)
      rw [List.append_assoc, List.append_assoc]
      exact (List.perm_append_left_iff _).mpr List.perm_append_comm
    | hold a => exact ih.append_right [a]
    | purge => exact ih.append_right []

theorem act_purge_of_empty {h : HeldBack α} (hheld : h.held = none) : h.act .purge = h := by
  obtain ⟨displayed, held⟩ := h
  obtain rfl : held = none := hheld
  exact congrArg (HeldBack.mk · none) (List.append_nil displayed)

theorem act_purge_hold (h : HeldBack α) (a : α) : (h.act .purge).act (.hold a) = h.act (.hold a) :=
  congrArg (HeldBack.mk · (some a)) (List.append_nil _)

end HeldBack

/-! ### The source -/

/-- `PictureStructure_t`. -/
inductive PictureStructure
  | empty
  | topField
  | bottomField
  | frame
deriving DecidableEq, Repr

/-- The value of a constant: a frame is both fields. -/
def PictureStructure.code : PictureStructure → ℕ
  | empty => 0
  | topField => 1
  | bottomField => 2
  | frame => 3

/-- A buffer with the parameters parsed from it, as far as they are read here.  Every frame parser
gives `FirstParsedParametersForOutputFrame` the value of `FirstDecodeOfFrame`. -/
structure Picture (β : Type*) where
  buffer : β
  firstDecodeOfFrame : Bool
  referenceFrame : Bool
  pictureStructure : PictureStructure
deriving DecidableEq

/-- A picture for `ForPlayProcessFrame`, with what the other steps of the chain come to. -/
structure Arrival (β : Type*) where
  picture : Picture β
  prepared : Bool
  queued : Bool
  updated : Bool
  followedByStreamTerminate : Bool
deriving DecidableEq

/-- What is done to the outside. -/
inductive ReorderEvent (β : Type*)
  | displayFrameIndex (picture : Picture β) (index : ℕ)
  | incrementReferenceCount (buffer : β)
  | decrementReferenceCount (buffer : β)
deriving DecidableEq

/-- The fields of the frame parser, and what has been done so far. -/
structure Reorder (β : Type*) where
  deferredCodedFrameBuffer : Option (Picture β)
  deferredCodedFrameBufferSecondField : Option (Picture β)
  nextDisplayFrameIndex : ℕ
  events : List (ReorderEvent β)

variable {β : Type*}

namespace Reorder

/-- `CalculateFrameIndexAndPts`, without the times. -/
def calculateFrameIndexAndPts (s : Reorder β) (p : Picture β) : Reorder β :=
  if !p.firstDecodeOfFrame then s
  else
    { s with
      nextDisplayFrameIndex := (s.nextDisplayFrameIndex + 1) % 2 ^ 32
      events := s.events ++ [.displayFrameIndex p s.nextDisplayFrameIndex] }

def incrementReferenceCount (s : Reorder β) (buffer : β) : Reorder β :=
  { s with events := s.events ++ [.incrementReferenceCount buffer] }

def decrementReferenceCount (s : Reorder β) (buffer : β) : Reorder β :=
  { s with events := s.events ++ [.decrementReferenceCount buffer] }

def forPlayPurgeQueuedPostDecodeParameterSettings (s : Reorder β) : Reorder β :=
  match s.deferredCodedFrameBuffer with
  | none => s
  | some d =>
    let t := (s.calculateFrameIndexAndPts d).decrementReferenceCount d.buffer
    let t := match s.deferredCodedFrameBufferSecondField with
      | none => t
      | some e => (t.calculateFrameIndexAndPts e).decrementReferenceCount e.buffer
    { t with deferredCodedFrameBuffer := none, deferredCodedFrameBufferSecondField := none }

/-- `ForPlayProcessQueuedPostDecodeParameterSettings`, whose body is that of the purge. -/
def forPlayProcessQueuedPostDecodeParameterSettings (s : Reorder β) (p : Picture β) : Reorder β :=
  if p.firstDecodeOfFrame && s.deferredCodedFrameBuffer.isSome && p.referenceFrame then
    s.forPlayPurgeQueuedPostDecodeParameterSettings
  else s

/-- The picture is not the other field of the one deferred. -/
def inconsistent (s : Reorder β) (p : Picture β) : Bool :=
  s.deferredCodedFrameBuffer.any fun d =>
    d.pictureStructure.code ^^^ p.pictureStructure.code != PictureStructure.frame.code

/-- The checks of a picture against what is deferred, which purge the queue. -/
def checkDeferred (s : Reorder β) (p : Picture β) : Reorder β :=
  let s := if s.inconsistent p then s.forPlayPurgeQueuedPostDecodeParameterSettings else s
  if s.deferredCodedFrameBufferSecondField.isSome then
    s.forPlayPurgeQueuedPostDecodeParameterSettings
  else s

def forPlayGeneratePostDecodeParameterSettings (s : Reorder β) (p : Picture β) : Reorder β :=
  if !p.referenceFrame then s.calculateFrameIndexAndPts p
  else
    let s := (s.incrementReferenceCount p.buffer).checkDeferred p
    if s.deferredCodedFrameBuffer.isSome then
      { s with deferredCodedFrameBufferSecondField := some p }
    else { s with deferredCodedFrameBuffer := some p }

def forPlayProcessFrame (s : Reorder β) (a : Arrival β) : Reorder β :=
  if !a.prepared then s
  else
    let s := s.forPlayProcessQueuedPostDecodeParameterSettings a.picture
    let s := s.forPlayGeneratePostDecodeParameterSettings a.picture
    if !a.queued then s
    else if !a.updated then s
    else if a.followedByStreamTerminate then s.forPlayPurgeQueuedPostDecodeParameterSettings
    else s

end Reorder

/-! ### Runs of calls -/

/-- A call. -/
inductive ReorderCall (β : Type*)
  | processBuffer (streamDiscontinuity : Bool) (a : Option (Arrival β))
  | halt
deriving DecidableEq

/-- The frame parser, with the frames that `ForPlayProcessFrame` has been given, those of them that
have their reference frames, what becomes of these, and the buffers of the pictures that wait. -/
structure ReorderRun (β : Type*) where
  parser : Reorder β
  frames : List (Picture β)
  prepared : List (Picture β)
  actions : List (Action (Picture β))
  deferrals : List β

/-- A picture does not go with what is deferred. -/
def Reorder.unmatched (s : Reorder β) (p : Picture β) : Bool :=
  s.inconsistent p || s.deferredCodedFrameBufferSecondField.isSome

namespace Arrival

/-- The frame that begins with a picture. -/
def frame (a : Arrival β) : List (Picture β) :=
  if a.picture.firstDecodeOfFrame then [a.picture] else []

/-- The queue is purged after the picture. -/
def terminates (a : Arrival β) : Bool := a.queued && a.updated && a.followedByStreamTerminate

/-- What becomes of a picture that has its reference frames: only the first one of a frame counts,
but a later one that does not go with what is deferred purges the queue. -/
def shown (s : Reorder β) (a : Arrival β) : List (Action (Picture β)) :=
  if a.picture.firstDecodeOfFrame then
    if a.picture.referenceFrame then [.hold a.picture] else [.pass a.picture]
  else if a.picture.referenceFrame && s.unmatched a.picture then [.purge]
  else []

/-- What becomes of a picture. -/
def actions (s : Reorder β) (a : Arrival β) : List (Action (Picture β)) :=
  if !a.prepared then [] else a.shown s ++ if a.terminates then [.purge] else []

end Arrival

namespace ReorderRun

/-- A frame parser after `Reset`. -/
def start : ReorderRun β := ⟨⟨none, none, 0, []⟩, [], [], [], []⟩

/-- Purge the queue. -/
def purge (r : ReorderRun β) : ReorderRun β :=
  { r with
    parser := r.parser.forPlayPurgeQueuedPostDecodeParameterSettings
    actions := r.actions ++ [.purge] }

/-- Process a picture. -/
def process (r : ReorderRun β) (a : Arrival β) : ReorderRun β where
  parser := r.parser.forPlayProcessFrame a
  frames := r.frames ++ a.frame
  prepared := r.prepared ++ if a.prepared then a.frame else []
  actions := r.actions ++ a.actions r.parser
  deferrals := r.deferrals ++
    if a.prepared && a.picture.referenceFrame then [a.picture.buffer] else []

/-- Perform a call: `ProcessBuffer` purges the queue at a discontinuity and then processes the
picture in the buffer, if it has one, and `Halt` purges the queue. -/
def step (r : ReorderRun β) : ReorderCall β → ReorderRun β
  | .processBuffer streamDiscontinuity a =>
    let r := if streamDiscontinuity then r.purge else r
    a.elim r r.process
  | .halt => r.purge

/-- Perform a sequence of calls. -/
def run (calls : List (ReorderCall β)) : ReorderRun β := calls.foldl step start

end ReorderRun

/-! ### The books -/

namespace ReorderEvent

/-- The index that a frame is given. -/
def assigned : ReorderEvent β → Option (Picture β × ℕ)
  | displayFrameIndex picture index => some (picture, index)
  | _ => none

/-- The buffer that a reference is taken on. -/
def incremented : ReorderEvent β → Option β
  | incrementReferenceCount buffer => some buffer
  | _ => none

/-- The buffer that a reference is given back on. -/
def decremented : ReorderEvent β → Option β
  | decrementReferenceCount buffer => some buffer
  | _ => none

end ReorderEvent

namespace Reorder

/-- The indices given so far. -/
def assigned (s : Reorder β) : List (Picture β × ℕ) := s.events.filterMap ReorderEvent.assigned

/-- The references taken so far. -/
def incremented (s : Reorder β) : List β := s.events.filterMap ReorderEvent.incremented

/-- The references given back so far. -/
def decremented (s : Reorder β) : List β := s.events.filterMap ReorderEvent.decremented

/-- The pictures that wait. -/
def deferred (s : Reorder β) : List (Picture β) :=
  s.deferredCodedFrameBuffer.toList ++ s.deferredCodedFrameBufferSecondField.toList

/-- The indices that `displayed` is given, one after the other. -/
def numbering (displayed : List (Picture β)) : List (Picture β × ℕ) :=
  displayed.zipIdx.map fun x => (x.1, x.2 % 2 ^ 32)

/-- The frames `displayed` have been numbered. -/
structure Numbered (s : Reorder β) (displayed : List (Picture β)) : Prop where
  assigned : s.assigned = numbering displayed
  next : s.nextDisplayFrameIndex = displayed.length % 2 ^ 32

/-- The frame parser does what `h` says; there is a reference on each buffer that waits, and on those
in `owed`. -/
structure Follows (s : Reorder β) (h : HeldBack (Picture β)) (owed : List β) : Prop where
  numbered : s.Numbered h.displayed
  counted : s.incremented.Perm (s.decremented ++ (s.deferred.map Picture.buffer ++ owed))
  held : h.held = s.deferredCodedFrameBuffer.filter Picture.firstDecodeOfFrame
  second : ∀ e, s.deferredCodedFrameBufferSecondField = some e →
    e.firstDecodeOfFrame = false ∧ s.deferredCodedFrameBuffer.isSome

variable {s : Reorder β} {h : HeldBack (Picture β)} {owed : List β} {displayed : List (Picture β)}

theorem numbering_append (displayed : List (Picture β)) (p : Picture β) :
    numbering (displayed ++ [p]) = numbering displayed ++ [(p, displayed.length % 2 ^ 32)] := by
  rw [numbering, List.zipIdx_append, List.map_append, Nat.zero_add]
  rfl

variable {p : Picture β}

theorem calculate_later (hp : p.firstDecodeOfFrame = false) :
    s.calculateFrameIndexAndPts p = s := by
  rw [calculateFrameIndexAndPts, hp]
  rfl

theorem calculate_first (hp : p.firstDecodeOfFrame = true) :
    s.calculateFrameIndexAndPts p =
      { s with
        nextDisplayFrameIndex := (s.nextDisplayFrameIndex + 1) % 2 ^ 32
        events := s.events ++ [.displayFrameIndex p s.nextDisplayFrameIndex] } := by
  rw [calculateFrameIndexAndPts, hp]
  rfl

@[simp] theorem calculate_deferred (p : Picture β) :
    (s.calculateFrameIndexAndPts p).deferredCodedFrameBuffer = s.deferredCodedFrameBuffer ∧
      (s.calculateFrameIndexAndPts p).deferredCodedFrameBufferSecondField =
        s.deferredCodedFrameBufferSecondField := by
  unfold calculateFrameIndexAndPts
  split <;> exact ⟨rfl, rfl⟩

@[simp] theorem calculate_incremented (p : Picture β) :
    (s.calculateFrameIndexAndPts p).incremented = s.incremented := by
  unfold calculateFrameIndexAndPts
  split
  next => rfl
  next => exact List.filterMap_append.trans (List.append_nil _)

@[simp] theorem calculate_decremented (p : Picture β) :
    (s.calculateFrameIndexAndPts p).decremented = s.decremented := by
  unfold calculateFrameIndexAndPts
  split
  next => rfl
  next => exact List.filterMap_append.trans (List.append_nil _)

@[simp] theorem increment_incremented (buffer : β) :
    (s.incrementReferenceCount buffer).incremented = s.incremented ++ [buffer] :=
  List.filterMap_append

@[simp] theorem increment_decremented (buffer : β) :
    (s.incrementReferenceCount buffer).decremented = s.decremented :=
  List.filterMap_append.trans (List.append_nil _)

@[simp] theorem decrement_incremented (buffer : β) :
    (s.decrementReferenceCount buffer).incremented = s.incremented :=
  List.filterMap_append.trans (List.append_nil _)

@[simp] theorem decrement_decremented (buffer : β) :
    (s.decrementReferenceCount buffer).decremented = s.decremented ++ [buffer] :=
  List.filterMap_append

theorem Numbered.calculate (hs : s.Numbered displayed) (p : Picture β) :
    (s.calculateFrameIndexAndPts p).Numbered
      (displayed ++ ((some p).filter Picture.firstDecodeOfFrame).toList) := by
  cases hp : p.firstDecodeOfFrame with
  | false =>
    rw [calculate_later hp, Option.filter_some, hp]
    exact (List.append_nil displayed).symm ▸ hs
  | true =>
    rw [calculate_first hp, Option.filter_some, hp]
    refine ⟨?_, ?_⟩
    · change (s.events ++ [_]).filterMap _ = numbering (displayed ++ [p])
      rw [List.filterMap_append, numbering_append, ← hs.assigned, ← hs.next]
      rfl
    · change (s.nextDisplayFrameIndex + 1) % 2 ^ 32 = (displayed ++ [p]).length % 2 ^ 32
      rw [hs.next, List.length_append, List.length_singleton, Nat.mod_add_mod]

theorem Numbered.increment (hs : s.Numbered displayed) (buffer : β) :
    (s.incrementReferenceCount buffer).Numbered displayed :=
  ⟨(List.filterMap_append.trans (List.append_nil _)).trans hs.assigned, hs.next⟩

theorem Numbered.decrement (hs : s.Numbered displayed) (buffer : β) :
    (s.decrementReferenceCount buffer).Numbered displayed :=
  ⟨(List.filterMap_append.trans (List.append_nil _)).trans hs.assigned, hs.next⟩

/-! ### The steps -/

theorem purge_deferred (hs : s.Follows h owed) :
    s.forPlayPurgeQueuedPostDecodeParameterSettings.deferredCodedFrameBuffer = none ∧
      s.forPlayPurgeQueuedPostDecodeParameterSettings.deferredCodedFrameBufferSecondField = none := by
  unfold forPlayPurgeQueuedPostDecodeParameterSettings
  split
  next hnone =>
    refine ⟨hnone, Option.eq_none_iff_forall_ne_some.mpr fun e he => ?_⟩
    have hsome := (hs.second e he).2
    rw [hnone] at hsome
    cases hsome
  next d hd => exact ⟨rfl, rfl⟩

theorem purge_incremented (s : Reorder β) :
    s.forPlayPurgeQueuedPostDecodeParameterSettings.incremented = s.incremented := by
  unfold forPlayPurgeQueuedPostDecodeParameterSettings
  split
  next => rfl
  next d hd =>
    split
    next =>
      change ((s.calculateFrameIndexAndPts d).decrementReferenceCount d.buffer).incremented = _
      rw [decrement_incremented, calculate_incremented]
    next e he =>
      change ((((s.calculateFrameIndexAndPts d).decrementReferenceCount
        d.buffer).calculateFrameIndexAndPts e).decrementReferenceCount e.buffer).incremented = _
      rw [decrement_incremented, calculate_incremented, decrement_incremented,
        calculate_incremented]

theorem Follows.purge (hs : s.Follows h owed) :
    s.forPlayPurgeQueuedPostDecodeParameterSettings.Follows (h.act .purge) owed := by
  have hempty := purge_deferred hs
  have hnumbered : s.forPlayPurgeQueuedPostDecodeParameterSettings.Numbered
        (h.displayed ++ h.held.toList) ∧
      s.forPlayPurgeQueuedPostDecodeParameterSettings.decremented =
        s.decremented ++ s.deferred.map Picture.buffer := by
    rw [hs.held]
    have hsecond := hs.second
    have hdeferred : s.deferred = s.deferredCodedFrameBuffer.toList ++
      s.deferredCodedFrameBufferSecondField.toList := rfl
    unfold forPlayPurgeQueuedPostDecodeParameterSettings
    cases hd : s.deferredCodedFrameBuffer with
    | none =>
      have hnone : s.deferredCodedFrameBufferSecondField = none :=
        Option.eq_none_iff_forall_ne_some.mpr fun e he => by
          have hsome := (hsecond e he).2
          rw [hd] at hsome
          cases hsome
      rw [hd, hnone] at hdeferred
      rw [hdeferred]
      exact ⟨(List.append_nil h.displayed).symm ▸ hs.numbered, (List.append_nil _).symm⟩
    | some d =>
      have hfirst := (hs.numbered.calculate d).decrement d.buffer
      cases he : s.deferredCodedFrameBufferSecondField with
      | none =>
        rw [hd, he] at hdeferred
        rw [hdeferred]
        refine ⟨⟨hfirst.assigned, hfirst.next⟩, ?_⟩
        exact (decrement_decremented _).trans (congrArg (· ++ [d.buffer]) (calculate_decremented _))
      | some e =>
        rw [hd, he] at hdeferred
        rw [hdeferred]
        dsimp only
        rw [calculate_later (hsecond e he).1]
        have hboth := hfirst.decrement e.buffer
        refine ⟨⟨hboth.assigned, hboth.next⟩, (decrement_decremented _).trans ?_⟩
        rw [decrement_decremented, calculate_decremented, List.append_assoc]
        rfl
  obtain ⟨hnumbered, hdecremented⟩ := hnumbered
  refine ⟨hnumbered, ?_, ?_, ?_⟩
  · rw [deferred, hempty.1, hempty.2, purge_incremented, hdecremented, List.append_assoc]
    exact hs.counted
  · rw [hempty.1]
    rfl
  · intro e he
    rw [hempty.2] at he
    cases he

theorem Follows.increment (hs : s.Follows h []) (buffer : β) :
    (s.incrementReferenceCount buffer).Follows h [buffer] := by
  refine ⟨hs.numbered.increment buffer, ?_, hs.held, hs.second⟩
  have hcounted := hs.counted.append_right [buffer]
  rw [List.append_nil, List.append_assoc] at hcounted
  rw [increment_incremented, increment_decremented]
  exact hcounted

theorem Follows.calculate (hs : s.Follows h owed) (p : Picture β) :
    (s.calculateFrameIndexAndPts p).Follows
      (if p.firstDecodeOfFrame then h.act (.pass p) else h) owed := by
  cases hp : p.firstDecodeOfFrame with
  | false =>
    rw [calculate_later hp]
    exact hs
  | true =>
    have hnumbered := hs.numbered.calculate p
    rw [Option.filter_some, hp] at hnumbered
    obtain ⟨hbuffer, hsecond⟩ := calculate_deferred (s := s) p
    refine ⟨hnumbered, ?_, ?_, ?_⟩
    · rw [calculate_incremented, calculate_decremented, deferred, hbuffer, hsecond]
      exact hs.counted
    · rw [hbuffer]
      exact hs.held
    · rw [hbuffer, hsecond]
      exact hs.second

theorem Follows.wait (hs : s.Follows h [p.buffer])
    (hnone : s.deferredCodedFrameBuffer = none) :
    ({ s with deferredCodedFrameBuffer := some p } : Reorder β).Follows
      (if p.firstDecodeOfFrame then h.act (.hold p) else h) [] := by
  have hheld : h.held = none := by
    rw [hs.held, hnone]
    rfl
  have hsecond : s.deferredCodedFrameBufferSecondField = none :=
    Option.eq_none_iff_forall_ne_some.mpr fun e he => by
      have hsome := (hs.second e he).2
      rw [hnone] at hsome
      cases hsome
  refine ⟨⟨?_, ?_⟩, ?_, ?_, ?_⟩
  · cases p.firstDecodeOfFrame with
    | false => exact hs.numbered.assigned
    | true =>
      change s.assigned = numbering (h.displayed ++ h.held.toList)
      rw [hheld]
      exact (List.append_nil h.displayed).symm ▸ hs.numbered.assigned
  · cases p.firstDecodeOfFrame with
    | false => exact hs.numbered.next
    | true =>
      change s.nextDisplayFrameIndex = (h.displayed ++ h.held.toList).length % 2 ^ 32
      rw [hheld]
      exact (List.append_nil h.displayed).symm ▸ hs.numbered.next
  · have hcounted := hs.counted
    rw [deferred, hnone, hsecond] at hcounted
    rw [deferred, hsecond]
    exact hcounted
  · rw [Option.filter_some]
    cases p.firstDecodeOfFrame with
    | false => exact hheld
    | true => rfl
  · intro e he
    exact ⟨(hs.second e he).1, rfl⟩

theorem Follows.wait_second (hs : s.Follows h [p.buffer])
    (hsome : s.deferredCodedFrameBuffer.isSome)
    (hnone : s.deferredCodedFrameBufferSecondField = none) (hp : p.firstDecodeOfFrame = false) :
    ({ s with deferredCodedFrameBufferSecondField := some p } : Reorder β).Follows h [] := by
  refine ⟨⟨hs.numbered.assigned, hs.numbered.next⟩, ?_, hs.held, ?_⟩
  · have hcounted := hs.counted
    rw [deferred, hnone, Option.toList_none, List.append_nil] at hcounted
    rw [deferred, List.map_append, List.append_nil]
    exact hcounted
  · intro e he
    obtain rfl := Option.some.inj he
    exact ⟨hp, hsome⟩

/-! ### A picture -/

theorem Follows.processQueued (hs : s.Follows h owed) (p : Picture β) :
    (s.forPlayProcessQueuedPostDecodeParameterSettings p).Follows
      (if p.firstDecodeOfFrame && p.referenceFrame then h.act .purge else h) owed ∧
    ((p.firstDecodeOfFrame && p.referenceFrame) = true →
      (s.forPlayProcessQueuedPostDecodeParameterSettings p).deferredCodedFrameBuffer = none) := by
  unfold forPlayProcessQueuedPostDecodeParameterSettings
  cases hfirst : p.firstDecodeOfFrame && p.referenceFrame with
  | false =>
    have hno : (p.firstDecodeOfFrame && s.deferredCodedFrameBuffer.isSome && p.referenceFrame) =
        false := by
      rw [Bool.and_right_comm, hfirst, Bool.false_and]
    rw [hno]
    exact ⟨hs, fun hyes => absurd hyes Bool.false_ne_true⟩
  | true =>
    rw [Bool.and_right_comm, hfirst, Bool.true_and]
    cases hd : s.deferredCodedFrameBuffer with
    | none =>
      have hheld : h.held = none := by
        rw [hs.held, hd]
        rfl
      rw [if_pos rfl, HeldBack.act_purge_of_empty hheld]
      exact ⟨hs, fun _ => hd⟩
    | some d => exact ⟨hs.purge, fun _ => (purge_deferred hs).1⟩

theorem checkDeferred_eq (hs : s.Follows h owed) (p : Picture β) :
    s.checkDeferred p =
      if s.unmatched p then s.forPlayPurgeQueuedPostDecodeParameterSettings else s := by
  unfold unmatched checkDeferred
  dsimp only
  cases s.inconsistent p with
  | true =>
    rw [if_pos rfl, (purge_deferred hs).2]
    rfl
  | false =>
    rw [if_neg Bool.false_ne_true, Bool.false_or]

theorem Follows.check (hs : s.Follows h owed) (p : Picture β) :
    (s.checkDeferred p).Follows (if s.unmatched p then h.act .purge else h) owed ∧
      (s.checkDeferred p).deferredCodedFrameBuffer =
        (if s.unmatched p then none else s.deferredCodedFrameBuffer) ∧
      (s.checkDeferred p).deferredCodedFrameBufferSecondField = none := by
  rw [checkDeferred_eq hs p]
  cases hunmatched : s.unmatched p with
  | true => exact ⟨hs.purge, purge_deferred hs⟩
  | false =>
    have hsecond : s.deferredCodedFrameBufferSecondField.isSome = false :=
      (Bool.or_eq_false_iff.mp hunmatched).2
    exact ⟨hs, rfl, Option.not_isSome_iff_eq_none.mp (Bool.eq_false_iff.mp hsecond)⟩

theorem unmatched_of_none (hs : s.Follows h owed) (hnone : s.deferredCodedFrameBuffer = none)
    (p : Picture β) : s.unmatched p = false := by
  unfold unmatched inconsistent
  rw [hnone]
  cases hsecond : s.deferredCodedFrameBufferSecondField with
  | none => rfl
  | some e =>
    have hsome := (hs.second e hsecond).2
    rw [hnone] at hsome
    cases hsome

theorem Follows.generate (hs : s.Follows h []) (p : Picture β)
    (hready : (p.firstDecodeOfFrame && p.referenceFrame) = true → s.deferredCodedFrameBuffer = none) :
    (s.forPlayGeneratePostDecodeParameterSettings p).Follows
      (if p.firstDecodeOfFrame then
        if p.referenceFrame then h.act (.hold p) else h.act (.pass p)
      else if p.referenceFrame && s.unmatched p then h.act .purge else h) [] := by
  unfold forPlayGeneratePostDecodeParameterSettings
  cases href : p.referenceFrame with
  | false =>
    exact hs.calculate p
  | true =>
    have hincremented := hs.increment p.buffer
    obtain ⟨hroom, hdeferred, hsecond⟩ := hincremented.check p
    have hsame : (s.incrementReferenceCount p.buffer).unmatched p = s.unmatched p := rfl
    rw [hsame] at hroom hdeferred
    cases hfirst : p.firstDecodeOfFrame with
    | false =>
      dsimp only
      split
      next hno => cases hno
      next =>
        split
        next hsome => exact hroom.wait_second hsome hsecond hfirst
        next hnone =>
          have hwait := hroom.wait (Option.not_isSome_iff_eq_none.mp hnone)
          rw [hfirst] at hwait
          exact hwait
    | true =>
      rw [hfirst, href] at hready
      have hnone := hready rfl
      rw [unmatched_of_none hs hnone] at hroom hdeferred
      have hwait := hroom.wait (hdeferred.trans hnone)
      rw [hfirst] at hwait
      dsimp only
      rw [hdeferred.trans hnone]
      exact hwait

theorem Follows.show (hs : s.Follows h []) (a : Arrival β) :
    ((s.forPlayProcessQueuedPostDecodeParameterSettings a.picture).forPlayGeneratePostDecodeParameterSettings
      a.picture).Follows ((a.shown s).foldl HeldBack.act h) [] := by
  obtain ⟨hqueued, hready⟩ := hs.processQueued a.picture
  have hgenerated := hqueued.generate a.picture hready
  unfold Arrival.shown
  cases hfirst : a.picture.firstDecodeOfFrame with
  | true =>
    rw [hfirst] at hgenerated
    cases href : a.picture.referenceFrame with
    | true =>
      rw [href] at hgenerated
      have hheld := hgenerated
      change Follows _ ((h.act .purge).act (.hold a.picture)) [] at hheld
      rw [HeldBack.act_purge_hold] at hheld
      exact hheld
    | false =>
      rw [href] at hgenerated
      exact hgenerated
  | false =>
    have hsame : s.forPlayProcessQueuedPostDecodeParameterSettings a.picture = s := by
      rw [forPlayProcessQueuedPostDecodeParameterSettings, hfirst]
      rfl
    rw [hfirst, hsame] at hgenerated
    rw [hsame]
    cases hpurge : a.picture.referenceFrame && s.unmatched a.picture with
    | true =>
      rw [hpurge] at hgenerated
      exact hgenerated
    | false =>
      rw [hpurge] at hgenerated
      exact hgenerated

/-- **A picture** does to the frame parser what its actions say. -/
theorem Follows.processFrame (hs : s.Follows h []) (a : Arrival β) :
    (s.forPlayProcessFrame a).Follows ((a.actions s).foldl HeldBack.act h) [] := by
  have hshown := hs.show a
  unfold forPlayProcessFrame Arrival.actions Arrival.terminates
  cases a.prepared with
  | false => exact hs
  | true =>
    rw [Bool.not_true, if_neg Bool.false_ne_true, if_neg Bool.false_ne_true, List.foldl_append]
    cases a.queued with
    | false => exact hshown
    | true =>
      cases a.updated with
      | false => exact hshown
      | true =>
        cases a.followedByStreamTerminate with
        | false => exact hshown
        | true => exact hshown.purge

/-! ### The references taken -/

theorem checkDeferred_incremented (s : Reorder β) (p : Picture β) :
    (s.checkDeferred p).incremented = s.incremented := by
  unfold checkDeferred
  dsimp only
  split <;> split <;> simp only [purge_incremented]

theorem generate_incremented (s : Reorder β) (p : Picture β) :
    (s.forPlayGeneratePostDecodeParameterSettings p).incremented =
      s.incremented ++ if p.referenceFrame then [p.buffer] else [] := by
  unfold forPlayGeneratePostDecodeParameterSettings
  cases p.referenceFrame with
  | false => exact (calculate_incremented p).trans (List.append_nil _).symm
  | true =>
    have hcheck := checkDeferred_incremented (s.incrementReferenceCount p.buffer) p
    rw [increment_incremented] at hcheck
    dsimp only
    split
    next hno => cases hno
    next => split <;> exact hcheck

theorem processFrame_incremented (s : Reorder β) (a : Arrival β) :
    (s.forPlayProcessFrame a).incremented = s.incremented ++
      if a.prepared && a.picture.referenceFrame then [a.picture.buffer] else [] := by
  have hqueued : (s.forPlayProcessQueuedPostDecodeParameterSettings a.picture).incremented =
      s.incremented := by
    unfold forPlayProcessQueuedPostDecodeParameterSettings
    split
    next => exact purge_incremented s
    next => rfl
  have hgenerated := generate_incremented
    (s.forPlayProcessQueuedPostDecodeParameterSettings a.picture) a.picture
  rw [hqueued] at hgenerated
  unfold forPlayProcessFrame
  cases a.prepared with
  | false => exact (List.append_nil _).symm
  | true =>
    rw [Bool.true_and, ← hgenerated, Bool.not_true, if_neg Bool.false_ne_true]
    split
    next => rfl
    next =>
      split
      next => rfl
      next =>
        split
        next => exact purge_incremented _
        next => rfl

end Reorder

/-! ### Runs -/

namespace ReorderRun

/-- What every call keeps. -/
structure Ordered (r : ReorderRun β) : Prop where
  follows : r.parser.Follows (HeldBack.run r.actions) []
  prepared : r.actions.filterMap HeldBack.frame = r.prepared
  deferrals : r.parser.incremented = r.deferrals

theorem start_ordered : (start : ReorderRun β).Ordered :=
  ⟨⟨⟨rfl, rfl⟩, List.Perm.nil, rfl, fun _ he => by cases he⟩, rfl, rfl⟩

variable {r : ReorderRun β}

theorem Ordered.purge (h : r.Ordered) : r.purge.Ordered := by
  refine ⟨?_, ?_, ?_⟩
  · change r.parser.forPlayPurgeQueuedPostDecodeParameterSettings.Follows
      (HeldBack.run (r.actions ++ [.purge])) []
    rw [HeldBack.run_append]
    exact h.follows.purge
  · change (r.actions ++ [Action.purge]).filterMap HeldBack.frame = r.prepared
    rw [List.filterMap_append, h.prepared]
    exact List.append_nil _
  · exact (Reorder.purge_incremented _).trans h.deferrals

theorem frames_of_actions (s : Reorder β) (a : Arrival β) :
    (a.actions s).filterMap HeldBack.frame = if a.prepared then a.frame else [] := by
  unfold Arrival.actions Arrival.shown Arrival.frame
  cases a.prepared with
  | false => rfl
  | true =>
    have hlast : (if a.terminates then [Action.purge] else []).filterMap HeldBack.frame =
        ([] : List (Picture β)) := by
      split <;> rfl
    rw [Bool.not_true, if_neg Bool.false_ne_true, List.filterMap_append, hlast, List.append_nil,
      if_pos rfl]
    split
    next => split <;> rfl
    next => split <;> rfl

theorem Ordered.process (h : r.Ordered) (a : Arrival β) :
    (r.process a).Ordered := by
  refine ⟨?_, ?_, ?_⟩
  · change (r.parser.forPlayProcessFrame a).Follows
      (HeldBack.run (r.actions ++ a.actions r.parser)) []
    rw [HeldBack.run_append]
    exact h.follows.processFrame a
  · change (r.actions ++ a.actions r.parser).filterMap HeldBack.frame = r.prepared ++ _
    rw [List.filterMap_append, h.prepared, frames_of_actions]
  · change (r.parser.forPlayProcessFrame a).incremented = r.deferrals ++ _
    rw [Reorder.processFrame_incremented, h.deferrals]

theorem Ordered.step (h : r.Ordered) (call : ReorderCall β) :
    (r.step call).Ordered := by
  cases call with
  | halt => exact h.purge
  | processBuffer streamDiscontinuity a =>
    have hpurged : (if streamDiscontinuity then r.purge else r).Ordered := by
      split
      next => exact h.purge
      next => exact h
    cases a with
    | none => exact hpurged
    | some a => exact hpurged.process a

theorem run_ordered (calls : List (ReorderCall β)) : (run calls).Ordered :=
  List.foldlRecOn calls step start_ordered fun _ h call _ => h.step call

/-- **Forward play reorders without loss or duplication**: the frames that have their reference
frames are numbered consecutively in the order of `HeldBack`, each once, but for the one that is held
back; and of the references taken on the buffers that wait all are given back but those on the
buffers that still wait. -/
theorem run_reordered (calls : List (ReorderCall β)) :
    (run calls).parser.assigned = Reorder.numbering (HeldBack.run (run calls).actions).displayed ∧
      (run calls).prepared.Perm ((HeldBack.run (run calls).actions).displayed ++
        (HeldBack.run (run calls).actions).held.toList) ∧
      (HeldBack.run (run calls).actions).held =
        (run calls).parser.deferredCodedFrameBuffer.filter Picture.firstDecodeOfFrame ∧
      (run calls).parser.incremented = (run calls).deferrals ∧
      (run calls).deferrals.Perm ((run calls).parser.decremented ++
        (run calls).parser.deferred.map Picture.buffer) := by
  have h := run_ordered calls
  have hperm := HeldBack.run_perm (run calls).actions
  have hcounted := h.follows.counted
  rw [h.prepared] at hperm
  rw [h.deferrals, List.append_nil] at hcounted
  exact ⟨h.follows.numbered.assigned, hperm, h.follows.held, h.deferrals, hcounted⟩

/-- A frame that lacks its reference frames. -/
def refused : Arrival Unit := ⟨⟨(), true, true, .frame⟩, false, true, true, false⟩

/-- Such a frame is neither numbered nor held back. -/
theorem not_frames_displayed_refused :
    ¬ (run [.processBuffer true (some refused)]).frames.Perm
      ((HeldBack.run (run [.processBuffer true (some refused)]).actions).displayed ++
        (HeldBack.run (run [.processBuffer true (some refused)]).actions).held.toList) := by
  decide

end ReorderRun

end Player2.Video

import Mathlib.Data.List.Perm.Basic
import Mathlib.Data.List.Perm.Subperm
import Mathlib.Data.List.Nodup
import Player2.Run

/-! # Decoding a group of pictures backwards

In reverse play `FrameParser_Video_c` stacks the coded buffers of a group and unwinds the stack when the
group is complete: the frames in reverse order, the units of each frame in forward order.  Reference
frames were queued for decode when they came in, the others are queued now.  What is met from the first
frame whose reference frames are still missing on is an open group; it is moved to a second stack, and back
when the next group is unwound.

A non-reference frame gets its display frame index from a ring, when the next reference frame is handled.
`run_reversePlay` says what becomes of the buffers on the stacks and of the indices in any sequence of calls.

Whether `PrepareReferenceFrameList` finds the references of a frame, and whether a decode can be queued, is
not decided here. -/

namespace Player2.ReverseDecode

/-! ### The source -/

/-- A coded buffer, with what is read of its `ParsedFrameParameters_t` and `ParsedVideoParameters_t`. -/
structure CodedFrame where
  buffer : ℕ
  referenceFrame : Bool
  firstParsedParametersForOutputFrame : Bool
  newFrameParameters : Bool
  newStreamParameters : Bool
  firstSlice : Bool
deriving DecidableEq, Repr

/-- A buffer on a stack; `listsInvalid` says that `NumberOfReferenceFrameLists` is `INVALID_INDEX`. -/
structure Stacked where
  frame : CodedFrame
  listsInvalid : Bool
deriving DecidableEq, Repr

/-- What is done to the outside. -/
inductive Event
  | incrementReferenceCount (frame : CodedFrame)
  | decrementReferenceCount (frame : CodedFrame)
  | forPlayQueueFrameForDecode (frame : CodedFrame)
  | displayFrameIndex (frame : CodedFrame) (index : ℕ)
  | revPlayRemoveReferenceFrameFromList (frame : CodedFrame)
  | releaseReferenceFrame (frame : CodedFrame)
deriving DecidableEq, Repr

/-- The sizes that are set up before play. -/
structure Configuration where
  frameBufferCount : ℕ
  frameParametersCount : UInt32
  streamParametersCount : UInt32
  maxReferenceFrameCount : UInt32

/-- The fields of the frame parser.  The top of a stack is its first element; the ring is in the order of
insertion, one element for the two words of a frame. -/
structure Parser where
  reverseDecodeUnsatisfiedReferenceStack : List Stacked
  reverseDecodeSingleFrameStack : List Stacked
  reverseDecodeStack : List Stacked
  reverseQueuedPostDecodeSettingsRing : List CodedFrame
  nextDisplayFrameIndex : ℕ
  revPlayDiscardingState : Bool
  numberOfUtilizedFrameParameters : UInt32
  numberOfUtilizedStreamParameters : UInt32
  numberOfUtilizedDecodeBuffers : UInt32
  events : List Event
deriving DecidableEq, Repr

/-- The parser before any frame. -/
def start : Parser := ⟨[], [], [], [], 0, false, 0, 0, 0, []⟩

/-- Twice `PLAYER_MINIMUM_NUMBER_OF_WORKING_DECODE_BUFFERS + 1`. -/
def workingCount : UInt32 := 2 * (3 + 1)

/-- `StackGeneric_c::Push`; its status is not looked at. -/
def push (limit : ℕ) (stack : List Stacked) (x : Stacked) : List Stacked :=
  if stack.length = limit then stack else x :: stack

namespace Parser

/-- Record an event. -/
def log (s : Parser) (e : Event) : Parser := { s with events := s.events ++ [e] }

/-- `CalculateFrameIndexAndPts`, for the index. -/
def calculateFrameIndexAndPts (s : Parser) (f : CodedFrame) : Parser :=
  if !f.firstParsedParametersForOutputFrame then s
  else
    { s with
      nextDisplayFrameIndex := s.nextDisplayFrameIndex + 1
      events := s.events ++ [.displayFrameIndex f s.nextDisplayFrameIndex] }

variable (c : Configuration)

/-- `RevPlayGeneratePostDecodeParameterSettings`, which always succeeds. -/
def revPlayGeneratePostDecodeParameterSettings (s : Parser) (f : CodedFrame) : Parser :=
  if !f.referenceFrame then
    if s.reverseQueuedPostDecodeSettingsRing.length = c.frameBufferCount then s
    else
      { s with
        reverseQueuedPostDecodeSettingsRing := s.reverseQueuedPostDecodeSettingsRing ++ [f] }
  else if f.firstParsedParametersForOutputFrame then
    { s.reverseQueuedPostDecodeSettingsRing.foldl calculateFrameIndexAndPts
        (s.calculateFrameIndexAndPts f) with
      reverseQueuedPostDecodeSettingsRing := [] }
  else s.calculateFrameIndexAndPts f

/-- `RevPlayQueueFrameForDecode`: `prepared` tells whether the reference frame list could be prepared and
`queued` whether a reference frame could be queued for decode. -/
def revPlayQueueFrameForDecode (s : Parser) (f : CodedFrame) (prepared queued : Bool) : Parser :=
  if f.referenceFrame then
    if !prepared then { s with revPlayDiscardingState := true }
    else if !queued then s.log (.forPlayQueueFrameForDecode f)
    else
      { (s.log (.forPlayQueueFrameForDecode f)).log (.incrementReferenceCount f) with
        reverseDecodeStack := push c.frameBufferCount s.reverseDecodeStack ⟨f, false⟩ }
  else
    { s.log (.incrementReferenceCount f) with
      reverseDecodeStack := push c.frameBufferCount s.reverseDecodeStack ⟨f, !prepared⟩ }

/-- One round of the loop over the unsatisfied reference stack. -/
def retry (prepared : CodedFrame → Bool) (s : Parser) (x : Stacked) : Parser :=
  if x.listsInvalid && !prepared x.frame then s.log (.decrementReferenceCount x.frame)
  else
    { s with
      reverseDecodeStack := push c.frameBufferCount s.reverseDecodeStack { x with listsInvalid := false } }

end Parser

/-- The loop that extracts a single frame, after it has popped `x`: the last unit popped, the single frame
stack and what is left. -/
def extractFrame (limit : ℕ) : Stacked → List Stacked → List Stacked → Stacked × List Stacked × List Stacked
  | x, single, [] => (x, push limit single x, [])
  | x, single, y :: stack =>
    if !x.frame.firstParsedParametersForOutputFrame && !x.listsInvalid then
      extractFrame limit y (push limit single x) stack
    else (x, push limit single x, y :: stack)

namespace Parser

variable (c : Configuration)

/-- One round of the loop over the single frame stack. -/
def processUnit (s : Parser) (x : Stacked) : Parser :=
  let s := s.revPlayGeneratePostDecodeParameterSettings c x.frame
  let s :=
    if x.frame.referenceFrame then s.log (.revPlayRemoveReferenceFrameFromList x.frame)
    else s.log (.forPlayQueueFrameForDecode x.frame)
  s.log (.decrementReferenceCount x.frame)

/-- The loop over the reverse decode stack, for at most `fuel` frames. -/
def unwind : ℕ → Parser → Parser
  | 0, s => s
  | fuel + 1, s =>
    match s.reverseDecodeStack with
    | [] => s
    | x :: stack =>
      let r := extractFrame c.frameBufferCount x s.reverseDecodeSingleFrameStack stack
      if r.1.listsInvalid then
        { s with reverseDecodeSingleFrameStack := r.2.1, reverseDecodeStack := r.2.2 }
      else
        unwind fuel (r.2.1.foldl (processUnit c)
          { s with reverseDecodeSingleFrameStack := [], reverseDecodeStack := r.2.2 })

def revPlayClearResourceUtilization (s : Parser) : Parser :=
  { s with
    numberOfUtilizedFrameParameters := 0
    numberOfUtilizedStreamParameters := 0
    numberOfUtilizedDecodeBuffers := 0
    revPlayDiscardingState := false }

/-- One round of `RevPlayPurgeUnsatisfiedReferenceStack`. -/
def purgeUnsatisfied (s : Parser) (x : Stacked) : Parser :=
  let s :=
    if x.frame.referenceFrame then
      (s.revPlayGeneratePostDecodeParameterSettings c x.frame).log (.releaseReferenceFrame x.frame)
    else s
  s.log (.decrementReferenceCount x.frame)

def revPlayPurgeUnsatisfiedReferenceStack (s : Parser) : Parser :=
  s.reverseDecodeUnsatisfiedReferenceStack.foldl (purgeUnsatisfied c)
    { s with reverseDecodeUnsatisfiedReferenceStack := [] }

/-- The counting part of `RevPlayCheckResourceUtilization`. -/
def countUtilization (s : Parser) (f : CodedFrame) : Parser :=
  { s with
    numberOfUtilizedFrameParameters :=
      if f.newFrameParameters && f.firstSlice then s.numberOfUtilizedFrameParameters + 1
      else s.numberOfUtilizedFrameParameters
    numberOfUtilizedStreamParameters :=
      if f.newStreamParameters then s.numberOfUtilizedStreamParameters + 1
      else s.numberOfUtilizedStreamParameters
    numberOfUtilizedDecodeBuffers :=
      if f.firstSlice && f.firstParsedParametersForOutputFrame && f.referenceFrame then
        s.numberOfUtilizedDecodeBuffers + 1
      else s.numberOfUtilizedDecodeBuffers }

/-- Whether the counts no longer allow smooth reverse play. -/
def exhausted (decodeBufferCount : UInt32) (s : Parser) : Bool :=
  decide (s.numberOfUtilizedFrameParameters > c.frameParametersCount - workingCount) ||
    decide (s.numberOfUtilizedStreamParameters ≥ c.streamParametersCount - workingCount) ||
    decide (s.numberOfUtilizedDecodeBuffers > decodeBufferCount - 3) ||
    decide (s.numberOfUtilizedDecodeBuffers > c.maxReferenceFrameCount - 3)

/-- `RevPlayCheckResourceUtilization`, with the number of decode buffers that the manifestor gives. -/
def revPlayCheckResourceUtilization (decodeBufferCount : UInt32) (s : Parser) (f : CodedFrame) : Parser :=
  let s := s.countUtilization f
  let s := { s with revPlayDiscardingState := s.revPlayDiscardingState || s.exhausted c decodeBufferCount }
  if s.revPlayDiscardingState then s.revPlayPurgeUnsatisfiedReferenceStack c else s

/-- One round of the loop that moves the rest of the stack to the unsatisfied reference stack. -/
def defer (decodeBufferCount : UInt32) (s : Parser) (x : Stacked) : Parser :=
  revPlayCheckResourceUtilization c decodeBufferCount
    { s with
      reverseDecodeUnsatisfiedReferenceStack :=
        push c.frameBufferCount s.reverseDecodeUnsatisfiedReferenceStack x } x.frame

/-- `RevPlayProcessDecodeStacks`: `prepared` tells which reference frame lists can be prepared now. -/
def revPlayProcessDecodeStacks (prepared : CodedFrame → Bool) (decodeBufferCount : UInt32) (s : Parser) :
    Parser :=
  let s := s.reverseDecodeUnsatisfiedReferenceStack.foldl (retry c prepared)
    { s with reverseDecodeUnsatisfiedReferenceStack := [] }
  let s := unwind c s.reverseDecodeStack.length s
  let s := s.revPlayClearResourceUtilization
  let stack := s.reverseDecodeSingleFrameStack.foldl (push c.frameBufferCount) s.reverseDecodeStack
  let s := stack.foldl (defer c decodeBufferCount)
    { s with reverseDecodeSingleFrameStack := [], reverseDecodeStack := [] }
  { s with reverseQueuedPostDecodeSettingsRing := [], reverseDecodeSingleFrameStack := [] }

/-- One round of the loop of `RevPlayPurgeDecodeStacks`. -/
def discard (s : Parser) (x : Stacked) : Parser :=
  let s := if x.frame.referenceFrame then s.revPlayGeneratePostDecodeParameterSettings c x.frame else s
  s.log (.decrementReferenceCount x.frame)

def revPlayPurgeDecodeStacks (s : Parser) : Parser :=
  let stack := s.reverseDecodeUnsatisfiedReferenceStack.foldl (push c.frameBufferCount) s.reverseDecodeStack
  (stack.foldl (discard c)
    { s with
      reverseDecodeUnsatisfiedReferenceStack := []
      reverseDecodeStack := [] }).revPlayClearResourceUtilization

/-- The buffers on the two stacks that outlive a call. -/
def stacked (s : Parser) : List Stacked :=
  s.reverseDecodeStack ++ s.reverseDecodeUnsatisfiedReferenceStack

end Parser

/-- A call of the frame parser. -/
inductive Label
  | queueFrameForDecode (frame : CodedFrame) (prepared queued : Bool)
  | checkResourceUtilization (frame : CodedFrame) (decodeBufferCount : UInt32)
  | processDecodeStacks (prepared : CodedFrame → Bool) (decodeBufferCount : UInt32)
  | purgeDecodeStacks

/-- Make a call.  The buffer of a new frame is one of the pool, and not one that a stack still holds a
reference to. -/
def step (c : Configuration) (s : Parser) : Label → Option Parser
  | .queueFrameForDecode f prepared queued =>
    if f.buffer < c.frameBufferCount ∧ f.buffer ∉ s.stacked.map (·.frame.buffer) then
      some (s.revPlayQueueFrameForDecode c f prepared queued)
    else none
  | .checkResourceUtilization f decodeBufferCount =>
    some (s.revPlayCheckResourceUtilization c decodeBufferCount f)
  | .processDecodeStacks prepared decodeBufferCount =>
    some (s.revPlayProcessDecodeStacks c prepared decodeBufferCount)
  | .purgeDecodeStacks => some (s.revPlayPurgeDecodeStacks c)

/-! ### What the events say -/

/-- The buffers that were put on a stack. -/
def referenced (es : List Event) : List CodedFrame :=
  es.filterMap fun | .incrementReferenceCount f => some f | _ => none

/-- The buffers whose stack reference was dropped. -/
def dropped (es : List Event) : List CodedFrame :=
  es.filterMap fun | .decrementReferenceCount f => some f | _ => none

/-- The frames that were passed on, to be decoded, or to be no longer a reference. -/
def handedOn (es : List Event) : List CodedFrame :=
  es.filterMap fun
    | .forPlayQueueFrameForDecode f | .revPlayRemoveReferenceFrameFromList f => some f
    | _ => none

/-- The frames that got a display frame index. -/
def indexed (es : List Event) : List CodedFrame :=
  es.filterMap fun | .displayFrameIndex f _ => some f | _ => none

section
variable (es es' : List Event)

@[simp] theorem referenced_append : referenced (es ++ es') = referenced es ++ referenced es' :=
  List.filterMap_append

@[simp] theorem dropped_append : dropped (es ++ es') = dropped es ++ dropped es' :=
  List.filterMap_append

@[simp] theorem handedOn_append : handedOn (es ++ es') = handedOn es ++ handedOn es' :=
  List.filterMap_append

@[simp] theorem indexed_append : indexed (es ++ es') = indexed es ++ indexed es' :=
  List.filterMap_append

end

/-- Events that only give indices. -/
def OnlyIndices (es : List Event) : Prop := ∀ e ∈ es, ∃ f i, e = .displayFrameIndex f i

theorem OnlyIndices.append {es es' : List Event} (h : OnlyIndices es) (h' : OnlyIndices es') :
    OnlyIndices (es ++ es') := by
  intro e he
  rcases List.mem_append.mp he with he | he
  · exact h e he
  · exact h' e he

section
variable {es : List Event} (h : OnlyIndices es)
include h

theorem OnlyIndices.referenced : referenced es = [] := by
  refine List.filterMap_eq_nil_iff.mpr ?_
  intro e he
  obtain ⟨f, i, rfl⟩ := h e he
  rfl

theorem OnlyIndices.dropped : dropped es = [] := by
  refine List.filterMap_eq_nil_iff.mpr ?_
  intro e he
  obtain ⟨f, i, rfl⟩ := h e he
  rfl

theorem OnlyIndices.handedOn : handedOn es = [] := by
  refine List.filterMap_eq_nil_iff.mpr ?_
  intro e he
  obtain ⟨f, i, rfl⟩ := h e he
  rfl

end

/-! ### The ring -/

/-- The two parsers have the same stacks. -/
structure SameStacks (s s' : Parser) : Prop where
  unsatisfied : s'.reverseDecodeUnsatisfiedReferenceStack = s.reverseDecodeUnsatisfiedReferenceStack
  single : s'.reverseDecodeSingleFrameStack = s.reverseDecodeSingleFrameStack
  stack : s'.reverseDecodeStack = s.reverseDecodeStack
  discarding : s'.revPlayDiscardingState = s.revPlayDiscardingState

theorem SameStacks.refl (s : Parser) : SameStacks s s := ⟨rfl, rfl, rfl, rfl⟩

theorem SameStacks.trans {s t u : Parser} (h : SameStacks s t) (h' : SameStacks t u) : SameStacks s u :=
  ⟨h'.unsatisfied.trans h.unsatisfied, h'.single.trans h.single, h'.stack.trans h.stack,
    h'.discarding.trans h.discarding⟩

theorem sameStacks_log (s : Parser) (e : Event) : SameStacks s (s.log e) := ⟨rfl, rfl, rfl, rfl⟩

/-- A reference frame in its first unit: what lets the frames of the ring have their indices. -/
def Anchors (f : CodedFrame) : Prop :=
  f.referenceFrame = true ∧ f.firstParsedParametersForOutputFrame = true

instance (f : CodedFrame) : Decidable (Anchors f) := inferInstanceAs (Decidable (_ ∧ _))

namespace Parser

theorem calculateFrameIndexAndPts_events (s : Parser) (f : CodedFrame) :
    ∃ es, (s.calculateFrameIndexAndPts f).events = s.events ++ es ∧ OnlyIndices es ∧
      (f.firstParsedParametersForOutputFrame = true → f ∈ indexed es) := by
  unfold calculateFrameIndexAndPts
  split
  next h => exact ⟨[], by simp, by simp [OnlyIndices], by simp_all⟩
  next h =>
    refine ⟨[.displayFrameIndex f s.nextDisplayFrameIndex], rfl, ?_, fun _ => by simp [indexed]⟩
    intro e he
    exact ⟨f, _, List.mem_singleton.mp he⟩

theorem calculateFrameIndexAndPts_sameStacks (s : Parser) (f : CodedFrame) :
    SameStacks s (s.calculateFrameIndexAndPts f) := by
  unfold calculateFrameIndexAndPts
  split
  · exact .refl s
  · exact ⟨rfl, rfl, rfl, rfl⟩

theorem calculateFrameIndexAndPts_ring (s : Parser) (f : CodedFrame) :
    (s.calculateFrameIndexAndPts f).reverseQueuedPostDecodeSettingsRing =
      s.reverseQueuedPostDecodeSettingsRing := by
  unfold calculateFrameIndexAndPts
  split <;> rfl

theorem flush_events (ring : List CodedFrame) (s : Parser) :
    ∃ es, (ring.foldl calculateFrameIndexAndPts s).events = s.events ++ es ∧ OnlyIndices es ∧
      (∀ f ∈ ring, f.firstParsedParametersForOutputFrame = true → f ∈ indexed es) := by
  induction ring generalizing s with
  | nil => exact ⟨[], by simp, by simp [OnlyIndices], by simp⟩
  | cons f ring ih =>
    obtain ⟨es, hes, honly, hf⟩ := s.calculateFrameIndexAndPts_events f
    obtain ⟨es', hes', honly', hring⟩ := ih (s.calculateFrameIndexAndPts f)
    refine ⟨es ++ es', ?_, honly.append honly', ?_⟩
    · rw [List.foldl_cons, hes', hes, List.append_assoc]
    · intro g hg hfirst
      rw [indexed_append]
      rcases List.mem_cons.mp hg with rfl | hg
      · exact List.mem_append_left _ (hf hfirst)
      · exact List.mem_append_right _ (hring g hg hfirst)

theorem flush_sameStacks (ring : List CodedFrame) (s : Parser) :
    SameStacks s (ring.foldl calculateFrameIndexAndPts s) := by
  induction ring generalizing s with
  | nil => exact .refl s
  | cons f ring ih => exact (s.calculateFrameIndexAndPts_sameStacks f).trans (ih _)

/-- What `RevPlayGeneratePostDecodeParameterSettings` does with a frame, the events it causes being `es`. -/
structure Generated (f : CodedFrame) (s s' : Parser) (es : List Event) : Prop where
  events : s'.events = s.events ++ es
  only : OnlyIndices es
  same : SameStacks s s'
  anchors : Anchors f → f ∈ indexed es ∧ s'.reverseQueuedPostDecodeSettingsRing = [] ∧
    ∀ g ∈ s.reverseQueuedPostDecodeSettingsRing,
      g.firstParsedParametersForOutputFrame = true → g ∈ indexed es
  waits : ¬ Anchors f → ∀ g ∈ s.reverseQueuedPostDecodeSettingsRing,
    g ∈ s'.reverseQueuedPostDecodeSettingsRing
  length : s'.reverseQueuedPostDecodeSettingsRing.length ≤ s.reverseQueuedPostDecodeSettingsRing.length + 1

theorem generated (c : Configuration) (s : Parser) (f : CodedFrame) :
    ∃ es, Generated f s (s.revPlayGeneratePostDecodeParameterSettings c f) es := by
  unfold revPlayGeneratePostDecodeParameterSettings
  split
  next href =>
    have hnot : ¬ Anchors f := fun h => by simp [h.1] at href
    split
    · exact ⟨[], by simp, by simp [OnlyIndices], .refl s, fun h => absurd h hnot, fun _ g hg => hg,
        Nat.le_succ _⟩
    · exact ⟨[], by simp, by simp [OnlyIndices], ⟨rfl, rfl, rfl, rfl⟩, fun h => absurd h hnot,
        fun _ g hg => List.mem_append_left _ hg, by simp⟩
  next href =>
    obtain ⟨es, hes, honly, hf⟩ := s.calculateFrameIndexAndPts_events f
    have hsame := s.calculateFrameIndexAndPts_sameStacks f
    split
    next hfirst =>
      obtain ⟨es', hes', honly', hring⟩ :=
        flush_events s.reverseQueuedPostDecodeSettingsRing (s.calculateFrameIndexAndPts f)
      have hflush := hsame.trans
        (flush_sameStacks s.reverseQueuedPostDecodeSettingsRing (s.calculateFrameIndexAndPts f))
      refine ⟨es ++ es', ?_, honly.append honly', ⟨hflush.1, hflush.2, hflush.3, hflush.4⟩, ?_, ?_, ?_⟩
      · rw [← List.append_assoc, ← hes, ← hes']
      · intro _
        refine ⟨?_, rfl, ?_⟩
        · simp [hf hfirst]
        · intro g hg hg1
          simp [hring g hg hg1]
      · intro hnot
        exact absurd ⟨by simpa using href, hfirst⟩ hnot
      · simp
    next hfirst =>
      refine ⟨es, hes, honly, hsame, fun h => absurd h.2 hfirst, ?_, ?_⟩
      · intro _ g hg
        rwa [calculateFrameIndexAndPts_ring]
      · rw [calculateFrameIndexAndPts_ring]
        exact Nat.le_succ _

variable {s : Parser}

theorem mem_ring_of_not_reference (c : Configuration) {f : CodedFrame}
    (href : f.referenceFrame = false)
    (hroom : s.reverseQueuedPostDecodeSettingsRing.length < c.frameBufferCount) :
    f ∈ (s.revPlayGeneratePostDecodeParameterSettings c f).reverseQueuedPostDecodeSettingsRing := by
  have hne := Nat.ne_of_lt hroom
  simp [revPlayGeneratePostDecodeParameterSettings, href, hne]

/-! ### The loop over the reverse decode stack -/

/-- What the loop over a single frame stack does with the units `l`, from a parser whose ring is `ring`. -/
structure Unwinding (ring : List CodedFrame) (l : List Stacked) (es : List Event) : Prop where
  dropped : dropped es = l.map (·.frame)
  handedOn : handedOn es = l.map (·.frame)
  referenced : referenced es = []
  anchors : ∀ x ∈ l, Anchors x.frame → x.frame ∈ indexed es
  ring : ∀ f ∈ ring, f.firstParsedParametersForOutputFrame = true → (∃ y ∈ l, Anchors y.frame) →
    f ∈ indexed es
  others : ∀ a x b, l = a ++ x :: b → x.frame.referenceFrame = false →
    x.frame.firstParsedParametersForOutputFrame = true → (∃ y ∈ b, Anchors y.frame) → x.frame ∈ indexed es

variable (c : Configuration)

theorem processUnit_unwinding (s : Parser) (x : Stacked) :
    ∃ es, (s.processUnit c x).events = s.events ++ es ∧ SameStacks s (s.processUnit c x) ∧
      Unwinding s.reverseQueuedPostDecodeSettingsRing [x] es := by
  obtain ⟨es, hgen⟩ := generated c s x.frame
  let last : Event :=
    if x.frame.referenceFrame then .revPlayRemoveReferenceFrameFromList x.frame
    else .forPlayQueueFrameForDecode x.frame
  have hlast : ReverseDecode.dropped [last] = [] ∧ ReverseDecode.handedOn [last] = [x.frame] ∧
      ReverseDecode.referenced [last] = [] := by
    by_cases h : x.frame.referenceFrame <;>
      simp [last, h, ReverseDecode.dropped, ReverseDecode.handedOn, ReverseDecode.referenced]
  have hunit : s.processUnit c x = ((s.revPlayGeneratePostDecodeParameterSettings c x.frame).log last).log
      (.decrementReferenceCount x.frame) := by
    unfold processUnit
    by_cases h : x.frame.referenceFrame <;> simp [last, h]
  refine ⟨es ++ [last] ++ [.decrementReferenceCount x.frame], ?_, ?_, ?_, ?_, ?_, ?_, ?_, ?_⟩
  · simp [hunit, log, hgen.events]
  · rw [hunit]
    exact hgen.same.trans ((sameStacks_log _ _).trans (sameStacks_log _ _))
  · rw [dropped_append, dropped_append, hgen.only.dropped, hlast.1]
    rfl
  · rw [handedOn_append, handedOn_append, hgen.only.handedOn, hlast.2.1]
    rfl
  · rw [referenced_append, referenced_append, hgen.only.referenced, hlast.2.2]
    rfl
  · intro y hy hanchors
    obtain rfl := List.mem_singleton.mp hy
    simp [(hgen.anchors hanchors).1]
  · rintro f hf hfirst ⟨y, hy, hanchors⟩
    obtain rfl := List.mem_singleton.mp hy
    simp [(hgen.anchors hanchors).2.2 f hf hfirst]
  · rintro a y b hl - - ⟨z, hz, -⟩
    obtain rfl : b = [] := by
      have := congrArg List.length hl
      simp only [List.length_append, List.length_cons, List.length_nil] at this
      exact List.eq_nil_of_length_eq_zero (by omega)
    cases hz

theorem processUnit_ring (s : Parser) (x : Stacked) :
    (s.processUnit c x).reverseQueuedPostDecodeSettingsRing =
      (s.revPlayGeneratePostDecodeParameterSettings c x.frame).reverseQueuedPostDecodeSettingsRing := by
  unfold processUnit
  by_cases h : x.frame.referenceFrame <;> simp [h, log]

theorem length_ring_processUnit (s : Parser) (x : Stacked) :
    (s.processUnit c x).reverseQueuedPostDecodeSettingsRing.length ≤
      s.reverseQueuedPostDecodeSettingsRing.length + 1 := by
  obtain ⟨es, hgen⟩ := generated c s x.frame
  rw [processUnit_ring]
  exact hgen.length

/-- The units of a single frame stack, while the ring has room for all of them. -/
theorem foldl_processUnit (l : List Stacked) (s : Parser)
    (hroom : s.reverseQueuedPostDecodeSettingsRing.length + l.length ≤ c.frameBufferCount) :
    ∃ es, (l.foldl (processUnit c) s).events = s.events ++ es ∧
      SameStacks s (l.foldl (processUnit c) s) ∧ Unwinding s.reverseQueuedPostDecodeSettingsRing l es ∧
      (l.foldl (processUnit c) s).reverseQueuedPostDecodeSettingsRing.length ≤
        s.reverseQueuedPostDecodeSettingsRing.length + l.length := by
  induction l generalizing s with
  | nil => exact ⟨[], by simp, .refl s, ⟨rfl, rfl, rfl, by simp, by simp, by simp⟩, Nat.le_refl _⟩
  | cons x l ih =>
    rw [List.length_cons] at hroom
    have hlength := length_ring_processUnit c s x
    obtain ⟨es, hes, hsame, hx⟩ := processUnit_unwinding c s x
    obtain ⟨es', hes', hsame', hl, hlength'⟩ := ih (s.processUnit c x) (by omega)
    have hwaits : ¬ Anchors x.frame → ∀ f ∈ s.reverseQueuedPostDecodeSettingsRing,
        f ∈ (s.processUnit c x).reverseQueuedPostDecodeSettingsRing := by
      obtain ⟨_, hgen⟩ := generated c s x.frame
      rw [processUnit_ring]
      exact hgen.waits
    refine ⟨es ++ es', ?_, hsame.trans hsame', ⟨?_, ?_, ?_, ?_, ?_, ?_⟩, ?_⟩
    · rw [List.foldl_cons, hes', hes, List.append_assoc]
    · simp [hx.dropped, hl.dropped]
    · simp [hx.handedOn, hl.handedOn]
    · simp [hx.referenced, hl.referenced]
    · intro y hy hanchors
      rw [indexed_append]
      rcases List.mem_cons.mp hy with rfl | hy
      · exact List.mem_append_left _ (hx.anchors y (List.mem_singleton_self y) hanchors)
      · exact List.mem_append_right _ (hl.anchors y hy hanchors)
    · rintro f hf hfirst ⟨y, hy, hanchors⟩
      rw [indexed_append]
      by_cases hxa : Anchors x.frame
      · exact List.mem_append_left _ (hx.ring f hf hfirst ⟨x, List.mem_singleton_self x, hxa⟩)
      · rcases List.mem_cons.mp hy with rfl | hy
        · exact absurd hanchors hxa
        · exact List.mem_append_right _ (hl.ring f (hwaits hxa f hf) hfirst ⟨y, hy, hanchors⟩)
    · intro a y b hsplit href hfirst hb
      rw [indexed_append]
      refine List.mem_append_right _ ?_
      rcases List.cons_eq_append_iff.mp hsplit with ⟨rfl, heq⟩ | ⟨a', rfl, rfl⟩
      · obtain ⟨rfl, rfl⟩ := List.cons_eq_cons.mp heq
        have hin := mem_ring_of_not_reference c href (s := s) (by omega)
        rw [← processUnit_ring] at hin
        exact hl.ring y.frame hin hfirst hb
      · exact hl.others a' y b rfl href hfirst hb
    · rw [List.length_cons, List.foldl_cons]
      omega

/-- The parser with other contents of two stacks. -/
def withStacks (s : Parser) (single stack : List Stacked) : Parser :=
  { s with reverseDecodeSingleFrameStack := single, reverseDecodeStack := stack }

theorem withStacks_nil (hsingle : s.reverseDecodeSingleFrameStack = [])
    (hstack : s.reverseDecodeStack = []) : s.withStacks [] [] = s := by
  cases s
  subst hsingle hstack
  rfl

section
variable (s : Parser) (single stack : List Stacked)

theorem calculateFrameIndexAndPts_withStacks (f : CodedFrame) :
    (s.withStacks single stack).calculateFrameIndexAndPts f =
      (s.calculateFrameIndexAndPts f).withStacks single stack := by
  unfold calculateFrameIndexAndPts
  split <;> rfl

theorem flush_withStacks (ring : List CodedFrame) :
    ring.foldl calculateFrameIndexAndPts (s.withStacks single stack) =
      (ring.foldl calculateFrameIndexAndPts s).withStacks single stack := by
  induction ring generalizing s with
  | nil => rfl
  | cons f ring ih =>
    rw [List.foldl_cons, calculateFrameIndexAndPts_withStacks, ih]
    rfl

theorem generate_withStacks (f : CodedFrame) :
    (s.withStacks single stack).revPlayGeneratePostDecodeParameterSettings c f =
      (s.revPlayGeneratePostDecodeParameterSettings c f).withStacks single stack := by
  have hring : (s.withStacks single stack).reverseQueuedPostDecodeSettingsRing =
      s.reverseQueuedPostDecodeSettingsRing := rfl
  unfold revPlayGeneratePostDecodeParameterSettings
  rw [hring, calculateFrameIndexAndPts_withStacks, flush_withStacks]
  split
  · split <;> rfl
  · split <;> rfl

theorem processUnit_withStacks (x : Stacked) :
    (s.withStacks single stack).processUnit c x = (s.processUnit c x).withStacks single stack := by
  unfold processUnit
  rw [generate_withStacks]
  by_cases h : x.frame.referenceFrame
  · simp only [if_pos h]
    rfl
  · simp only [if_neg h]
    rfl

theorem foldl_processUnit_withStacks (l : List Stacked) :
    l.foldl (processUnit c) (s.withStacks single stack) =
      (l.foldl (processUnit c) s).withStacks single stack := by
  induction l generalizing s with
  | nil => rfl
  | cons x l ih =>
    rw [List.foldl_cons, processUnit_withStacks, ih]
    rfl

end

end Parser

theorem push_of_lt (limit : ℕ) {stack : List Stacked} (h : stack.length < limit) (x : Stacked) :
    push limit stack x = x :: stack := if_neg (Nat.ne_of_lt h)

theorem foldl_push {limit : ℕ} (l stack : List Stacked) (h : stack.length + l.length ≤ limit) :
    l.foldl (push limit) stack = l.reverse ++ stack := by
  induction l generalizing stack with
  | nil => rfl
  | cons x l ih =>
    rw [List.length_cons] at h
    rw [List.foldl_cons, push_of_lt _ (by omega), ih _ (by rw [List.length_cons]; omega)]
    simp

/-- Extracting a frame moves the front of the stack, in reverse order, to the single frame stack; the front
ends with its last unit, and only that one may have invalid lists. -/
theorem extractFrame_eq (limit : ℕ) (x : Stacked) (single stack : List Stacked)
    (h : single.length + (stack.length + 1) ≤ limit) :
    ∃ group, x :: stack = group ++ (extractFrame limit x single stack).2.2 ∧
      (extractFrame limit x single stack).2.1 = group.reverse ++ single ∧
      (extractFrame limit x single stack).1 ∈ group ∧
      ((extractFrame limit x single stack).1.listsInvalid = false → ∀ y ∈ group, y.listsInvalid = false) := by
  induction stack generalizing x single with
  | nil =>
    refine ⟨[x], rfl, push_of_lt _ (by omega) x, List.mem_singleton_self x, ?_⟩
    intro hvalid y hy
    obtain rfl := List.mem_singleton.mp hy
    exact hvalid
  | cons y stack ih =>
    rw [List.length_cons] at h
    unfold extractFrame
    rw [push_of_lt _ (by omega)]
    split
    next hgo =>
      obtain ⟨group, hstack, hsingle, hlast, hvalid⟩ :=
        ih y (x :: single) (by rw [List.length_cons]; omega)
      refine ⟨x :: group, ?_, ?_, List.mem_cons_of_mem x hlast, ?_⟩
      · rw [List.cons_append, ← hstack]
      · rw [hsingle]
        simp
      · intro hr z hz
        rcases List.mem_cons.mp hz with rfl | hz
        · simp_all
        · exact hvalid hr z hz
    next =>
      refine ⟨[x], rfl, rfl, List.mem_singleton_self x, ?_⟩
      intro hvalid z hz
      obtain rfl := List.mem_singleton.mp hz
      exact hvalid

namespace Parser

variable (c : Configuration)

/-- How far the reverse decode stack `stack` is unwound: the units of the front `consumed` are handled, in the
order `handled`, and `left` is what stays. -/
structure Unwound (stack handled left : List Stacked) : Prop where
  split : ∃ consumed, stack = consumed ++ left ∧ handled.Perm consumed
  valid : ∀ x ∈ handled, x.listsInvalid = false
  stuck : left ≠ [] → ∃ x ∈ left, x.listsInvalid = true

/-- The loop over the reverse decode stack handles the units one after the other; an open group is left on the
two stacks. -/
theorem unwind_eq (fuel : ℕ) (s : Parser) (hsingle : s.reverseDecodeSingleFrameStack = [])
    (hfuel : s.reverseDecodeStack.length ≤ fuel)
    (hlimit : s.reverseDecodeStack.length ≤ c.frameBufferCount) :
    ∃ handled group rest, Unwound s.reverseDecodeStack handled (group ++ rest) ∧
      unwind c fuel s = (handled.foldl (processUnit c) s).withStacks group.reverse rest := by
  induction fuel generalizing s with
  | zero =>
    have hnil : s.reverseDecodeStack = [] := List.eq_nil_of_length_eq_zero (by omega)
    refine ⟨[], [], [], ⟨⟨[], by simp [hnil], .refl _⟩, by simp, by simp⟩, ?_⟩
    exact (withStacks_nil hsingle hnil).symm
  | succ fuel ih =>
    unfold unwind
    split
    next hnil =>
      refine ⟨[], [], [], ⟨⟨[], by simp [hnil], .refl _⟩, by simp, by simp⟩, ?_⟩
      exact (withStacks_nil hsingle hnil).symm
    next x stack hstack =>
      rw [hstack, List.length_cons] at hfuel hlimit
      obtain ⟨group, hsplit, hgroup, hlast, hvalid⟩ :=
        extractFrame_eq c.frameBufferCount x [] stack (by rw [List.length_nil]; omega)
      rw [List.append_nil] at hgroup
      dsimp only
      rw [hsingle]
      split
      next hinvalid =>
        refine ⟨[], group, (extractFrame c.frameBufferCount x [] stack).2.2,
          ⟨⟨[], ?_, .refl _⟩, by simp, ?_⟩, ?_⟩
        · rw [List.nil_append, hstack, hsplit]
        · intro _
          exact ⟨_, List.mem_append_left _ hlast, hinvalid⟩
        · rw [hgroup]
          rfl
      next hinvalid =>
        generalize (extractFrame c.frameBufferCount x [] stack).2.2 = rest at *
        have hmore := foldl_processUnit_withStacks c s [] rest group.reverse
        have hpos : 0 < group.length := List.length_pos_of_mem hlast
        have hlength : stack.length + 1 = group.length + rest.length := by
          rw [← List.length_append, ← hsplit, List.length_cons]
        obtain ⟨handled, group', rest', hunwound, heq⟩ :=
          ih (group.reverse.foldl (processUnit c) (s.withStacks [] rest))
            (by rw [hmore]; rfl) (by rw [hmore]; show rest.length ≤ fuel; omega)
            (by rw [hmore]; show rest.length ≤ c.frameBufferCount; omega)
        have hrest : (group.reverse.foldl (processUnit c)
            (s.withStacks [] rest)).reverseDecodeStack = rest := by
          rw [hmore]
          rfl
        rw [hrest] at hunwound
        obtain ⟨consumed, hconsumed, hperm⟩ := hunwound.split
        refine ⟨group.reverse ++ handled, group', rest', ⟨⟨group ++ consumed, ?_, ?_⟩, ?_, hunwound.stuck⟩, ?_⟩
        · rw [hstack, hsplit, hconsumed, List.append_assoc]
        · exact (List.reverse_perm group).append hperm
        · intro y hy
          rcases List.mem_append.mp hy with hy | hy
          · exact hvalid (by simpa using hinvalid) y (List.mem_reverse.mp hy)
          · exact hunwound.valid y hy
        · rw [hgroup]
          refine heq.trans ?_
          rw [hmore, foldl_processUnit_withStacks, List.foldl_append]
          rfl

/-! ### The unsatisfied reference stack -/

/-- A frame whose reference frames are still missing. -/
def isLost (prepared : CodedFrame → Bool) (x : Stacked) : Bool := x.listsInvalid && !prepared x.frame

/-- The reverse decode stack when the unsatisfied frames are back on it. -/
def waiting (prepared : CodedFrame → Bool) (s : Parser) : List Stacked :=
  ((s.reverseDecodeUnsatisfiedReferenceStack.filter fun x => !isLost prepared x).map
    fun x => { x with listsInvalid := false }).reverse ++ s.reverseDecodeStack

theorem foldl_retry (prepared : CodedFrame → Bool) (l : List Stacked) (s : Parser)
    (h : s.reverseDecodeStack.length + l.length ≤ c.frameBufferCount) :
    l.foldl (retry c prepared) s =
      { s with
        reverseDecodeStack :=
          ((l.filter fun x => !isLost prepared x).map fun x => { x with listsInvalid := false }).reverse ++
            s.reverseDecodeStack
        events := s.events ++ (l.filter (isLost prepared)).map fun x => .decrementReferenceCount x.frame } := by
  induction l generalizing s with
  | nil => simp
  | cons x l ih =>
    rw [List.length_cons] at h
    rw [List.foldl_cons]
    by_cases hx : isLost prepared x = true
    · have hretry : s.retry c prepared x = s.log (.decrementReferenceCount x.frame) := if_pos hx
      rw [hretry, ih _ (by simp only [log]; omega)]
      simp [log, hx]
    · have hretry : s.retry c prepared x =
          { s with reverseDecodeStack := { x with listsInvalid := false } :: s.reverseDecodeStack } := by
        unfold retry
        rw [push_of_lt _ (by omega)]
        exact if_neg hx
      rw [hretry, ih _ (by simp only [List.length_cons]; omega)]
      simp [hx]

/-- What a loop does that drops the units `l` without handing them on. -/
structure Purging (l : List Stacked) (es : List Event) : Prop where
  dropped : dropped es = l.map (·.frame)
  handedOn : handedOn es = []
  referenced : referenced es = []
  anchors : ∀ x ∈ l, Anchors x.frame → x.frame ∈ indexed es

theorem Purging.nil : Purging [] [] := ⟨rfl, rfl, rfl, by simp⟩

theorem Purging.append {l l' : List Stacked} {es es' : List Event} (h : Purging l es) (h' : Purging l' es') :
    Purging (l ++ l') (es ++ es') where
  dropped := by simp [h.dropped, h'.dropped]
  handedOn := by simp [h.handedOn, h'.handedOn]
  referenced := by simp [h.referenced, h'.referenced]
  anchors := by
    intro x hx hanchors
    rw [indexed_append]
    rcases List.mem_append.mp hx with hx | hx
    · exact List.mem_append_left _ (h.anchors x hx hanchors)
    · exact List.mem_append_right _ (h'.anchors x hx hanchors)

/-- A unit that is dropped, with its index when it is of a reference frame; `last` is what is done before the
reference is dropped. -/
theorem purging_of_generate (s : Parser) (x : Stacked) (last : List Event) (hlast : Purging [] last) :
    ∃ es, (if x.frame.referenceFrame then s.revPlayGeneratePostDecodeParameterSettings c x.frame
          else s).events ++ last ++ [.decrementReferenceCount x.frame] = s.events ++ es ∧
      SameStacks s (if x.frame.referenceFrame then s.revPlayGeneratePostDecodeParameterSettings c x.frame
          else s) ∧ Purging [x] es := by
  have hdrop : ReverseDecode.dropped (last ++ [.decrementReferenceCount x.frame]) = [x.frame] := by
    rw [dropped_append, hlast.dropped]
    rfl
  split
  next href =>
    obtain ⟨es, hgen⟩ := generated c s x.frame
    refine ⟨es ++ last ++ [.decrementReferenceCount x.frame], by simp [hgen.events], hgen.same, ?_, ?_, ?_, ?_⟩
    · rw [List.append_assoc, dropped_append, hgen.only.dropped, hdrop]
      rfl
    · rw [handedOn_append, handedOn_append, hgen.only.handedOn, hlast.handedOn]
      rfl
    · rw [referenced_append, referenced_append, hgen.only.referenced, hlast.referenced]
      rfl
    · intro y hy hanchors
      obtain rfl := List.mem_singleton.mp hy
      simp [(hgen.anchors hanchors).1]
  next href =>
    refine ⟨last ++ [.decrementReferenceCount x.frame], by simp, .refl s, hdrop, ?_, ?_, ?_⟩
    · rw [handedOn_append, hlast.handedOn]
      rfl
    · rw [referenced_append, hlast.referenced]
      rfl
    · intro y hy hanchors
      obtain rfl := List.mem_singleton.mp hy
      exact absurd hanchors.1 href

theorem discard_purging (s : Parser) (x : Stacked) :
    ∃ es, (s.discard c x).events = s.events ++ es ∧ SameStacks s (s.discard c x) ∧ Purging [x] es := by
  obtain ⟨es, hes, hsame, hpurging⟩ := purging_of_generate c s x [] Purging.nil
  rw [List.append_nil] at hes
  exact ⟨es, hes, hsame.trans (sameStacks_log _ _), hpurging⟩

theorem purgeUnsatisfied_purging (s : Parser) (x : Stacked) :
    ∃ es, (s.purgeUnsatisfied c x).events = s.events ++ es ∧ SameStacks s (s.purgeUnsatisfied c x) ∧
      Purging [x] es := by
  by_cases href : x.frame.referenceFrame = true
  · obtain ⟨es, hes, hsame, hpurging⟩ := purging_of_generate c s x [.releaseReferenceFrame x.frame]
      ⟨rfl, rfl, rfl, by simp⟩
    simp only [if_pos href] at hes hsame
    refine ⟨es, ?_, ?_, hpurging⟩
    · rw [← hes]
      simp [purgeUnsatisfied, href, log]
    · simp only [purgeUnsatisfied, if_pos href]
      exact hsame.trans ((sameStacks_log _ _).trans (sameStacks_log _ _))
  · obtain ⟨es, hes, hsame, hpurging⟩ := purging_of_generate c s x [] Purging.nil
    refine ⟨es, ?_, ?_, hpurging⟩
    · rw [← hes]
      simp [purgeUnsatisfied, href, log]
    · simp only [purgeUnsatisfied, if_neg href]
      exact sameStacks_log _ _

variable {drop : Parser → Stacked → Parser}

theorem foldl_purging
    (hdrop : ∀ s x, ∃ es, (drop s x).events = s.events ++ es ∧ SameStacks s (drop s x) ∧ Purging [x] es)
    (l : List Stacked) (s : Parser) :
    ∃ es, (l.foldl drop s).events = s.events ++ es ∧ SameStacks s (l.foldl drop s) ∧ Purging l es := by
  induction l generalizing s with
  | nil => exact ⟨[], by simp, .refl s, .nil⟩
  | cons x l ih =>
    obtain ⟨es, hes, hsame, hpurging⟩ := hdrop s x
    obtain ⟨es', hes', hsame', hpurging'⟩ := ih (drop s x)
    refine ⟨es ++ es', ?_, hsame.trans hsame', hpurging.append hpurging'⟩
    rw [List.foldl_cons, hes', hes, List.append_assoc]

/-- The resource check: either nothing is done, or play is discarding and the unsatisfied frames are dropped. -/
structure Checked (s s' : Parser) (purged : List Stacked) (es : List Event) : Prop where
  events : s'.events = s.events ++ es
  purging : Purging purged es
  single : s'.reverseDecodeSingleFrameStack = s.reverseDecodeSingleFrameStack
  stack : s'.reverseDecodeStack = s.reverseDecodeStack
  unsatisfied : (s'.revPlayDiscardingState = false ∧ s.revPlayDiscardingState = false ∧ purged = [] ∧
      s'.reverseDecodeUnsatisfiedReferenceStack = s.reverseDecodeUnsatisfiedReferenceStack) ∨
    (s'.revPlayDiscardingState = true ∧ purged = s.reverseDecodeUnsatisfiedReferenceStack ∧
      s'.reverseDecodeUnsatisfiedReferenceStack = [])

theorem revPlayCheckResourceUtilization_checked (decodeBufferCount : UInt32) (s : Parser) (f : CodedFrame) :
    ∃ purged es, Checked s (s.revPlayCheckResourceUtilization c decodeBufferCount f) purged es := by
  unfold revPlayCheckResourceUtilization
  by_cases h : (s.countUtilization f).revPlayDiscardingState ||
      (s.countUtilization f).exhausted c decodeBufferCount
  · simp only [if_pos h, revPlayPurgeUnsatisfiedReferenceStack]
    obtain ⟨es, hes, hsame, hpurging⟩ := foldl_purging (purgeUnsatisfied_purging c)
      s.reverseDecodeUnsatisfiedReferenceStack
      { s.countUtilization f with
        revPlayDiscardingState := (s.countUtilization f).revPlayDiscardingState ||
          (s.countUtilization f).exhausted c decodeBufferCount
        reverseDecodeUnsatisfiedReferenceStack := [] }
    exact ⟨_, es, hes, hpurging, hsame.single, hsame.stack,
      .inr ⟨hsame.discarding.trans h, rfl, hsame.unsatisfied⟩⟩
  · simp only [if_neg h]
    have hf : (s.countUtilization f).revPlayDiscardingState = false := by simp_all
    exact ⟨[], [], by simp [countUtilization], .nil, rfl, rfl, .inl ⟨by simpa using h, hf, rfl, rfl⟩⟩

/-- Moving the open group `l` to the unsatisfied reference stack.  Either the whole of it is there
afterwards, its order reversed, or play is discarding and everything on that stack was dropped. -/
theorem foldl_defer (decodeBufferCount : UInt32) (l : List Stacked) (s : Parser)
    (hdiscarding : s.revPlayDiscardingState = true → s.reverseDecodeUnsatisfiedReferenceStack = [])
    (hroom : s.reverseDecodeUnsatisfiedReferenceStack.length + l.length ≤ c.frameBufferCount) :
    ∃ purged es, (l.foldl (defer c decodeBufferCount) s).events = s.events ++ es ∧ Purging purged es ∧
      (l.foldl (defer c decodeBufferCount) s).reverseDecodeStack = s.reverseDecodeStack ∧
      ((s.revPlayDiscardingState = false ∧ purged = [] ∧
          (l.foldl (defer c decodeBufferCount) s).reverseDecodeUnsatisfiedReferenceStack =
            l.reverse ++ s.reverseDecodeUnsatisfiedReferenceStack) ∨
        ((l.foldl (defer c decodeBufferCount) s).revPlayDiscardingState = true ∧
          purged.Perm (l ++ s.reverseDecodeUnsatisfiedReferenceStack) ∧
          (l.foldl (defer c decodeBufferCount) s).reverseDecodeUnsatisfiedReferenceStack = [])) := by
  induction l generalizing s with
  | nil =>
    refine ⟨[], [], by simp, .nil, rfl, ?_⟩
    rcases Bool.eq_false_or_eq_true s.revPlayDiscardingState with htrue | hfalse
    · exact .inr ⟨htrue, by rw [hdiscarding htrue]; rfl, hdiscarding htrue⟩
    · exact .inl ⟨hfalse, rfl, rfl⟩
  | cons x l ih =>
    rw [List.length_cons] at hroom
    obtain ⟨purged, es, hchecked⟩ := revPlayCheckResourceUtilization_checked c decodeBufferCount
      { s with
        reverseDecodeUnsatisfiedReferenceStack := x :: s.reverseDecodeUnsatisfiedReferenceStack } x.frame
    rw [← push_of_lt c.frameBufferCount (by omega) x] at hchecked
    change Checked _ (s.defer c decodeBufferCount x) purged es at hchecked
    rw [List.foldl_cons]
    obtain ⟨hevents, hpurging, -, hstack, hunsatisfied⟩ := hchecked
    rw [push_of_lt _ (by omega)] at hunsatisfied
    rcases hunsatisfied with ⟨hfalse, hbefore, rfl, hsame⟩ | ⟨htrue, rfl, hnil⟩
    · obtain ⟨purged', es', hes', hpurging', hstack', hrest⟩ := ih (s.defer c decodeBufferCount x)
        (fun h => by simp [hfalse] at h) (by rw [hsame, List.length_cons]; omega)
      refine ⟨purged', es ++ es', ?_, hpurging.append hpurging', hstack'.trans hstack, ?_⟩
      · rw [hes', hevents, List.append_assoc]
      · rw [hsame] at hrest
        rcases hrest with ⟨-, hnone, hall⟩ | ⟨htrue, hperm, hnil⟩
        · exact .inl ⟨hbefore, hnone, by rw [hall]; simp⟩
        · exact .inr ⟨htrue, hperm.trans List.perm_middle, hnil⟩
    · obtain ⟨purged', es', hes', hpurging', hstack', hrest⟩ := ih (s.defer c decodeBufferCount x)
        (fun _ => hnil) (by rw [hnil, List.length_nil]; omega)
      refine ⟨x :: s.reverseDecodeUnsatisfiedReferenceStack ++ purged', es ++ es', ?_,
        hpurging.append hpurging', hstack'.trans hstack, ?_⟩
      · rw [hes', hevents, List.append_assoc]
      · rcases hrest with ⟨hfalse, -, -⟩ | ⟨hafter, hperm, hempty⟩
        · exact absurd (htrue.symm.trans hfalse) (by decide)
        · refine .inr ⟨hafter, ?_, hempty⟩
          rw [hnil, List.append_nil] at hperm
          exact ((hperm.append_left _).trans List.perm_append_comm).trans List.perm_middle

/-! ### The calls -/

/-- What `RevPlayProcessDecodeStacks` does.  The units `lost` still miss reference frames; of the others the
front of the stack is `handled`, in this order, and `left` is an open group, of which `purged` is dropped. -/
structure Processed (prepared : CodedFrame → Bool) (s s' : Parser) (lost handled left purged : List Stacked)
    (es : List Event) : Prop where
  events : s'.events = s.events ++ es
  lost_eq : lost = s.reverseDecodeUnsatisfiedReferenceStack.filter (isLost prepared)
  unwound : Unwound (s.waiting prepared) handled left
  referenced : referenced es = []
  handedOn : handedOn es = handled.map (·.frame)
  dropped : dropped es = (lost ++ handled ++ purged).map (·.frame)
  anchors : ∀ x ∈ handled ++ purged, Anchors x.frame → x.frame ∈ indexed es
  others : ∀ a x b, handled = a ++ x :: b → x.frame.referenceFrame = false →
    x.frame.firstParsedParametersForOutputFrame = true → (∃ y ∈ b, Anchors y.frame) → x.frame ∈ indexed es
  stack : s'.reverseDecodeStack = []
  deferred : (purged = [] ∧ s'.reverseDecodeUnsatisfiedReferenceStack = left.reverse) ∨
    (s'.revPlayDiscardingState = true ∧ purged.Perm left ∧ s'.reverseDecodeUnsatisfiedReferenceStack = [])

theorem length_stacked (s : Parser) : s.stacked.length =
    s.reverseDecodeStack.length + s.reverseDecodeUnsatisfiedReferenceStack.length := List.length_append

theorem length_waiting (prepared : CodedFrame → Bool) (s : Parser) :
    (s.waiting prepared).length ≤ s.stacked.length := by
  have hfilter := List.length_filter_le (fun x => !isLost prepared x) s.reverseDecodeUnsatisfiedReferenceStack
  simp only [waiting, stacked, List.length_append, List.length_reverse, List.length_map]
  omega

theorem decrements (l : List Stacked) :
    ReverseDecode.dropped (l.map fun x => .decrementReferenceCount x.frame) = l.map (·.frame) ∧
      ReverseDecode.handedOn (l.map fun x => .decrementReferenceCount x.frame) = [] ∧
      ReverseDecode.referenced (l.map fun x => .decrementReferenceCount x.frame) = [] := by
  induction l with
  | nil => exact ⟨rfl, rfl, rfl⟩
  | cons x l ih => exact ⟨congrArg (x.frame :: ·) ih.1, ih.2.1, ih.2.2⟩

theorem revPlayProcessDecodeStacks_processed (prepared : CodedFrame → Bool) (decodeBufferCount : UInt32)
    (s : Parser) (hsingle : s.reverseDecodeSingleFrameStack = [])
    (hring : s.reverseQueuedPostDecodeSettingsRing = []) (hroom : s.stacked.length ≤ c.frameBufferCount) :
    ∃ lost handled left purged es, Processed prepared s
      (s.revPlayProcessDecodeStacks c prepared decodeBufferCount) lost handled left purged es := by
  have hlength := s.length_waiting prepared
  rw [length_stacked] at hlength hroom
  have hretry := foldl_retry c prepared s.reverseDecodeUnsatisfiedReferenceStack
    { s with reverseDecodeUnsatisfiedReferenceStack := [] } hroom
  let s1 : Parser :=
    { s with
      reverseDecodeUnsatisfiedReferenceStack := []
      reverseDecodeStack := s.waiting prepared
      events := s.events ++ (s.reverseDecodeUnsatisfiedReferenceStack.filter (isLost prepared)).map
        fun x => .decrementReferenceCount x.frame }
  change _ = s1 at hretry
  obtain ⟨handled, group, rest, hunwound, hunwind⟩ :=
    unwind_eq c (s.waiting prepared).length s1 hsingle (Nat.le_refl _) (Nat.le_trans hlength hroom)
  obtain ⟨consumed, hconsumed, hperm⟩ := hunwound.split
  have hsum : (s.waiting prepared).length = handled.length + (group ++ rest).length := by
    rw [hperm.length_eq, ← List.length_append, ← hconsumed]
  obtain ⟨es, hes, hsame, hhandled, -⟩ := foldl_processUnit c handled s1
    (by show s.reverseQueuedPostDecodeSettingsRing.length + _ ≤ _; rw [hring, List.length_nil]; omega)
  have hpush : group.reverse.foldl (push c.frameBufferCount) rest = group ++ rest := by
    rw [foldl_push _ _ (by rw [List.length_append] at hsum; rw [List.length_reverse]; omega),
      List.reverse_reverse]
  obtain ⟨purged, es', hes', hpurging, hstack, hdeferred⟩ := foldl_defer c decodeBufferCount (group ++ rest)
    { ((handled.foldl (processUnit c) s1).withStacks group.reverse rest).revPlayClearResourceUtilization with
      reverseDecodeSingleFrameStack := []
      reverseDecodeStack := [] }
    (fun h => by cases h) (by
      show (handled.foldl (processUnit c) s1).reverseDecodeUnsatisfiedReferenceStack.length + _ ≤ _
      rw [hsame.unsatisfied]
      show 0 + _ ≤ _
      omega)
  have hprocess : s.revPlayProcessDecodeStacks c prepared decodeBufferCount =
      { (group ++ rest).foldl (defer c decodeBufferCount)
          { ((handled.foldl (processUnit c) s1).withStacks group.reverse rest).revPlayClearResourceUtilization with
            reverseDecodeSingleFrameStack := []
            reverseDecodeStack := [] } with
        reverseQueuedPostDecodeSettingsRing := []
        reverseDecodeSingleFrameStack := [] } := by
    unfold revPlayProcessDecodeStacks
    rw [hretry]
    simp only [show s1.reverseDecodeStack = s.waiting prepared from rfl, hunwind]
    simp only [← hpush]
    rfl
  obtain ⟨hdropped, hhandedOn, hreferenced⟩ :=
    decrements (s.reverseDecodeUnsatisfiedReferenceStack.filter (isLost prepared))
  refine ⟨s.reverseDecodeUnsatisfiedReferenceStack.filter (isLost prepared), handled, group ++ rest, purged,
    (s.reverseDecodeUnsatisfiedReferenceStack.filter (isLost prepared)).map
      (fun x => .decrementReferenceCount x.frame) ++ es ++ es', ?_, rfl, hunwound, ?_, ?_, ?_, ?_, ?_, ?_, ?_⟩
  · rw [hprocess]
    refine hes'.trans ?_
    show (handled.foldl (processUnit c) s1).events ++ es' = _
    rw [hes]
    simp [s1]
  · simp [hreferenced, hhandled.referenced, hpurging.referenced]
  · simp [hhandedOn, hhandled.handedOn, hpurging.handedOn]
  · simp [hdropped, hhandled.dropped, hpurging.dropped]
  · intro x hx hanchors
    rw [indexed_append, indexed_append]
    rcases List.mem_append.mp hx with hx | hx
    · exact List.mem_append_left _ (List.mem_append_right _ (hhandled.anchors x hx hanchors))
    · exact List.mem_append_right _ (hpurging.anchors x hx hanchors)
  · intro a x b hsplit href hfirst hb
    rw [indexed_append, indexed_append]
    exact List.mem_append_left _ (List.mem_append_right _ (hhandled.others a x b hsplit href hfirst hb))
  · rw [hprocess]
    exact hstack
  · rw [hprocess]
    have hempty : (handled.foldl (processUnit c) s1).reverseDecodeUnsatisfiedReferenceStack = [] :=
      hsame.unsatisfied
    rcases hdeferred with ⟨-, hnone, hall⟩ | ⟨htrue, hpurged, hnil⟩
    · refine .inl ⟨hnone, hall.trans ?_⟩
      exact (congrArg _ hempty).trans (List.append_nil _)
    · refine .inr ⟨htrue, hpurged.trans ?_, hnil⟩
      exact List.Perm.of_eq ((congrArg _ hempty).trans (List.append_nil _))

/-- What `RevPlayPurgeDecodeStacks` does: every unit is dropped, none is passed on, and reference frames get
their indices. -/
structure Purged (s s' : Parser) (es : List Event) : Prop where
  events : s'.events = s.events ++ es
  purging : Purging (s.reverseDecodeUnsatisfiedReferenceStack.reverse ++ s.reverseDecodeStack) es
  stack : s'.reverseDecodeStack = []
  unsatisfied : s'.reverseDecodeUnsatisfiedReferenceStack = []
  single : s'.reverseDecodeSingleFrameStack = s.reverseDecodeSingleFrameStack

theorem revPlayPurgeDecodeStacks_purged (s : Parser) (hroom : s.stacked.length ≤ c.frameBufferCount) :
    ∃ es, Purged s (s.revPlayPurgeDecodeStacks c) es := by
  rw [length_stacked] at hroom
  unfold revPlayPurgeDecodeStacks
  rw [foldl_push _ _ hroom]
  obtain ⟨es, hes, hsame, hpurging⟩ := foldl_purging (discard_purging c)
    (s.reverseDecodeUnsatisfiedReferenceStack.reverse ++ s.reverseDecodeStack)
    { s with reverseDecodeUnsatisfiedReferenceStack := [], reverseDecodeStack := [] }
  exact ⟨es, hes, hpurging, hsame.stack, hsame.unsatisfied, hsame.single⟩

variable {s : Parser}

theorem generate_ring {f : CodedFrame} (href : f.referenceFrame = true)
    (hring : s.reverseQueuedPostDecodeSettingsRing = []) :
    (s.revPlayGeneratePostDecodeParameterSettings c f).reverseQueuedPostDecodeSettingsRing = [] := by
  unfold revPlayGeneratePostDecodeParameterSettings
  rw [if_neg (by simp [href])]
  split
  · rfl
  · rw [calculateFrameIndexAndPts_ring, hring]

theorem discard_ring (s : Parser) (x : Stacked) (hring : s.reverseQueuedPostDecodeSettingsRing = []) :
    (s.discard c x).reverseQueuedPostDecodeSettingsRing = [] := by
  by_cases href : x.frame.referenceFrame = true
  · simp only [discard, if_pos href]
    exact generate_ring c href hring
  · simp only [discard, if_neg href]
    exact hring

theorem purgeUnsatisfied_ring (s : Parser) (x : Stacked) (hring : s.reverseQueuedPostDecodeSettingsRing = []) :
    (s.purgeUnsatisfied c x).reverseQueuedPostDecodeSettingsRing = [] := by
  by_cases href : x.frame.referenceFrame = true
  · simp only [purgeUnsatisfied, if_pos href]
    exact generate_ring c href hring
  · simp only [purgeUnsatisfied, if_neg href]
    exact hring

theorem foldl_ring (hdrop : ∀ s x, s.reverseQueuedPostDecodeSettingsRing = [] →
      (drop s x).reverseQueuedPostDecodeSettingsRing = []) (l : List Stacked)
    (hring : s.reverseQueuedPostDecodeSettingsRing = []) :
    (l.foldl drop s).reverseQueuedPostDecodeSettingsRing = [] := by
  induction l generalizing s with
  | nil => exact hring
  | cons x l ih => exact ih (hdrop s x hring)

end Parser

/-! ### Runs -/

section
variable {c : Configuration} {s s' : Parser}

/-- The buffers that have a stack reference are those on a stack, once each; between the calls the single
frame stack and the ring are empty. -/
structure Sound (c : Configuration) (s : Parser) : Prop where
  single : s.reverseDecodeSingleFrameStack = []
  ring : s.reverseQueuedPostDecodeSettingsRing = []
  accounts : ∀ f, (referenced s.events).count f =
    (dropped s.events).count f + (s.stacked.map (·.frame)).count f
  nodup : (s.stacked.map (·.frame.buffer)).Nodup
  bounded : ∀ x ∈ s.stacked, x.frame.buffer < c.frameBufferCount
  valid : ∀ x ∈ s.stacked, x.listsInvalid = true → x.frame.referenceFrame = false

theorem sound_start (c : Configuration) : Sound c start :=
  ⟨rfl, rfl, fun _ => rfl, List.nodup_nil, by simp [start, Parser.stacked], by simp [start, Parser.stacked]⟩

theorem Sound.subset_range (h : Sound c s) :
    s.stacked.map (·.frame.buffer) ⊆ List.range c.frameBufferCount := by
  intro b hb
  obtain ⟨x, hx, rfl⟩ := List.mem_map.mp hb
  exact List.mem_range.mpr (h.bounded x hx)

theorem Sound.length_le (h : Sound c s) : s.stacked.length ≤ c.frameBufferCount := by
  have hle := (List.subperm_of_subset h.nodup h.subset_range).length_le
  rwa [List.length_map, List.length_range] at hle

theorem Sound.length_lt {b : ℕ} (h : Sound c s) (hb : b < c.frameBufferCount)
    (hfree : b ∉ s.stacked.map (·.frame.buffer)) : s.stacked.length < c.frameBufferCount := by
  have hsubset := List.cons_subset.mpr ⟨List.mem_range.mpr hb, h.subset_range⟩
  have hle := (List.subperm_of_subset (List.nodup_cons.mpr ⟨hfree, h.nodup⟩) hsubset).length_le
  rwa [List.length_cons, List.length_map, List.length_range] at hle

variable {es : List Event}

theorem Sound.of_perm (h : Sound c s) (hes : s'.events = s.events ++ es)
    (hreferenced : referenced es = [])
    (hperm : (s.stacked.map (·.frame)).Perm (dropped es ++ s'.stacked.map (·.frame)))
    (hsingle : s'.reverseDecodeSingleFrameStack = []) (hring : s'.reverseQueuedPostDecodeSettingsRing = [])
    (hvalid : ∀ x ∈ s'.stacked, x.listsInvalid = true → x.frame.referenceFrame = false) : Sound c s' where
  single := hsingle
  ring := hring
  accounts := by
    intro f
    have hcount := hperm.count_eq f
    rw [List.count_append] at hcount
    rw [hes, referenced_append, dropped_append, hreferenced, List.append_nil, List.count_append, h.accounts f]
    omega
  nodup := by
    have hbuffers := hperm.map (·.buffer)
    rw [List.map_append, List.map_map, List.map_map] at hbuffers
    exact (List.nodup_append.mp (hbuffers.nodup_iff.mp h.nodup)).2.1
  bounded := by
    intro x hx
    have hmem : x.frame ∈ s.stacked.map (·.frame) :=
      hperm.mem_iff.mpr (List.mem_append_right _ (List.mem_map_of_mem hx))
    obtain ⟨y, hy, heq⟩ := List.mem_map.mp hmem
    rw [← heq]
    exact h.bounded y hy
  valid := hvalid

theorem Sound.purged (h : Sound c s) (hpurged : Parser.Purged s s' es)
    (hsingle : s'.reverseDecodeSingleFrameStack = []) (hring : s'.reverseQueuedPostDecodeSettingsRing = []) :
    Sound c s' := by
  have hnil : s'.stacked = [] := by simp [Parser.stacked, hpurged.stack, hpurged.unsatisfied]
  refine h.of_perm hpurged.events hpurged.purging.referenced ?_ hsingle hring (by simp [hnil])
  rw [hpurged.purging.dropped, hnil, List.map_nil, List.append_nil]
  refine List.Perm.map _ ?_
  exact List.perm_append_comm.trans ((List.reverse_perm _).symm.append_right _)

theorem perm_waiting (prepared : CodedFrame → Bool) (s : Parser) : (s.stacked.map (·.frame)).Perm
    ((s.reverseDecodeUnsatisfiedReferenceStack.filter (Parser.isLost prepared)).map (·.frame) ++
      (s.waiting prepared).map (·.frame)) := by
  have hfilter := (List.filter_append_perm (Parser.isLost prepared)
    s.reverseDecodeUnsatisfiedReferenceStack).map (·.frame)
  rw [List.map_append] at hfilter
  have hwaiting : ((s.waiting prepared).map (·.frame)).Perm
      ((s.reverseDecodeUnsatisfiedReferenceStack.filter fun x => !Parser.isLost prepared x).map (·.frame) ++
        s.reverseDecodeStack.map (·.frame)) := by
    rw [Parser.waiting, List.map_append, List.map_reverse, List.map_map]
    exact (List.reverse_perm _).append_right _
  refine List.Perm.trans ?_ (hwaiting.symm.append_left _)
  rw [← List.append_assoc, Parser.stacked, List.map_append]
  exact List.perm_append_comm.trans (hfilter.symm.append_right _)

theorem Sound.processed {prepared : CodedFrame → Bool} {lost handled left purged : List Stacked}
    (h : Sound c s)
    (hprocessed : Parser.Processed prepared s s' lost handled left purged es)
    (hsingle : s'.reverseDecodeSingleFrameStack = []) (hring : s'.reverseQueuedPostDecodeSettingsRing = []) :
    Sound c s' := by
  obtain ⟨consumed, hsplit, hperm⟩ := hprocessed.unwound.split
  have hstacked : s'.stacked = s'.reverseDecodeUnsatisfiedReferenceStack := by
    rw [Parser.stacked, hprocessed.stack, List.nil_append]
  have hleft : (purged ++ s'.stacked).Perm left := by
    rw [hstacked]
    rcases hprocessed.deferred with ⟨rfl, hdeferred⟩ | ⟨-, hpurged, hdeferred⟩
    · rw [hdeferred, List.nil_append]
      exact List.reverse_perm left
    · rw [hdeferred, List.append_nil]
      exact hpurged
  have hwaiting : ((s.waiting prepared).map (·.frame)).Perm
      ((handled ++ purged ++ s'.stacked).map (·.frame)) := by
    refine List.Perm.map _ ?_
    rw [hsplit, List.append_assoc]
    exact hperm.symm.append hleft.symm
  refine h.of_perm hprocessed.events hprocessed.referenced ?_ hsingle hring ?_
  · refine (perm_waiting prepared s).trans ?_
    rw [hprocessed.dropped, hprocessed.lost_eq]
    simp only [List.map_append, List.append_assoc] at hwaiting ⊢
    exact hwaiting.append_left _
  · intro x hx hinvalid
    have hmem : x ∈ s.waiting prepared := by
      rw [hsplit]
      exact List.mem_append_right _ (hleft.mem_iff.mp (List.mem_append_right _ hx))
    rcases List.mem_append.mp hmem with hkept | hstack
    · obtain ⟨y, -, rfl⟩ := List.mem_map.mp (List.mem_reverse.mp hkept)
      cases hinvalid
    · exact h.valid x (List.mem_append_left _ hstack) hinvalid

theorem Sound.stack (h : Sound c s) (x : Stacked) (es : List Event) (hb : x.frame.buffer < c.frameBufferCount)
    (hfree : x.frame.buffer ∉ s.stacked.map (·.frame.buffer))
    (hvalid : x.listsInvalid = true → x.frame.referenceFrame = false) (hreferenced : referenced es = [x.frame])
    (hdropped : dropped es = []) :
    Sound c { s with
      reverseDecodeStack := push c.frameBufferCount s.reverseDecodeStack x
      events := s.events ++ es } := by
  have hlt := h.length_lt hb hfree
  rw [Parser.length_stacked] at hlt
  rw [push_of_lt _ (by omega)]
  refine ⟨h.single, h.ring, ?_, List.nodup_cons.mpr ⟨hfree, h.nodup⟩, List.forall_mem_cons.mpr ⟨hb, h.bounded⟩,
    List.forall_mem_cons.mpr ⟨hvalid, h.valid⟩⟩
  intro f
  have hcons : ((x :: s.stacked).map (·.frame)).count f = (s.stacked.map (·.frame)).count f + [x.frame].count f := by
    rw [List.map_cons, ← List.singleton_append, List.count_append, Nat.add_comm]
  refine Eq.trans ?_ (congrArg (_ + ·) hcons.symm)
  rw [referenced_append, dropped_append, hreferenced, hdropped, List.append_nil, List.count_append, h.accounts f]
  omega

theorem Sound.of_same (h : Sound c s) (discarding : Bool) (hreferenced : referenced es = [])
    (hdropped : dropped es = []) :
    Sound c { s with revPlayDiscardingState := discarding, events := s.events ++ es } :=
  h.of_perm rfl hreferenced (by rw [hdropped]; rfl) h.single h.ring h.valid

variable {f : CodedFrame}

theorem Sound.queued {prepared queued : Bool} (h : Sound c s)
    (hb : f.buffer < c.frameBufferCount) (hfree : f.buffer ∉ s.stacked.map (·.frame.buffer)) :
    Sound c (s.revPlayQueueFrameForDecode c f prepared queued) := by
  unfold Parser.revPlayQueueFrameForDecode
  split
  next href =>
    split
    · simpa using h.of_same true (show referenced [] = [] from rfl) rfl
    · split
      · exact h.of_same s.revPlayDiscardingState (show referenced [.forPlayQueueFrameForDecode f] = [] from rfl) rfl
      · have hstack := h.stack ⟨f, false⟩
          [.forPlayQueueFrameForDecode f, .incrementReferenceCount f] hb hfree (by simp) rfl rfl
        simpa [Parser.log] using hstack
  next href =>
    have hnot : f.referenceFrame = false := by simpa using href
    exact h.stack ⟨f, !prepared⟩ [.incrementReferenceCount f] hb hfree (fun _ => hnot) rfl rfl

theorem check_ring (c : Configuration) (f : CodedFrame) (decodeBufferCount : UInt32)
    (hring : s.reverseQueuedPostDecodeSettingsRing = []) :
    (s.revPlayCheckResourceUtilization c decodeBufferCount f).reverseQueuedPostDecodeSettingsRing = [] := by
  unfold Parser.revPlayCheckResourceUtilization
  by_cases h : (s.countUtilization f).revPlayDiscardingState ||
      (s.countUtilization f).exhausted c decodeBufferCount
  · simp only [if_pos h, Parser.revPlayPurgeUnsatisfiedReferenceStack]
    exact Parser.foldl_ring (Parser.purgeUnsatisfied_ring c) _ hring
  · simp only [if_neg h]
    exact hring

theorem Sound.checked {decodeBufferCount : UInt32} (h : Sound c s) :
    Sound c (s.revPlayCheckResourceUtilization c decodeBufferCount f) := by
  obtain ⟨purged, es, hchecked⟩ := Parser.revPlayCheckResourceUtilization_checked c decodeBufferCount s f
  have hring := check_ring c f decodeBufferCount h.ring
  have hperm : s.stacked.Perm
      (purged ++ (s.revPlayCheckResourceUtilization c decodeBufferCount f).stacked) := by
    rw [Parser.stacked, Parser.stacked, hchecked.stack]
    rcases hchecked.unsatisfied with ⟨-, -, rfl, hsame⟩ | ⟨-, rfl, hnil⟩
    · rw [hsame, List.nil_append]
    · rw [hnil, List.append_nil]
      exact List.perm_append_comm
  refine h.of_perm hchecked.events hchecked.purging.referenced ?_ (hchecked.single.trans h.single) hring ?_
  · rw [hchecked.purging.dropped, ← List.map_append]
    exact hperm.map _
  · intro x hx
    exact h.valid x (hperm.mem_iff.mpr (List.mem_append_right _ hx))

theorem step_sound {label : Label} (h : Sound c s) (hstep : step c s label = some s') : Sound c s' := by
  cases label with
  | queueFrameForDecode f prepared queued =>
    simp only [step] at hstep
    split at hstep
    next hfree =>
      obtain rfl := Option.some.inj hstep
      exact h.queued hfree.1 hfree.2
    next => cases hstep
  | checkResourceUtilization f decodeBufferCount =>
    obtain rfl := Option.some.inj hstep
    exact h.checked
  | processDecodeStacks prepared decodeBufferCount =>
    obtain rfl := Option.some.inj hstep
    obtain ⟨_, _, _, _, _, hprocessed⟩ := Parser.revPlayProcessDecodeStacks_processed c prepared
      decodeBufferCount s h.single h.ring h.length_le
    exact h.processed hprocessed rfl rfl
  | purgeDecodeStacks =>
    obtain rfl := Option.some.inj hstep
    obtain ⟨es, hpurged⟩ := Parser.revPlayPurgeDecodeStacks_purged c s h.length_le
    exact h.purged hpurged (hpurged.single.trans h.single)
      (Parser.foldl_ring (Parser.discard_ring c) _ h.ring)

variable {labels : List Label}

theorem sound_of_run (h : Lts.run (step c) start labels = some s) : Sound c s :=
  Lts.run_invariant (fun _ _ _ hs hstep => step_sound hs hstep) (sound_start c) h

/-- **Reverse play**: in any sequence of calls every stack reference is that of a buffer on a stack or was
dropped once.  When the stacks are processed, what is not lost is handed on up to the open group, which is
deferred in order, or dropped when play can no longer be smooth; reference frames get their indices, and the
others when a reference frame is handled after them.  When the stacks are purged, everything is dropped. -/
theorem run_reversePlay (h : Lts.run (step c) start labels = some s) :
    Sound c s ∧
      (∀ prepared decodeBufferCount, ∃ s', step c s (.processDecodeStacks prepared decodeBufferCount) = some s' ∧
        ∃ lost handled left purged es, Parser.Processed prepared s s' lost handled left purged es) ∧
      ∃ s', step c s .purgeDecodeStacks = some s' ∧ ∃ es, Parser.Purged s s' es := by
  have hsound := sound_of_run h
  refine ⟨hsound, ?_, _, rfl, Parser.revPlayPurgeDecodeStacks_purged c s hsound.length_le⟩
  intro prepared decodeBufferCount
  exact ⟨_, rfl, Parser.revPlayProcessDecodeStacks_processed c prepared decodeBufferCount s hsound.single
    hsound.ring hsound.length_le⟩

end

/-- A small pool. -/
def smallPool : Configuration := ⟨4, 32, 32, 16⟩

/-- A picture that is no reference. -/
def bPicture : CodedFrame := ⟨0, false, true, true, false, true⟩

/-- A picture that is a reference. -/
def iPicture : CodedFrame := ⟨1, true, true, true, false, true⟩

/-- A group of the two. -/
theorem run_reversePlay_group :
    ∃ s, Lts.run (step smallPool) start
        [.queueFrameForDecode iPicture true true, .queueFrameForDecode bPicture true true] = some s ∧
      Sound smallPool s ∧
      (∀ prepared decodeBufferCount,
        ∃ s', step smallPool s (.processDecodeStacks prepared decodeBufferCount) = some s' ∧
          ∃ lost handled left purged es, Parser.Processed prepared s s' lost handled left purged es) ∧
      ∃ s', step smallPool s .purgeDecodeStacks = some s' ∧ ∃ es, Parser.Purged s s' es :=
  ⟨_, rfl, run_reversePlay (show Lts.run (step smallPool) start
    [.queueFrameForDecode iPicture true true, .queueFrameForDecode bPicture true true] = _ from rfl)⟩

/-- When the stacks are purged, a picture that waits for a reference frame is dropped and not handed on. -/
theorem purge_without_handingOn :
    ∃ s purged,
      Lts.run (step smallPool) start [.queueFrameForDecode bPicture true true] = some s ∧
      bPicture ∈ s.stacked.map (·.frame) ∧
      step smallPool s .purgeDecodeStacks = some purged ∧ bPicture ∈ dropped purged.events ∧
      bPicture ∉ handedOn purged.events ∧
      bPicture ∉ purged.reverseDecodeUnsatisfiedReferenceStack.map (·.frame) :=
  ⟨_, _, rfl, by decide, rfl, by decide, by decide, by decide⟩

/-- When a group without a reference frame is processed, its pictures are decoded, and the ring is
flushed without a display frame index for them. -/
example : ∃ processed,
    Lts.run (step smallPool) start [.queueFrameForDecode bPicture true true,
      .processDecodeStacks (fun _ => true) 16] = some processed ∧
    bPicture ∈ handedOn processed.events ∧ bPicture ∉ indexed processed.events ∧
    processed.reverseQueuedPostDecodeSettingsRing = [] :=
  ⟨_, rfl, by decide, by decide, rfl⟩

end Player2.ReverseDecode

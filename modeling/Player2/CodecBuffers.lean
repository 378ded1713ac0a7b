import Player2.CodecCommands
import Mathlib.Data.List.Nodup

/-! # Decode buffers of a codec

A buffer that was obtained leaves the codec once: it is inserted in the output ring, or it is released
because decodes have been discarded.  Until then it is the current one and open for further decodes, or
decodes into it are in progress and the last of them will make it leave, or it is just being released.

While a buffer is being released the lock is not held, and the index of the buffer may be obtained
again; when the lock is taken again the current index is reset if it is equal to that of the released
buffer, which is right only if it does not designate a later use. -/

namespace Player2.Codec

/-! ### Buffers and decodes in progress -/

namespace InputPhase

/-- The buffer that is being released. -/
def beingReleased : InputPhase → Option (ℕ × ℕ)
  | .dropping i use => some (i, use)
  | _ => none

/-- The buffer that has been released before the lock is taken again. -/
def hasReleased : InputPhase → Option (ℕ × ℕ)
  | .dropped i use => some (i, use)
  | _ => none

/-- The buffer that is going to be output. -/
def toOutput : InputPhase → Option ℕ
  | .closing i _ => some i
  | _ => none

/-- The current buffer, if there is still one. -/
def subject : InputPhase → Option ℕ
  | .launched _ i _ => some i
  | .counted _ i _ _ => some i
  | .failed i _ => some i
  | .dropping i _ => some i
  | .dropped i _ => some i
  | _ => none

/-- There may be further decodes into the current buffer. -/
def mayBeOpen : InputPhase → Bool
  | .closed _ => false
  | .launched f _ _ => !f.lastDecodeIntoThisBuffer
  | .counted f _ _ _ => !f.lastDecodeIntoThisBuffer
  | .sent f => !f.lastDecodeIntoThisBuffer
  | .dropping _ _ => false
  | .dropped _ _ => false
  | _ => true

/-- There may be no further decodes into the current buffer. -/
def mayBeShut : InputPhase → Bool
  | .closed _ => true
  | .launched f _ _ => f.lastDecodeIntoThisBuffer
  | .counted f _ _ _ => f.lastDecodeIntoThisBuffer
  | .sent f => f.lastDecodeIntoThisBuffer
  | .failed _ _ => true
  | .dropping _ _ => true
  | .dropped _ _ => true
  | _ => false

/-- The command of a phase is the one that the phase is about. -/
def Fits : InputPhase → Prop
  | .parametersCounted _ c => c.kind = .setGlobalTransformParams
  | .counted _ i use c => c.kind = .transform i use
  | _ => True

end InputPhase

namespace CallbackPhase

/-- The buffer that is being released. -/
def beingReleased : CallbackPhase → Option (ℕ × ℕ)
  | .dropping _ i use => some (i, use)
  | _ => none

/-- The buffer that has been released before the lock is taken again. -/
def hasReleased : CallbackPhase → Option (ℕ × ℕ)
  | .dropped _ i use => some (i, use)
  | _ => none

end CallbackPhase

/-- The buffers of a codec. -/
structure BufferView where
  bufferState : ℕ → BufferState
  uses : ℕ
  -- How often a use has left.
  left : ℕ → ℕ
  -- The decodes in progress.
  contexts : List (ℕ × ℕ)
  dropping : List (ℕ × ℕ)
  inputDropped : Option (ℕ × ℕ)
  callbackDropped : Option (ℕ × ℕ)
  current : Option ℕ
  closing : Option ℕ
  subject : Option ℕ
  mayBeOpen : Bool
  mayBeShut : Bool

namespace CodecState

/-- How often a use of a buffer has left the codec. -/
def leftCount (s : CodecState) (use : ℕ) : ℕ :=
  s.outputRing.count (.frame use) + s.released.count use

/-- The decodes in progress. -/
def contexts (s : CodecState) : List (ℕ × ℕ) :=
  s.transformer.filterMap (fun c => c.kind.context) ++ s.input.context.toList

/-- The buffers that are being released. -/
def dropping (s : CodecState) : List (ℕ × ℕ) :=
  s.callback.beingReleased.toList ++ s.input.beingReleased.toList

/-- The buffers of a codec. -/
def bufferView (s : CodecState) : BufferView where
  bufferState := s.bufferState
  uses := s.uses
  left := s.leftCount
  contexts := s.contexts
  dropping := s.dropping
  inputDropped := s.input.hasReleased
  callbackDropped := s.callback.hasReleased
  current := s.currentDecodeBufferIndex
  closing := s.input.toOutput
  subject := s.input.subject
  mayBeOpen := s.input.mayBeOpen
  mayBeShut := s.input.mayBeShut

end CodecState

/-! ### What a step does to the buffers -/

namespace BufferView

/-- Reset the current buffer if it has a certain index. -/
def forgetIndex (v : BufferView) (i : ℕ) : Option ℕ := if v.current = some i then none else v.current

/-- A use leaves. -/
def leave (v : BufferView) (use : Option ℕ) : ℕ → ℕ :=
  fun u => v.left u + if use = some u then 1 else 0

/-- A decode into a buffer is no longer in progress. -/
def decodeDone (v : BufferView) (i : ℕ) : ℕ → BufferState :=
  Function.update v.bufferState i
    { v.bufferState i with decodesInProgress := (v.bufferState i).decodesInProgress - 1 }

/-- What a step does to the buffers. -/
inductive Effect : BufferView → BufferView → Prop
  | same (v : BufferView) : Effect v v
  | next {v w x : BufferView} (h : Effect v w) (h' : Effect w x) : Effect v x
  -- Only the phase of `Input` changes.
  | phase (v : BufferView) {closing subject : Option ℕ} {mayBeOpen mayBeShut : Bool}
      (hclosing : closing = none ∨ closing = v.current ∧ mayBeShut = false)
      (hsubject : subject = none ∨ subject = v.subject)
      (hopen : v.mayBeOpen = true → mayBeOpen = true) (hshut : v.mayBeShut = true → mayBeShut = true) :
      Effect v { v with
        closing := closing
        subject := subject
        mayBeOpen := mayBeOpen
        mayBeShut := mayBeShut
        inputDropped := none }
  -- The release after a failed decode is over.
  | settle (v : BufferView) (i : ℕ) (hsubject : v.subject = some i) (hcurrent : v.current ≠ some i) :
      Effect v { v with subject := none, mayBeOpen := true, mayBeShut := false }
  | close (v : BufferView) (i : ℕ) (hclosing : v.closing = some i) :
      Effect v { v with
        bufferState := Function.update v.bufferState i
          { v.bufferState i with outputOnDecodesComplete := true }
        left :=
          if (v.bufferState i).decodesInProgress = 0 then v.leave (v.bufferState i).use else v.left
        closing := none
        mayBeOpen := false
        mayBeShut := true }
  | forget (v : BufferView) (hshut : v.mayBeOpen = false) :
      Effect v { v with
        current := none
        closing := none
        subject := none
        inputDropped := none
        mayBeOpen := true
        mayBeShut := false }
  | take (v : BufferView) (i : ℕ) (hnone : v.current = none) (hfree : (v.bufferState i).use = none)
      (hdropped : v.inputDropped = none) (hclosing : v.closing = none)
      (hsubject : v.subject = none) (hopen : v.mayBeOpen = true) :
      Effect v { v with
        bufferState := Function.update v.bufferState i ⟨some v.uses, false, 0⟩
        current := some i
        uses := v.uses + 1 }
  | launch (v : BufferView) (i use : ℕ) (last : Bool) (hcurrent : v.current = some i)
      (huse : (v.bufferState i).use = some use) (hclosing : v.closing = none)
      (hopen : v.mayBeShut = false) :
      Effect v { v with
        bufferState := Function.update v.bufferState i { v.bufferState i with
          outputOnDecodesComplete := last
          decodesInProgress := (v.bufferState i).decodesInProgress + 1 }
        contexts := v.contexts ++ [(i, use)]
        subject := some i
        mayBeOpen := !last
        mayBeShut := last }
  -- A decode ends, and there will be others.
  | kept (v : BufferView) (i use : ℕ) (before after : List (ℕ × ℕ))
      (hcontexts : v.contexts = before ++ (i, use) :: after)
      (hflag : (v.bufferState i).outputOnDecodesComplete = false) :
      Effect v { v with bufferState := v.decodeDone i, contexts := before ++ after }
  | keptInput (v : BufferView) (i use : ℕ) (before after : List (ℕ × ℕ))
      (hcontexts : v.contexts = before ++ (i, use) :: after)
      (hflag : (v.bufferState i).outputOnDecodesComplete = false) (hsubject : v.subject = some i) :
      Effect v { v with
        bufferState := v.decodeDone i
        contexts := before ++ after
        subject := none
        mayBeOpen := true
        mayBeShut := false }
  | keptShut (v : BufferView) (i use : ℕ) (before after : List (ℕ × ℕ))
      (hcontexts : v.contexts = before ++ (i, use) :: after)
      (hflag : (v.bufferState i).outputOnDecodesComplete = true)
      (hmore : 1 < (v.bufferState i).decodesInProgress) :
      Effect v { v with
        bufferState := v.decodeDone i
        contexts := before ++ after
        current := v.forgetIndex i }
  | inserted (v : BufferView) (i use : ℕ) (before after : List (ℕ × ℕ))
      (hcontexts : v.contexts = before ++ (i, use) :: after)
      (hflag : (v.bufferState i).outputOnDecodesComplete = true)
      (hlast : (v.bufferState i).decodesInProgress ≤ 1) :
      Effect v { v with
        bufferState := v.decodeDone i
        contexts := before ++ after
        current := v.forgetIndex i
        left := v.leave (v.bufferState i).use }
  | discarding (v : BufferView) (i use : ℕ) (before after before' after' : List (ℕ × ℕ))
      (hcontexts : v.contexts = before ++ (i, use) :: after)
      (hdropping : v.dropping = before' ++ after')
      (hflag : (v.bufferState i).outputOnDecodesComplete = true)
      (hlast : (v.bufferState i).decodesInProgress ≤ 1) :
      Effect v { v with
        bufferState := v.decodeDone i
        contexts := before ++ after
        dropping := before' ++ (i, use) :: after' }
  -- `Input` goes on with the release of a buffer of its own.
  | inputDropping (v : BufferView) (i use : ℕ) (hmem : (i, use) ∈ v.dropping)
      (hclosing : v.closing = none) (hsubject : v.subject = some i) :
      Effect v { v with mayBeOpen := false, mayBeShut := true }
  | drop (v : BufferView) (i use : ℕ) (before after : List (ℕ × ℕ))
      (hdropping : v.dropping = before ++ (i, use) :: after) (byInput : Bool) :
      Effect v { v with
        dropping := before ++ after
        left := v.leave (v.bufferState i).use
        inputDropped := if byInput then some (i, use) else v.inputDropped
        callbackDropped := if byInput then v.callbackDropped else some (i, use) }
  | relock (v : BufferView) (i use : ℕ) (hdropped : v.callbackDropped = some (i, use))
      (hcurrent : v.current = some i →
        (v.bufferState i).use = some use ∨ (v.bufferState i).use = none) :
      Effect v { v with current := v.forgetIndex i, callbackDropped := none }
  | relockInput (v : BufferView) (i : ℕ) (hsubject : v.subject = some i)
      (hshut : v.mayBeOpen = false) :
      Effect v { v with
        current := v.forgetIndex i
        closing := none
        subject := none
        inputDropped := none
        mayBeOpen := true
        mayBeShut := false }
  | free (v : BufferView) (i use : ℕ) (huse : (v.bufferState i).use = some use)
      (hleft : 0 < v.left use) :
      Effect v { v with bufferState := Function.update v.bufferState i ⟨none, false, 0⟩ }

/-- Further decodes into a buffer are to come. -/
def Open (v : BufferView) (i : ℕ) : Prop :=
  (∃ use, (v.bufferState i).use = some use) ∧ (v.bufferState i).outputOnDecodesComplete = false

/-- No further decodes into a buffer will come, or it has been freed. -/
def Shut (v : BufferView) (i : ℕ) : Prop :=
  (v.bufferState i).use = none ∨ (v.bufferState i).outputOnDecodesComplete = true

/-- A buffer will leave. -/
def Stays (v : BufferView) (i use : ℕ) : Prop :=
  v.current = some i ∧ (v.bufferState i).outputOnDecodesComplete = false ∨
    (v.bufferState i).outputOnDecodesComplete = true ∧ 0 < (v.bufferState i).decodesInProgress ∨
    (i, use) ∈ v.dropping

/-- Every buffer is accounted for. -/
structure Tracked (v : BufferView) : Prop where
  injective : ∀ i j use, (v.bufferState i).use = some use → (v.bufferState j).use = some use → i = j
  fresh : ∀ i use, (v.bufferState i).use = some use → use < v.uses
  counted : ∀ i, (v.bufferState i).decodesInProgress = v.contexts.countP (fun p => p.1 = i)
  inFlight : ∀ p ∈ v.contexts, (v.bufferState p.1).use = some p.2
  dropping : ∀ p ∈ v.dropping, (v.bufferState p.1).use = some p.2 ∧
    (v.bufferState p.1).outputOnDecodesComplete = true ∧
    (v.bufferState p.1).decodesInProgress = 0 ∧ v.left p.2 = 0
  droppingOnce : v.dropping.Nodup
  left : ∀ use, 0 < v.left use → use < v.uses ∧ ∀ i, (v.bufferState i).use = some use →
    (v.bufferState i).outputOnDecodesComplete = true ∧ (v.bufferState i).decodesInProgress = 0
  once : ∀ use, v.left use ≤ 1
  stays : ∀ use, use < v.uses → v.left use = 0 →
    ∃ i, (v.bufferState i).use = some use ∧ v.Stays i use
  current : ∀ i, v.current = some i →
    v.mayBeOpen = true ∧ v.Open i ∨ v.mayBeShut = true ∧ v.Shut i
  subject : ∀ i, v.subject = some i → ∀ j, v.current = some j → j = i
  closing : ∀ i, v.closing = some i → v.current = some i ∧ v.mayBeShut = false
  inputDropped : ∀ i use, v.inputDropped = some (i, use) → 0 < v.left use ∧
    ((v.bufferState i).use = some use ∨ (v.bufferState i).use = none)
  callbackDropped : ∀ i use, v.callbackDropped = some (i, use) → 0 < v.left use

@[simp, grind =] theorem decodeDone_use (v : BufferView) (i j : ℕ) :
    (v.decodeDone i j).use = (v.bufferState j).use := by
  unfold decodeDone
  rw [Function.update_apply]
  split
  next h => rw [h]
  next => rfl

@[simp, grind =] theorem decodeDone_outputOnDecodesComplete (v : BufferView) (i j : ℕ) :
    (v.decodeDone i j).outputOnDecodesComplete = (v.bufferState j).outputOnDecodesComplete := by
  unfold decodeDone
  rw [Function.update_apply]
  split
  next h => rw [h]
  next => rfl

theorem decodeDone_decodesInProgress (v : BufferView) (i j : ℕ) :
    (v.decodeDone i j).decodesInProgress =
      (v.bufferState j).decodesInProgress - if j = i then 1 else 0 := by
  unfold decodeDone
  rw [Function.update_apply]
  split
  next h => rw [h]
  next => rfl

variable {v : BufferView}

theorem Tracked.phase {closing subject : Option ℕ} {mayBeOpen mayBeShut : Bool}
    (h : v.Tracked) (hclosing : closing = none ∨ closing = v.current ∧ mayBeShut = false)
    (hsubject : subject = none ∨ subject = v.subject)
    (hopen : v.mayBeOpen = true → mayBeOpen = true) (hshut : v.mayBeShut = true → mayBeShut = true) :
    Tracked { v with
      closing := closing
      subject := subject
      mayBeOpen := mayBeOpen
      mayBeShut := mayBeShut
      inputDropped := none } := { h with
  current i hi := (h.current i hi).imp (And.imp_left hopen) (And.imp_left hshut)
  subject i hi := by
      rcases hsubject with rfl | rfl
      · cases hi
      · exact h.subject i hi
  closing i hi := by
      rcases hclosing with rfl | ⟨rfl, hopen⟩
      · cases hi
      · exact ⟨hi, hopen⟩
  inputDropped _ _ hi := by cases hi }

variable {i use : ℕ}

theorem Tracked.settle (h : v.Tracked) (hsubject : v.subject = some i)
    (hopen : v.current = some i → v.Open i) :
    Tracked { v with subject := none, mayBeOpen := true, mayBeShut := false } := { h with
  current j hj := by
      have hji : j = i := h.subject i hsubject j hj
      rw [hji] at hj ⊢
      exact .inl ⟨rfl, hopen hj⟩
  subject _ hi := by cases hi
  closing i hi := ⟨(h.closing i hi).1, rfl⟩ }

theorem Tracked.inProgress_pos {p : ℕ × ℕ} (h : v.Tracked) (hp : p ∈ v.contexts) :
    0 < (v.bufferState p.1).decodesInProgress := by
  rw [h.counted p.1]
  exact List.countP_pos_iff.mpr ⟨p, hp, decide_eq_true rfl⟩

theorem Tracked.close (h : v.Tracked) (hclosing : v.closing = some i) :
    Tracked { v with
      bufferState := Function.update v.bufferState i
        { v.bufferState i with outputOnDecodesComplete := true }
      left := if (v.bufferState i).decodesInProgress = 0 then v.leave (v.bufferState i).use else v.left
      closing := none
      mayBeOpen := false
      mayBeShut := true } := by
  obtain ⟨hcurrent, hopen⟩ := h.closing i hclosing
  obtain ⟨-, ⟨use, huse⟩, hflag⟩ | ⟨hshut, -⟩ := h.current i hcurrent
  case inr => exact absurd (hshut.symm.trans hopen) Bool.noConfusion
  have hleft : ∀ w, (if (v.bufferState i).decodesInProgress = 0 then v.leave (v.bufferState i).use
      else v.left) w = v.left w + if (v.bufferState i).decodesInProgress = 0 ∧ w = use then 1 else 0 := by
    grind [leave]
  have hzero : v.left use = 0 := by
    have := h.left use
    grind
  have hstate : ∀ j, Function.update v.bufferState i
      { v.bufferState i with outputOnDecodesComplete := true } j =
      if j = i then ⟨some use, true, (v.bufferState i).decodesInProgress⟩ else v.bufferState j := by
    grind [Function.update_apply]
  generalize (if (v.bufferState i).decodesInProgress = 0 then v.leave (v.bufferState i).use
      else v.left) = left' at hleft ⊢
  generalize Function.update v.bufferState i
      { v.bufferState i with outputOnDecodesComplete := true } = states at hstate ⊢
  obtain ⟨h1, h2, h3, h4, h5, h6, h7, h8, h9, h10, h11, h12, h13, h14⟩ := h
  constructor
  case droppingOnce => exact h6
  case stays => grind [Stays]
  case current => grind [Shut]
  case subject => exact h11
  all_goals grind

theorem Tracked.forget (h : v.Tracked) (hshut : v.mayBeOpen = false) :
    Tracked { v with
      current := none
      closing := none
      subject := none
      inputDropped := none
      mayBeOpen := true
      mayBeShut := false } := by
  have hnone : ∀ i, v.current = some i → (v.bufferState i).use = none ∨
      (v.bufferState i).outputOnDecodesComplete = true := by
    intro i hi
    obtain ⟨hopen, -⟩ | ⟨-, hshut⟩ := h.current i hi
    · exact absurd (hopen.symm.trans hshut) Bool.noConfusion
    · exact hshut
  refine { h with
    stays := ?stays
    current := ?current
    subject := ?subject
    closing := ?closing
    inputDropped := ?inputDropped }
  case stays =>
    intro use huses hleft
    obtain ⟨i, huse, ⟨hcurrent, hopen⟩ | hstays⟩ := h.stays use huses hleft
    · rcases hnone i hcurrent with hfree | hshut
      · rw [huse] at hfree
        cases hfree
      · rw [hopen] at hshut
        cases hshut
    · exact ⟨i, huse, .inr hstays⟩
  case current =>
    intro i hi
    cases hi
  case subject =>
    intro i hi
    cases hi
  case closing =>
    intro i hi
    cases hi
  case inputDropped =>
    intro i use hi
    cases hi

theorem Tracked.take (h : v.Tracked) (hnone : v.current = none)
    (hfree : (v.bufferState i).use = none) (hdropped : v.inputDropped = none)
    (hclosing : v.closing = none) (hsubject : v.subject = none) (hopen : v.mayBeOpen = true) :
    Tracked { v with
      bufferState := Function.update v.bufferState i ⟨some v.uses, false, 0⟩
      current := some i
      uses := v.uses + 1 } := by
  have hstate : ∀ j, Function.update v.bufferState i ⟨some v.uses, false, 0⟩ j =
      if j = i then ⟨some v.uses, false, 0⟩ else v.bufferState j := by
    grind [Function.update_apply]
  have hcount : v.contexts.countP (fun p => p.1 = i) = 0 := by
    rw [List.countP_eq_zero]
    intro p hp
    have := h.inFlight p hp
    grind
  generalize Function.update v.bufferState i ⟨some v.uses, false, 0⟩ = states at hstate ⊢
  obtain ⟨h1, h2, h3, h4, h5, h6, h7, h8, h9, h10, h11, h12, h13, h14⟩ := h
  constructor
  case droppingOnce => exact h6
  case once => exact h8
  case stays => grind [Stays]
  case current => grind [Open]
  case callbackDropped => exact h14
  all_goals grind

theorem Tracked.launch (last : Bool) (h : v.Tracked)
    (hcurrent : v.current = some i) (huse : (v.bufferState i).use = some use)
    (hclosing : v.closing = none) (hopen : v.mayBeShut = false) :
    Tracked { v with
      bufferState := Function.update v.bufferState i { v.bufferState i with
        outputOnDecodesComplete := last
        decodesInProgress := (v.bufferState i).decodesInProgress + 1 }
      contexts := v.contexts ++ [(i, use)]
      subject := some i
      mayBeOpen := !last
      mayBeShut := last } := by
  obtain ⟨-, -, hflag⟩ | ⟨hshut, -⟩ := h.current i hcurrent
  case inr => exact absurd (hshut.symm.trans hopen) Bool.noConfusion
  have hstate : ∀ j, Function.update v.bufferState i { v.bufferState i with
      outputOnDecodesComplete := last
      decodesInProgress := (v.bufferState i).decodesInProgress + 1 } j =
      if j = i then ⟨some use, last, (v.bufferState i).decodesInProgress + 1⟩ else v.bufferState j := by
    grind [Function.update_apply]
  generalize Function.update v.bufferState i { v.bufferState i with
      outputOnDecodesComplete := last
      decodesInProgress := (v.bufferState i).decodesInProgress + 1 } = states at hstate ⊢
  obtain ⟨h1, h2, h3, h4, h5, h6, h7, h8, h9, h10, h11, h12, h13, h14⟩ := h
  constructor
  case droppingOnce => exact h6
  case once => exact h8
  case stays => grind [Stays]
  case current => grind [Open, Shut]
  case callbackDropped => exact h14
  all_goals grind

variable {before after : List (ℕ × ℕ)}

theorem Tracked.kept (h : v.Tracked)
    (hcontexts : v.contexts = before ++ (i, use) :: after)
    (hflag : (v.bufferState i).outputOnDecodesComplete = false) :
    Tracked { v with bufferState := v.decodeDone i, contexts := before ++ after } := by
  have hmem : ∀ p ∈ before ++ after, p ∈ v.contexts := by grind
  have hdone := v.decodeDone_decodesInProgress i
  obtain ⟨h1, h2, h3, h4, h5, h6, h7, h8, h9, h10, h11, h12, h13, h14⟩ := h
  constructor
  case droppingOnce => exact h6
  case once => exact h8
  case stays => grind [Stays]
  case current => grind [Open, Shut]
  case subject => exact h11
  case closing => exact h12
  case callbackDropped => exact h14
  all_goals grind

theorem Tracked.keptShut (h : v.Tracked)
    (hcontexts : v.contexts = before ++ (i, use) :: after)
    (hflag : (v.bufferState i).outputOnDecodesComplete = true)
    (hmore : 1 < (v.bufferState i).decodesInProgress) :
    Tracked { v with
      bufferState := v.decodeDone i
      contexts := before ++ after
      current := v.forgetIndex i } := by
  have hmem : ∀ p ∈ before ++ after, p ∈ v.contexts := by grind
  have hdone := v.decodeDone_decodesInProgress i
  have hforget : ∀ j, v.forgetIndex i = some j ↔ v.current = some j ∧ j ≠ i := by grind [forgetIndex]
  obtain ⟨h1, h2, h3, h4, h5, h6, h7, h8, h9, h10, h11, h12, h13, h14⟩ := h
  constructor
  case droppingOnce => exact h6
  case once => exact h8
  case stays => grind [Stays]
  case current => grind [Open, Shut]
  case closing => grind [Open, Shut]
  case callbackDropped => exact h14
  all_goals grind

theorem Tracked.inserted (h : v.Tracked)
    (hcontexts : v.contexts = before ++ (i, use) :: after)
    (hflag : (v.bufferState i).outputOnDecodesComplete = true)
    (hlast : (v.bufferState i).decodesInProgress ≤ 1) :
    Tracked { v with
      bufferState := v.decodeDone i
      contexts := before ++ after
      current := v.forgetIndex i
      left := v.leave (v.bufferState i).use } := by
  have hmem : ∀ p ∈ before ++ after, p ∈ v.contexts := by grind
  have hdone := v.decodeDone_decodesInProgress i
  have hforget : ∀ j, v.forgetIndex i = some j ↔ v.current = some j ∧ j ≠ i := by grind [forgetIndex]
  have huse : (v.bufferState i).use = some use := h.inFlight (i, use) (by grind)
  have hpos : 0 < (v.bufferState i).decodesInProgress := h.inProgress_pos (p := (i, use)) (by grind)
  have hleave : ∀ w, v.leave (v.bufferState i).use w = v.left w + if w = use then 1 else 0 := by
    grind [leave]
  have hzero : v.left use = 0 := by
    have := h.left use
    grind
  obtain ⟨h1, h2, h3, h4, h5, h6, h7, h8, h9, h10, h11, h12, h13, h14⟩ := h
  constructor
  case droppingOnce => exact h6
  case stays => grind [Stays]
  case current => grind [Open, Shut]
  case closing => grind [Open, Shut]
  all_goals grind

theorem Tracked.discarding {before after before' after' : List (ℕ × ℕ)}
    (h : v.Tracked) (hcontexts : v.contexts = before ++ (i, use) :: after)
    (hdropping : v.dropping = before' ++ after')
    (hflag : (v.bufferState i).outputOnDecodesComplete = true)
    (hlast : (v.bufferState i).decodesInProgress ≤ 1) :
    Tracked { v with
      bufferState := v.decodeDone i
      contexts := before ++ after
      dropping := before' ++ (i, use) :: after' } := by
  have hmem : ∀ p ∈ before ++ after, p ∈ v.contexts := by grind
  have hdone := v.decodeDone_decodesInProgress i
  have huse : (v.bufferState i).use = some use := h.inFlight (i, use) (by grind)
  have hpos : 0 < (v.bufferState i).decodesInProgress := h.inProgress_pos (p := (i, use)) (by grind)
  have hzero : v.left use = 0 := by
    have := h.left use
    grind
  have hnew : (i, use) ∉ v.dropping := by
    intro hp
    have := h.dropping _ hp
    grind
  have hdroppingMem : ∀ p, p ∈ before' ++ (i, use) :: after' ↔ p = (i, use) ∨ p ∈ v.dropping := by grind
  obtain ⟨h1, h2, h3, h4, h5, h6, h7, h8, h9, h10, h11, h12, h13, h14⟩ := h
  constructor
  case droppingOnce => exact List.nodup_middle.mpr (List.nodup_cons.mpr ⟨hdropping ▸ hnew, hdropping ▸ h6⟩)
  case once => exact h8
  case stays => grind [Stays]
  case current => grind [Open, Shut]
  case subject => exact h11
  case closing => exact h12
  case callbackDropped => exact h14
  all_goals grind

theorem Tracked.inputDropping (h : v.Tracked)
    (hmem : (i, use) ∈ v.dropping) (hclosing : v.closing = none) (hsubject : v.subject = some i) :
    Tracked { v with mayBeOpen := false, mayBeShut := true } := by
  obtain ⟨-, hflag, -⟩ := h.dropping _ hmem
  refine { h with
    current := ?current
    closing := ?closing }
  case current =>
    intro j hj
    rw [h.subject i hsubject j hj]
    exact .inr ⟨rfl, .inr hflag⟩
  case closing =>
    intro j hj
    rw [hclosing] at hj
    cases hj

theorem Tracked.drop (h : v.Tracked)
    (hdropping : v.dropping = before ++ (i, use) :: after) (byInput : Bool) :
    Tracked { v with
      dropping := before ++ after
      left := v.leave (v.bufferState i).use
      inputDropped := if byInput then some (i, use) else v.inputDropped
      callbackDropped := if byInput then v.callbackDropped else some (i, use) } := by
  obtain ⟨huse, hflag, hprogress, hzero⟩ := h.dropping (i, use) (by grind)
  have hnodup : (before ++ (i, use) :: after).Nodup := hdropping ▸ h.droppingOnce
  have hdroppingMem : ∀ p, p ∈ before ++ after ↔ p ∈ v.dropping ∧ p ≠ (i, use) := by
    have := (List.nodup_middle.mp hnodup)
    grind
  have hleave : ∀ w, v.leave (v.bufferState i).use w = v.left w + if w = use then 1 else 0 := by
    grind [leave]
  have ⟨h1, h2, h3, h4, h5, h6, h7, h8, h9, h10, h11, h12, h13, h14⟩ := h
  refine { h with
    dropping := ?dropping
    droppingOnce := ?droppingOnce
    left := ?left
    once := ?once
    stays := ?stays
    inputDropped := ?inputDropped
    callbackDropped := ?callbackDropped }
  case droppingOnce => exact (List.nodup_cons.mp (List.nodup_middle.mp hnodup)).2
  case stays => grind [Stays]
  all_goals grind

theorem Tracked.relock (h : v.Tracked)
    (hdropped : v.callbackDropped = some (i, use))
    (hcurrent : v.current = some i → (v.bufferState i).use = some use ∨ (v.bufferState i).use = none) :
    Tracked { v with current := v.forgetIndex i, callbackDropped := none } := by
  have hforget : ∀ j, v.forgetIndex i = some j ↔ v.current = some j ∧ j ≠ i := by grind [forgetIndex]
  have ⟨h1, h2, h3, h4, h5, h6, h7, h8, h9, h10, h11, h12, h13, h14⟩ := h
  refine { h with
    stays := ?stays
    current := ?current
    subject := ?subject
    closing := ?closing
    callbackDropped := ?callbackDropped }
  case stays => grind [Stays]
  case current => grind [Open, Shut]
  case subject => grind
  case closing => grind [Open, Shut]
  case callbackDropped => grind

theorem Tracked.relockInput (h : v.Tracked) (hsubject : v.subject = some i)
    (hshut : v.mayBeOpen = false) :
    Tracked { v with
      current := v.forgetIndex i
      closing := none
      subject := none
      inputDropped := none
      mayBeOpen := true
      mayBeShut := false } := by
  have hnone : v.forgetIndex i = none := by
    unfold forgetIndex
    split
    next => rfl
    next hother =>
      cases hcurrent : v.current with
      | none => rfl
      | some j => exact absurd (h.subject i hsubject j hcurrent ▸ hcurrent) hother
  rw [hnone]
  exact h.forget hshut

theorem Tracked.free (h : v.Tracked)
    (huse : (v.bufferState i).use = some use) (hleft : 0 < v.left use) :
    Tracked { v with bufferState := Function.update v.bufferState i ⟨none, false, 0⟩ } := by
  have hstate : ∀ j, Function.update v.bufferState i ⟨none, false, 0⟩ j =
      if j = i then ⟨none, false, 0⟩ else v.bufferState j := by
    grind [Function.update_apply]
  generalize Function.update v.bufferState i ⟨none, false, 0⟩ = states at hstate ⊢
  obtain ⟨h1, h2, h3, h4, h5, h6, h7, h8, h9, h10, h11, h12, h13, h14⟩ := h
  constructor
  case droppingOnce => exact h6
  case once => exact h8
  case stays => grind [Stays]
  case current => grind [Open, Shut]
  case subject => exact h11
  case closing => exact h12
  case callbackDropped => exact h14
  all_goals grind

theorem Tracked.effect {v w : BufferView} (heffect : Effect v w) (h : v.Tracked) : w.Tracked := by
  induction heffect with
  | same v => exact h
  | next _ _ ih ih' => exact ih' (ih h)
  | phase v hclosing hsubject hopen hshut => exact h.phase hclosing hsubject hopen hshut
  | settle v i hsubject hcurrent => exact h.settle hsubject fun hi => absurd hi hcurrent
  | close v i hclosing => exact h.close hclosing
  | forget v hshut => exact h.forget hshut
  | take v i hnone hfree hdropped hclosing hsubject hopen =>
    exact h.take hnone hfree hdropped hclosing hsubject hopen
  | launch v i use last hcurrent huse hclosing hopen =>
    exact h.launch last hcurrent huse hclosing hopen
  | kept v i use before after hcontexts hflag => exact h.kept hcontexts hflag
  | keptInput v i use before after hcontexts hflag hsubject =>
    have huse : (v.bufferState i).use = some use := h.inFlight (i, use) (by simp [hcontexts])
    refine (h.kept hcontexts hflag).settle hsubject fun _ => ⟨⟨use, ?_⟩, ?_⟩
    · exact (v.decodeDone_use i i).trans huse
    · exact (v.decodeDone_outputOnDecodesComplete i i).trans hflag
  | keptShut v i use before after hcontexts hflag hmore => exact h.keptShut hcontexts hflag hmore
  | inserted v i use before after hcontexts hflag hlast => exact h.inserted hcontexts hflag hlast
  | discarding v i use before after before' after' hcontexts hdropping hflag hlast =>
    exact h.discarding hcontexts hdropping hflag hlast
  | inputDropping v i use hmem hclosing hsubject => exact h.inputDropping hmem hclosing hsubject
  | drop v i use before after hdropping byInput => exact h.drop hdropping byInput
  | relock v i use hdropped hcurrent => exact h.relock hdropped hcurrent
  | relockInput v i hsubject hshut => exact h.relockInput hsubject hshut
  | free v i use huse hleft => exact h.free huse hleft

end BufferView

namespace InputPhase

/-- A phase that is not about a buffer. -/
def quiet : InputPhase → Bool
  | .idle => true
  | .parameters _ => true
  | .parametersCounted _ _ => true
  | .frame _ => true
  | .obtain _ => true
  | .fill _ => true
  | .marker => true
  | .markerTimed _ => true
  | .markerTest _ => true
  | _ => false

theorem quiet_facts {phase : InputPhase} (h : phase.quiet = true) :
    phase.context = none ∧ phase.beingReleased = none ∧ phase.hasReleased = none ∧
      phase.toOutput = none ∧ phase.subject = none ∧ phase.mayBeOpen = true ∧
      phase.mayBeShut = false := by
  cases phase <;> first | exact ⟨rfl, rfl, rfl, rfl, rfl, rfl, rfl⟩ | cases h

theorem discard_facts (phase : InputPhase) : phase.discard.context = phase.context ∧
    phase.discard.beingReleased = phase.beingReleased ∧
    phase.discard.hasReleased = phase.hasReleased ∧ phase.discard.toOutput = phase.toOutput ∧
    phase.discard.subject = phase.subject ∧ phase.discard.mayBeOpen = phase.mayBeOpen ∧
    phase.discard.mayBeShut = phase.mayBeShut := by
  cases phase <;> exact ⟨rfl, rfl, rfl, rfl, rfl, rfl, rfl⟩

end InputPhase

namespace CodecState

variable {s s' : CodecState}

theorem effect_phase {before : InputPhase} (phase : InputPhase)
    (hbefore : s.input = before) (hcontext : phase.context = before.context)
    (hreleasing : phase.beingReleased = before.beingReleased) (hreleased : phase.hasReleased = none)
    (hclosing : phase.toOutput = none ∨
      phase.toOutput = s.currentDecodeBufferIndex ∧ phase.mayBeShut = false)
    (hsubject : phase.subject = none ∨ phase.subject = before.subject)
    (hopen : before.mayBeOpen = true → phase.mayBeOpen = true)
    (hshut : before.mayBeShut = true → phase.mayBeShut = true) :
    BufferView.Effect s.bufferView { s with input := phase }.bufferView := by
  subst hbefore
  have hview : { s with input := phase }.bufferView = { s.bufferView with
      closing := phase.toOutput
      subject := phase.subject
      mayBeOpen := phase.mayBeOpen
      mayBeShut := phase.mayBeShut
      inputDropped := none } := by
    simp only [bufferView, contexts, dropping, hcontext, hreleasing, hreleased]
    rfl
  rw [hview]
  exact .phase _ hclosing hsubject hopen hshut

variable {phase : InputPhase}

theorem effect_quiet (hbefore : s.input.quiet = true)
    (hphase : phase.quiet = true) : BufferView.Effect s.bufferView { s with input := phase }.bufferView := by
  obtain ⟨hcontext, hreleasing, -, -, -, -, hshut⟩ := InputPhase.quiet_facts hbefore
  obtain ⟨hcontext', hreleasing', hreleased, hclosing, hsubject, hopen, -⟩ :=
    InputPhase.quiet_facts hphase
  refine effect_phase phase rfl (hcontext'.trans hcontext.symm) (hreleasing'.trans hreleasing.symm)
    hreleased (.inl hclosing) (.inl hsubject) (fun _ => hopen) ?_
  intro h
  exact absurd (h.symm.trans hshut) Bool.noConfusion

theorem afterParameters_quiet (f : Frame) : (afterParameters f).quiet = true := by
  unfold afterParameters
  split
  next => rfl
  next => rfl

variable {i use : ℕ}

theorem effect_closing (next : Option Frame) (hbefore : s.input.quiet = true)
    (hcurrent : s.currentDecodeBufferIndex = some i) :
    BufferView.Effect s.bufferView { s with input := .closing i next }.bufferView := by
  obtain ⟨hcontext, hreleasing, -, -, -, -, hshut⟩ := InputPhase.quiet_facts hbefore
  refine effect_phase (.closing i next) rfl hcontext.symm hreleasing.symm rfl ?_ (.inl rfl)
    (fun _ => rfl) ?_
  · exact .inr ⟨hcurrent.symm, rfl⟩
  · intro h
    exact absurd (h.symm.trans hshut) Bool.noConfusion

theorem effect_closingPartial (hbefore : s.input.quiet = true) {current : Option ℕ}
    (hcurrent : s.currentDecodeBufferIndex = current) :
    BufferView.Effect s.bufferView
      { s with input := current.elim .idle fun i => .closing i none }.bufferView := by
  cases current with
  | none => exact effect_quiet hbefore rfl
  | some i => exact effect_closing none hbefore hcurrent

theorem insertBuffer_leftCount (s : CodecState) (i : ℕ) :
    (s.insertBuffer i).leftCount = s.bufferView.leave (s.bufferState i).use := by
  funext use
  unfold leftCount insertBuffer BufferView.leave
  cases (s.bufferState i).use with
  | none => simp [bufferView, leftCount]
  | some u =>
    simp [List.count_append, bufferView, leftCount, List.count_singleton]
    omega

theorem releaseBuffer_leftCount (s : CodecState) (i : ℕ) :
    (s.releaseBuffer i).leftCount = s.bufferView.leave (s.bufferState i).use := by
  funext use
  unfold leftCount releaseBuffer BufferView.leave
  cases (s.bufferState i).use with
  | none => simp [bufferView, leftCount]
  | some u => simp [List.count_append, bufferView, leftCount, List.count_singleton, Nat.add_assoc]

theorem forgetIndex_view (s : CodecState) (i : ℕ) :
    (s.forgetIndex i).bufferView = { s.bufferView with current := s.bufferView.forgetIndex i } := by
  unfold forgetIndex BufferView.forgetIndex
  split
  next h =>
    rw [if_pos (show s.bufferView.current = some i from h)]
    rfl
  next h =>
    rw [if_neg (show ¬ s.bufferView.current = some i from h)]

theorem insertBuffer_view (s : CodecState) (i : ℕ) :
    (s.insertBuffer i).bufferView =
      { s.bufferView with left := s.bufferView.leave (s.bufferState i).use } := by
  rw [← insertBuffer_leftCount]
  rfl

theorem releaseBuffer_view (s : CodecState) (i : ℕ) :
    (s.releaseBuffer i).bufferView =
      { s.bufferView with left := s.bufferView.leave (s.bufferState i).use } := by
  rw [← releaseBuffer_leftCount]
  rfl

theorem withInput_view (s : CodecState) (phase : InputPhase) :
    { s with input := phase }.bufferView = { s.bufferView with
      contexts := s.transformer.filterMap (fun c => c.kind.context) ++ phase.context.toList
      dropping := s.callback.beingReleased.toList ++ phase.beingReleased.toList
      inputDropped := phase.hasReleased
      closing := phase.toOutput
      subject := phase.subject
      mayBeOpen := phase.mayBeOpen
      mayBeShut := phase.mayBeShut } := rfl

theorem withCallback_view (s : CodecState) (phase : CallbackPhase) (outcomes : List Outcome) :
    { s with callback := phase, outcomes := outcomes }.bufferView = { s.bufferView with
      dropping := phase.beingReleased.toList ++ s.input.beingReleased.toList
      callbackDropped := phase.hasReleased } := rfl

theorem effect_view {s t : CodecState} {v : BufferView} (h : BufferView.Effect s.bufferView v)
    (ht : t.bufferView = v) : BufferView.Effect s.bufferView t.bufferView := ht ▸ h

theorem decodeDone_insertBuffer_forgetIndex_view (s : CodecState) (i : ℕ) :
    (((s.decodeDone i).insertBuffer i).forgetIndex i).bufferView = { s.bufferView with
      bufferState := s.bufferView.decodeDone i
      current := s.bufferView.forgetIndex i
      left := s.bufferView.leave (s.bufferState i).use } := by
  rw [forgetIndex_view, insertBuffer_view]
  have huse : ((s.decodeDone i).bufferState i).use = (s.bufferState i).use :=
    s.bufferView.decodeDone_use i i
  rw [huse]
  rfl

theorem complete_bufferEffect {c : Command} {rest : List Command}
    (hphase : s.callback = .idle) (hhead : s.transformer = c :: rest) :
    BufferView.Effect s.bufferView ({ s with transformer := rest }.complete c).bufferView := by
  obtain ⟨kind, number, discarded⟩ := c
  cases s
  cases hphase
  cases hhead
  cases kind with
  | setGlobalTransformParams => exact .same _
  | transform i use =>
    unfold complete
    dsimp only
    obtain ⟨hflag, h⟩ | ⟨hflag, hmore, h⟩ | ⟨hflag, hone, -, h⟩ | ⟨hflag, hone, -, h⟩ :=
      releaseDecodeContext_cases _ i
    · rw [h]
      exact .kept _ i use [] _ rfl hflag
    · rw [h]
      refine effect_view (.keptShut _ i use [] _ rfl hflag hmore) ?_
      rw [withCallback_view, forgetIndex_view]
      obtain ⟨current, hframe⟩ := forgetIndex_frame _ i
      rw [hframe]
      rfl
    · rw [h]
      exact .discarding _ i use [] _ [] _ rfl rfl hflag hone
    · rw [h]
      refine effect_view (.inserted _ i use [] _ rfl hflag hone) ?_
      rw [withCallback_view, decodeDone_insertBuffer_forgetIndex_view]
      obtain ⟨current, hframe⟩ := forgetIndex_frame _ i
      rw [hframe]
      rfl

theorem release_bufferEffect (hphase : s.input = .failed i use) :
    BufferView.Effect s.bufferView { (s.releaseDecodeContext i).1 with
      input := if (s.releaseDecodeContext i).2 = ReleaseResult.discarding then .dropping i use
        else .idle }.bufferView := by
  have hcontexts : s.bufferView.contexts =
      s.transformer.filterMap (fun c => c.kind.context) ++ (i, use) :: [] := by
    unfold bufferView contexts
    rw [hphase]
    rfl
  have hsubject : s.bufferView.subject = some i := congrArg InputPhase.subject hphase
  obtain ⟨hflag, h⟩ | ⟨hflag, hmore, h⟩ | ⟨hflag, hone, -, h⟩ | ⟨hflag, hone, -, h⟩ :=
    s.releaseDecodeContext_cases i
  · rw [h]
    refine effect_view (.keptInput _ i use _ [] hcontexts hflag hsubject) ?_
    cases s
    cases hphase
    rfl
  · rw [h]
    refine effect_view (.next (.keptShut _ i use _ [] hcontexts hflag hmore)
      (.settle _ i hsubject ?_)) ?_
    · grind [BufferView.forgetIndex]
    · rw [if_neg CodecState.ReleaseResult.noConfusion, withInput_view, forgetIndex_view]
      obtain ⟨current, hframe⟩ := forgetIndex_frame (s.decodeDone i) i
      rw [hframe]
      cases s
      cases hphase
      rfl
  · rw [h]
    have hdropping : s.bufferView.dropping = s.callback.beingReleased.toList ++ [] := by
      unfold bufferView dropping
      rw [hphase]
      rfl
    refine effect_view (.next (.discarding _ i use _ [] _ [] hcontexts hdropping hflag hone)
      (.inputDropping _ i use ?_ ?_ hsubject)) ?_
    · exact List.mem_append_right _ List.mem_cons_self
    · exact congrArg InputPhase.toOutput hphase
    · cases s
      cases hphase
      rfl
  · rw [h]
    refine effect_view (.next (.inserted _ i use _ [] hcontexts hflag hone)
      (.settle _ i hsubject ?_)) ?_
    · grind [BufferView.forgetIndex]
    · rw [if_neg CodecState.ReleaseResult.noConfusion, withInput_view,
        decodeDone_insertBuffer_forgetIndex_view]
      obtain ⟨current, hframe⟩ := forgetIndex_frame ((s.decodeDone i).insertBuffer i) i
      rw [hframe]
      cases s
      cases hphase
      rfl

/-- When the lock is taken again, the current buffer is not a later use of the index. -/
def NoLaterUse (s : CodecState) (label : Label) : Prop :=
  label ≠ .halt ∧ (label = .callbackRelock → ∀ p ∈ s.callback.hasReleased,
    s.currentDecodeBufferIndex = some p.1 →
      (s.bufferState p.1).use = some p.2 ∨ (s.bufferState p.1).use = none)

instance (s : CodecState) (label : Label) : Decidable (s.NoLaterUse label) :=
  inferInstanceAs (Decidable (_ ∧ _))

theorem passMarker_view (s : CodecState) (t : MarkerTest) :
    (s.passMarker t).1.bufferView = s.bufferView := by
  have hcount : (s.passMarker t).1.leftCount = s.leftCount := by
    funext use
    cases t with
    | testing => rfl
    | taking => rfl
    | inserting m => simp [leftCount, passMarker, List.count_append]
  obtain ⟨held, ring, hframe⟩ := passMarker_frame s t
  unfold bufferView
  rw [hcount, hframe]
  rfl

theorem closeBuffer_bufferEffect {next : Option Frame}
    (hphase : s.input = .closing i next) :
    BufferView.Effect s.bufferView { s.closeBuffer i with input := .closed next }.bufferView := by
  have hclosing : s.bufferView.closing = some i := congrArg InputPhase.toOutput hphase
  refine effect_view (.close _ i hclosing) ?_
  unfold closeBuffer
  dsimp only
  have hprogress : (s.bufferView.bufferState i).decodesInProgress =
    (s.bufferState i).decodesInProgress := rfl
  split
  next hzero =>
    have huse : (Function.update s.bufferState i
        { s.bufferState i with outputOnDecodesComplete := true } i).use = (s.bufferState i).use := by
      rw [Function.update_self]
    rw [if_pos (hprogress.trans hzero), withInput_view, insertBuffer_view, huse]
    cases s
    cases hphase
    rfl
  next hmore =>
    rw [if_neg (fun h => hmore (hprogress.symm.trans h))]
    cases s
    cases hphase
    rfl

theorem discardQueuedDecodes_view (s : CodecState) :
    s.discardQueuedDecodes.bufferView = s.bufferView := by
  obtain ⟨h1, h2, h3, h4, h5, h6, h7⟩ := s.input.discard_facts
  have hcontexts : s.discardQueuedDecodes.contexts = s.contexts := by
    simp [contexts, discardQueuedDecodes, List.filterMap_map, h1, Function.comp_def, Command.discard]
  have hdropping : s.discardQueuedDecodes.dropping = s.dropping := by
    simp [dropping, discardQueuedDecodes, h2]
  unfold bufferView
  rw [hcontexts, hdropping]
  simp only [discardQueuedDecodes, h3, h4, h5, h6, h7]
  rfl

theorem hasLeft_iff : s.HasLeft use ↔ 0 < s.leftCount use := by
  unfold HasLeft leftCount
  rw [Nat.add_pos_iff_pos_or_pos, List.count_pos_iff, List.count_pos_iff]

variable {label : Label}

theorem step_bufferEffect (hrunning : s.halted = false)
    (hfits : s.input.Fits) (hlabel : s.NoLaterUse label) (h : Step s label s') :
    BufferView.Effect s.bufferView s'.bufferView := by
  cases h with
  | input f hphase =>
    refine effect_quiet (congrArg InputPhase.quiet hphase) ?_
    split
    next => rfl
    next => exact afterParameters_quiet f
  | partialOutput hphase => exact effect_closingPartial (congrArg InputPhase.quiet hphase) rfl
  | inputMarker hphase => exact effect_quiet (congrArg InputPhase.quiet hphase) rfl
  | parametersError hphase => exact effect_quiet (congrArg InputPhase.quiet hphase) rfl
  | obtainError hphase => exact effect_closingPartial (congrArg InputPhase.quiet hphase) rfl
  | fillError hphase => exact effect_quiet (congrArg InputPhase.quiet hphase) rfl
  | markerError hphase => exact effect_quiet (congrArg InputPhase.quiet hphase) rfl
  | abortParameters hphase hhalted => exact absurd (hhalted.symm.trans hrunning) Bool.noConfusion
  | countParameters hphase => exact effect_quiet (congrArg InputPhase.quiet hphase) rfl
  | abortDecode hphase hhalted => exact absurd (hhalted.symm.trans hrunning) Bool.noConfusion
  | @countDecode f i use hphase =>
    exact effect_phase (.counted f i use _) hphase rfl rfl rfl (.inl rfl) (.inr rfl) id id
  | @sendParameters f c hphase =>
    have hkind : c.kind = .setGlobalTransformParams := by
      rw [hphase] at hfits
      exact hfits
    have heffect : BufferView.Effect s.bufferView { s with input := afterParameters f }.bufferView :=
      effect_quiet (congrArg InputPhase.quiet hphase) (afterParameters_quiet f)
    have hcontexts : (s.transformer ++ [c]).filterMap (fun c => c.kind.context) =
        s.transformer.filterMap (fun c => c.kind.context) := by
      simp [List.filterMap_append, hkind, CommandKind.context]
    refine effect_view heffect ?_
    rw [withInput_view { s with transformer := s.transformer ++ [c] }, hcontexts]
    rfl
  | refuseParameters hphase => exact effect_quiet (congrArg InputPhase.quiet hphase) rfl
  | @sendDecode f i use c hphase =>
    have hkind : c.kind = .transform i use := by
      rw [hphase] at hfits
      exact hfits
    have hcontexts : s.bufferView.contexts =
        (s.transformer ++ [c]).filterMap (fun c => c.kind.context) ++ [] := by
      rw [List.filterMap_append, List.append_nil]
      unfold bufferView contexts
      rw [hphase]
      simp [hkind, CommandKind.context, InputPhase.context]
    refine effect_view (.phase _ (.inl rfl) (.inl rfl)
      (fun h => (congrArg InputPhase.mayBeOpen hphase).symm.trans h)
      (fun h => (congrArg InputPhase.mayBeShut hphase).symm.trans h)) ?_
    rw [hcontexts]
    cases s
    cases hphase
    rfl
  | @refuseDecode f i use c hphase =>
    exact effect_phase (.failed i use) hphase rfl rfl rfl (.inl rfl) (.inr rfl) (fun _ => rfl)
      (fun _ => rfl)
  | @look f hphase =>
    have hquiet : s.input.quiet = true := congrArg InputPhase.quiet hphase
    unfold lookAtCurrent
    split
    next => exact effect_quiet hquiet rfl
    next i hcurrent =>
      split
      next => exact effect_closing _ hquiet hcurrent
      next => exact effect_quiet hquiet rfl
  | close hphase => exact closeBuffer_bufferEffect hphase
  | @forget next hphase =>
    refine effect_view (.forget _ (congrArg InputPhase.mayBeOpen hphase)) ?_
    cases s
    cases hphase
    cases next with
    | none => rfl
    | some f => rfl
  | getDecodeBuffer i hphase hnone hfree =>
    refine effect_view (.take _ i hnone hfree (congrArg InputPhase.hasReleased hphase)
      (congrArg InputPhase.toOutput hphase) (congrArg InputPhase.subject hphase)
      (congrArg InputPhase.mayBeOpen hphase)) ?_
    cases s
    cases hphase
    rfl
  | reuse hphase hcurrent => exact effect_quiet (congrArg InputPhase.quiet hphase) rfl
  | @launch f i use hphase hcurrent huse =>
    have hcontexts : s.bufferView.contexts = s.transformer.filterMap (fun c => c.kind.context) := by
      unfold bufferView contexts
      rw [hphase]
      exact List.append_nil _
    refine effect_view (.launch _ i use f.lastDecodeIntoThisBuffer hcurrent huse
      (congrArg InputPhase.toOutput hphase) (congrArg InputPhase.mayBeShut hphase)) ?_
    rw [hcontexts]
    cases s
    cases hphase
    rfl
  | @finish f hphase =>
    cases hlast : f.lastDecodeIntoThisBuffer with
    | true =>
      have hshut : s.bufferView.mayBeOpen = false := by
        rw [show s.bufferView.mayBeOpen = _ from congrArg InputPhase.mayBeOpen hphase]
        exact congrArg Bool.not hlast
      refine effect_view (.forget _ hshut) ?_
      cases s
      cases hphase
      rfl
    | false =>
      refine effect_phase .idle hphase rfl rfl rfl (.inl rfl) (.inl rfl) (fun _ => rfl) ?_
      intro h
      exact absurd (h.symm.trans hlast) Bool.noConfusion
  | release hphase => exact release_bufferEffect hphase
  | @drop i use hphase =>
    have hdropping : s.bufferView.dropping =
        s.callback.beingReleased.toList ++ (i, use) :: [] := by
      unfold bufferView dropping
      rw [hphase]
      rfl
    refine effect_view (.drop _ i use _ [] hdropping true) ?_
    rw [withInput_view, releaseBuffer_view]
    cases s
    cases hphase
    rfl
  | @relock i use hphase =>
    refine effect_view (.relockInput _ i (congrArg InputPhase.subject hphase)
      (congrArg InputPhase.mayBeOpen hphase)) ?_
    rw [withInput_view, forgetIndex_view]
    obtain ⟨current, hframe⟩ := forgetIndex_frame s i
    rw [hframe]
    cases s
    cases hphase
    rfl
  | setMarkerTime hphase => exact effect_quiet (congrArg InputPhase.quiet hphase) rfl
  | setMarker hphase => exact effect_quiet (congrArg InputPhase.quiet hphase) rfl
  | @testMarker t hphase =>
    have heffect : BufferView.Effect s.bufferView { s with
        input := (s.passMarker t).2.elim .idle .markerTest }.bufferView := by
      refine effect_quiet (congrArg InputPhase.quiet hphase) ?_
      cases (s.passMarker t).2 with
      | none => rfl
      | some t' => rfl
    refine effect_view heffect ?_
    obtain ⟨held, ring, hframe⟩ := passMarker_frame s t
    have htransformer : (s.passMarker t).1.transformer = s.transformer := by rw [hframe]
    have hcallback : (s.passMarker t).1.callback = s.callback := by rw [hframe]
    rw [withInput_view (s.passMarker t).1, passMarker_view, htransformer, hcallback]
    rfl
  | callback hphase hhead => exact complete_bufferEffect hphase hhead
  | @callbackDrop c i use hphase =>
    have hdropping : s.bufferView.dropping = [] ++ (i, use) :: s.input.beingReleased.toList := by
      unfold bufferView dropping
      rw [hphase]
      rfl
    refine effect_view (.drop _ i use [] _ hdropping false) ?_
    rw [withCallback_view, releaseBuffer_view]
    cases s
    cases hphase
    rfl
  | @callbackRelock c i use hphase =>
    have hreleased : s.callback.hasReleased = some (i, use) :=
      congrArg CallbackPhase.hasReleased hphase
    refine effect_view (.relock _ i use hreleased (hlabel.2 rfl (i, use) hreleased)) ?_
    rw [withCallback_view, forgetIndex_view]
    obtain ⟨current, hframe⟩ := forgetIndex_frame s i
    rw [hframe]
    cases s
    cases hphase
    rfl
  | callbackCount hphase =>
    refine effect_view (.same _) ?_
    cases s
    cases hphase
    rfl
  | @callbackTestMarker t hphase =>
    refine effect_view (.same _) ?_
    rw [withCallback_view, passMarker_view]
    obtain ⟨held, ring, hframe⟩ := passMarker_frame s t
    rw [hframe]
    cases s
    cases hphase
    cases (passMarker _ t).2 with
    | none => rfl
    | some t' => rfl
  | discard => exact effect_view (.same _) s.discardQueuedDecodes_view
  | halt => exact absurd rfl hlabel.1
  | newSession hhalted => exact absurd (hhalted.symm.trans hrunning) Bool.noConfusion
  | free i huse hleft => exact .free _ i _ huse (hasLeft_iff.mp hleft)

/-! ### Runs -/

theorem complete_input (s : CodecState) (c : Command) : (s.complete c).input = s.input := by
  obtain ⟨kind, number, discarded⟩ := c
  cases kind with
  | setGlobalTransformParams => rfl
  | transform i use =>
    obtain ⟨states, current, ring, hframe⟩ := s.releaseDecodeContext_frame i
    unfold complete
    dsimp only
    split
    next => rw [hframe]
    next => rw [hframe]
    next => rw [hframe]

theorem complete_halted (s : CodecState) (c : Command) : (s.complete c).halted = s.halted := by
  obtain ⟨kind, number, discarded⟩ := c
  cases kind with
  | setGlobalTransformParams => rfl
  | transform i use =>
    obtain ⟨states, current, ring, hframe⟩ := s.releaseDecodeContext_frame i
    unfold complete
    dsimp only
    split
    next => rw [hframe]
    next => rw [hframe]
    next => rw [hframe]

theorem fits_of_command (h : phase.command = none) : phase.Fits := by
  cases phase with
  | parametersCounted f c => cases h
  | counted f i use c => cases h
  | _ => trivial

theorem discard_fits (h : phase.Fits) : phase.discard.Fits := by
  cases phase <;> exact h

theorem fits_step (h : Step s label s') (hfits : s.input.Fits) :
    s'.input.Fits := by
  cases h with
  | input f hphase =>
    refine fits_of_command ?_
    split
    next => rfl
    next => exact afterParameters_command f
  | partialOutput hphase => exact fits_of_command (closing_command _)
  | obtainError hphase => exact fits_of_command (closing_command _)
  | look hphase => exact fits_of_command (lookAtCurrent_command _ _)
  | forget hphase => exact fits_of_command (obtain_command _)
  | abortParameters hphase hhalted => exact fits_of_command (afterParameters_command _)
  | sendParameters hphase => exact fits_of_command (afterParameters_command _)
  | release hphase =>
    refine fits_of_command ?_
    split
    next => rfl
    next => rfl
  | testMarker hphase => exact fits_of_command (markerTest_command _)
  | callback hphase hhead =>
    rw [complete_input]
    exact hfits
  | discard => exact discard_fits hfits
  | countParameters => exact rfl
  | countDecode => exact rfl
  | newSession => exact hfits
  | @callbackRelock c i use hphase =>
    obtain ⟨current, hframe⟩ := s.forgetIndex_frame i
    rw [hframe]
    exact hfits
  | callbackDrop => exact hfits
  | callbackCount => exact hfits
  | @callbackTestMarker t hphase =>
    obtain ⟨held, ring, hframe⟩ := s.passMarker_frame t
    rw [hframe]
    exact hfits
  | halt => exact hfits
  | free => exact hfits
  | _ => trivial

theorem running_step (h : Step s label s')
    (hrunning : s.halted = false) (hlabel : label ≠ .halt) : s'.halted = false := by
  cases h with
  | close hphase =>
    obtain ⟨states, ring, hframe⟩ := s.closeBuffer_frame _
    rw [hframe]
    exact hrunning
  | @release i use hphase =>
    obtain ⟨states, current, ring, hframe⟩ := s.releaseDecodeContext_frame i
    rw [hframe]
    exact hrunning
  | @relock i use hphase =>
    obtain ⟨current, hframe⟩ := s.forgetIndex_frame i
    rw [hframe]
    exact hrunning
  | @testMarker t hphase =>
    obtain ⟨held, ring, hframe⟩ := s.passMarker_frame t
    rw [hframe]
    exact hrunning
  | callback hphase hhead =>
    rw [complete_halted]
    exact hrunning
  | @callbackRelock c i use hphase =>
    obtain ⟨current, hframe⟩ := s.forgetIndex_frame i
    rw [hframe]
    exact hrunning
  | @callbackTestMarker t hphase =>
    obtain ⟨held, ring, hframe⟩ := s.passMarker_frame t
    rw [hframe]
    exact hrunning
  | halt => exact absurd rfl hlabel
  | newSession => rfl
  | _ => exact hrunning

/-- Every buffer is accounted for in a running codec. -/
structure Kept (s : CodecState) : Prop where
  running : s.halted = false
  fits : s.input.Fits
  tracked : s.bufferView.Tracked

theorem start_kept : start.Kept where
  running := rfl
  fits := trivial
  tracked := by
    constructor
    case injective => exact fun _ _ _ h => absurd h (Option.some_ne_none _).symm
    case fresh => exact fun _ _ h => absurd h (Option.some_ne_none _).symm
    case counted => exact fun _ => rfl
    case inFlight => exact fun _ h => absurd h List.not_mem_nil
    case dropping => exact fun _ h => absurd h List.not_mem_nil
    case droppingOnce => exact List.nodup_nil
    case left => exact fun _ h => absurd h (Nat.lt_irrefl 0)
    case once => exact fun _ => Nat.zero_le 1
    case stays => exact fun _ h => absurd h (Nat.not_lt_zero _)
    case current => exact fun _ h => absurd h (Option.some_ne_none _).symm
    case subject => exact fun _ h => absurd h (Option.some_ne_none _).symm
    case closing => exact fun _ h => absurd h (Option.some_ne_none _).symm
    case inputDropped => exact fun _ _ h => absurd h (Option.some_ne_none _).symm
    case callbackDropped => exact fun _ _ h => absurd h (Option.some_ne_none _).symm

theorem kept_step (h : s.Kept) (hlabel : s.NoLaterUse label)
    (hstep : s.step label = some s') : s'.Kept where
  running := running_step (step_cases hstep) h.running hlabel.1
  fits := fits_step (step_cases hstep) h.fits
  tracked := h.tracked.effect (step_bufferEffect h.running h.fits hlabel (step_cases hstep))

/-- Every buffer leaves once, when no decode into it is in progress, and until then it will leave: it is
the current one, open for further decodes, or a decode is in progress that may be the last, or it is
being released. -/
structure Delivered (s : CodecState) : Prop where
  once : ∀ use, s.outputRing.count (.frame use) + s.released.count use ≤ 1
  notInProgress : ∀ p ∈ s.contexts, ¬ s.HasLeft p.2
  stays : ∀ use, use < s.uses → ¬ s.HasLeft use → ∃ i, (s.bufferState i).use = some use ∧
    (s.currentDecodeBufferIndex = some i ∧ (s.bufferState i).outputOnDecodesComplete = false ∨
      (s.bufferState i).outputOnDecodesComplete = true ∧ (i, use) ∈ s.contexts ∨
      (i, use) ∈ s.dropping)

theorem Kept.delivered (h : s.Kept) : s.Delivered where
  once := h.tracked.once
  notInProgress p hp hleft := by
      have hpos : 0 < (s.bufferState p.1).decodesInProgress := h.tracked.inProgress_pos hp
      have hzero := ((h.tracked.left p.2 (hasLeft_iff.mp hleft)).2 p.1 (h.tracked.inFlight p hp)).2
      exact absurd hpos (hzero ▸ Nat.lt_irrefl 0)
  stays use huse hleft := by
      have hzero : s.leftCount use = 0 := Nat.eq_zero_of_not_pos fun hpos => hleft (hasLeft_iff.mpr hpos)
      obtain ⟨i, hi, hstays⟩ := h.tracked.stays use huse hzero
      refine ⟨i, hi, ?_⟩
      obtain hcurrent | ⟨hflag, hpos⟩ | hdropping := hstays
      · exact .inl hcurrent
      · rw [h.tracked.counted i, List.countP_pos_iff] at hpos
        obtain ⟨p, hp, hpi⟩ := hpos
        have hi' : p.1 = i := of_decide_eq_true hpi
        have huse' := h.tracked.inFlight p hp
        rw [hi', hi] at huse'
        have hpair : p = (i, use) := Prod.ext hi' (Option.some.inj huse').symm
        exact .inr (.inl ⟨hflag, hpair ▸ hp⟩)
      · exact .inr (.inr hdropping)

/-- The use of a buffer whose context a step releases. -/
def releasing (s : CodecState) : Label → Option (ℕ × ℕ)
  | .callback => s.transformer.head?.bind fun c => c.kind.context
  | .callbackRelock => s.callback.hasReleased
  | .release => s.input.context
  | .relock => s.input.hasReleased
  | _ => none

/-- When a step releases a context and the current index is that of its buffer, it designates the use
of the context, or that has been freed. -/
def DesignatesUse (s : CodecState) (label : Label) : Prop :=
  ∀ p ∈ s.releasing label, s.currentDecodeBufferIndex = some p.1 →
    (s.bufferState p.1).use = some p.2 ∨ (s.bufferState p.1).use = none

theorem Kept.designatesUse (h : s.Kept) (hlabel : s.NoLaterUse label) :
    s.DesignatesUse label := by
  intro p hp hcurrent
  cases label with
  | callback =>
    obtain ⟨c, hc, hcontext⟩ := Option.bind_eq_some_iff.mp hp
    have hmem : p ∈ s.contexts :=
      List.mem_append_left _ (List.mem_filterMap.mpr ⟨c, List.mem_of_mem_head? hc, hcontext⟩)
    exact .inl (h.tracked.inFlight p hmem)
  | callbackRelock => exact hlabel.2 rfl p hp hcurrent
  | release =>
    have hmem : p ∈ s.contexts := List.mem_append_right _ (Option.mem_toList.mpr hp)
    exact .inl (h.tracked.inFlight p hmem)
  | relock => exact (h.tracked.inputDropped p.1 p.2 hp).2
  | _ => cases hp

/-- **Decode buffers**: in every run in which the lock is never taken again, after a release, with a
later use of the index current, every buffer leaves once, never with a decode in progress, and is not
forgotten before; and a release of a context resets the current index only for its own use. -/
theorem run_delivered {labels : List Label} {s : CodecState}
    (hlabels : Lts.Along step NoLaterUse start labels) (h : Lts.run step start labels = some s) :
    s.Delivered ∧ ∀ label, s.NoLaterUse label → s.DesignatesUse label := by
  have hkept : s.Kept := Lts.run_invariant_along (I := Kept)
    (fun _ _ _ ht hlabel hstep => kept_step ht hlabel hstep) start_kept hlabels h
  exact ⟨hkept.delivered, fun _ hlabel => hkept.designatesUse hlabel⟩

/-- `run_delivered` over a discard with a decode before it and one after it. -/
theorem run_delivered_discard : ∃ s, Lts.run step start discardThenDecode = some s ∧ s.Delivered := by
  have hlabels : Lts.Along step NoLaterUse start discardThenDecode := by decide +kernel
  exact ⟨_, rfl, (run_delivered hlabels rfl).1⟩

/-- The first field of a frame. -/
def firstField : Frame := { wholeFrame with lastDecodeIntoThisBuffer := false }

/-- While a discarded buffer is being released its index is obtained again, for a first field. -/
def recycledIndex : List Label :=
  inputFrame 0 ++ [.discardQueuedDecodes, .callback, .callbackDrop, .free 0] ++
    [.input firstField, .look, .getDecodeBuffer 0, .launch, .count, .send true, .finish] ++
    [.callbackRelock, .callbackCount, .callbackTestMarker, .callback, .callbackCount,
      .callbackTestMarker]

/-- The buffer of the first field is forgotten: it is not the current one, and it will not leave. -/
theorem not_run_delivered_recycled :
    ¬ ∀ (labels : List Label) (s : CodecState), (∀ label ∈ labels, label ≠ .halt) →
      Lts.run step start labels = some s → s.Delivered := by
  intro hall
  have hlabels : ∀ label ∈ recycledIndex, label ≠ .halt := by decide +kernel
  have hdelivered := hall recycledIndex _ hlabels rfl
  have hstays := hdelivered.stays 1 (by decide) (by decide)
  obtain ⟨i, -, ⟨hcurrent, -⟩ | ⟨-, hcontext⟩ | hdropping⟩ := hstays
  · cases hcurrent
  · cases hcontext
  · cases hdropping

end CodecState

end Player2.Codec

import Mathlib.Data.List.Basic
import Mathlib.Data.List.Perm.Basic
import Mathlib.Logic.Function.Basic

/-! # Stacking frames in reverse play

`Collator2_Base_c::OutputOnePartition` in backward play.  A frame is pushed on
`ReverseFrameStack`, its possible reversible point flag hidden in bit 0 of the buffer pointer.
When a frame confirms a reversible point, the stack is popped down to the most recent such point
by way of `TemporaryHoldingStack`; the point and all the frames below it go to the output ring,
the frames above it go back.

`Stacked` says what that comes to, without the second stack and the bit: `run_stacked` proves it
of every step of every run within the capacity of the stacks, together with the fact that no
buffer is lost or doubled. -/

namespace Player2.ReversePlay

/-- A machine word: a pointer, or a pointer with a flag in bit 0. -/
abbrev Word := BitVec 32

/-- `MAXIMUM_PARTITION_POINTS`, the capacity of either stack. -/
def maximumPartitionPoints : ℕ := 64

/-! ### The source -/

/-- What `OutputOnePartition` reads of a partition point. -/
structure Descriptor where
  buffer : Word
  possibleReversiblePoint : Bool
  confirmReversiblePoint : Bool
deriving DecidableEq

/-- The stacks, each with its top first, the buffers inserted in the output ring so far, and the buffers
whose coded frame parameters are marked as a continuous reverse jump (`StreamDiscontinuity` is
set along with it). -/
structure Output where
  reverseFrameStack : List Word
  temporaryHoldingStack : List Word
  outputRing : List Word
  continuousReverseJump : Word → Bool

/-- The stacks as `RegisterOutputBufferRing` creates them. -/
def start : Output := ⟨[], [], [], fun _ => false⟩

/-- `StackGeneric_c::Push`; its status is not looked at. -/
def push (stack : List Word) (value : Word) : List Word :=
  if stack.length = maximumPartitionPoints then stack else value :: stack

/-- The word that is pushed for a partition. -/
def bufferAndFlag (d : Descriptor) : Word :=
  d.buffer ||| if d.possibleReversiblePoint then 1 else 0

/-- Whether bit 0 of a word is set. -/
def flagged (w : Word) : Bool := w &&& 1 != 0

/-- A word without bit 0. -/
def bufferOf (w : Word) : Word := w &&& ~~~1

/-- The first loop: pop until a flagged word is met, holding the others.  The last word popped,
the stack left and the words held. -/
def seekPoint : List Word → List Word → Word → Word × List Word × List Word
  | [], held, last => (last, [], held)
  | w :: stack, held, _ => if flagged w then (w, stack, held) else seekPoint stack (push held w) w

/-- The loop that outputs the rest of the stack. -/
def outputRest : List Word → List Word → List Word
  | [], ring => ring
  | w :: stack, ring => outputRest stack (ring ++ [bufferOf w])

/-- The last loop: move the held words back. -/
def restore : List Word → List Word → List Word
  | [], stack => stack
  | w :: held, stack => restore held (push stack w)

variable (hasParameters : Word → Bool)

/-- The branch for a partition that confirms a reversible point, with the frame on the stack.
`hasParameters` tells whether the coded frame parameters of a buffer can be obtained; where they
cannot the source returns at once. -/
def confirm (s : Output) (pushed : Word) : Output :=
  let r := seekPoint s.reverseFrameStack s.temporaryHoldingStack pushed
  if flagged r.1 then
    if hasParameters (bufferOf r.1) then
      { reverseFrameStack := restore r.2.2 []
        temporaryHoldingStack := []
        outputRing := outputRest r.2.1 (s.outputRing ++ [bufferOf r.1])
        continuousReverseJump := Function.update s.continuousReverseJump (bufferOf r.1) true }
    else { s with reverseFrameStack := r.2.1, temporaryHoldingStack := r.2.2 }
  else { s with reverseFrameStack := restore r.2.2 r.2.1, temporaryHoldingStack := [] }

/-- `OutputOnePartition` in backward play. -/
def outputOnePartition (s : Output) (d : Descriptor) : Output :=
  let s := { s with reverseFrameStack := push s.reverseFrameStack (bufferAndFlag d) }
  if d.confirmReversiblePoint then confirm hasParameters s (bufferAndFlag d) else s

/-! ### Words -/

/-- The buffer is aligned, as the source asserts. -/
def Descriptor.Aligned (d : Descriptor) : Prop := d.buffer &&& 1 = 0

theorem one_getLsbD : ∀ i < 32, (1 : Word).getLsbD i = decide (i = 0) := by decide

theorem not_one_getLsbD : ∀ i < 32, (~~~1 : Word).getLsbD i = !decide (i = 0) := by decide

variable {d : Descriptor}

theorem Descriptor.Aligned.getLsbD_zero (h : d.Aligned) :
    d.buffer.getLsbD 0 = false := by
  have h0 : (d.buffer &&& 1).getLsbD 0 = false := by
    rw [h]
    rfl
  simpa using h0

theorem bufferOf_bufferAndFlag (h : d.Aligned) :
    bufferOf (bufferAndFlag d) = d.buffer := by
  unfold bufferOf bufferAndFlag
  apply BitVec.eq_of_getLsbD_eq
  intro i hi
  have hflag : i ≠ 0 → (if d.possibleReversiblePoint then (1 : Word) else 0).getLsbD i = false := by
    intro hne
    cases d.possibleReversiblePoint with
    | false => exact BitVec.getLsbD_zero
    | true => simp [hne]
  rw [BitVec.getLsbD_and, BitVec.getLsbD_or, not_one_getLsbD i hi]
  by_cases hz : i = 0
  · subst hz
    rw [h.getLsbD_zero]
    simp
  · rw [hflag hz]
    simp [hz]

theorem flagged_bufferAndFlag (h : d.Aligned) :
    flagged (bufferAndFlag d) = d.possibleReversiblePoint := by
  unfold flagged bufferAndFlag
  cases d.possibleReversiblePoint with
  | false =>
    have hor : d.buffer ||| 0 = d.buffer := BitVec.or_zero
    have hzero : (d.buffer ||| 0) &&& 1 = 0 := by
      rw [hor]
      exact h
    simpa using hzero
  | true =>
    have hbit : ((d.buffer ||| 1) &&& 1).getLsbD 0 = true := by
      simp
    rw [bne_iff_ne]
    intro hzero
    rw [if_pos rfl] at hzero
    rw [hzero] at hbit
    exact absurd hbit (by decide)

/-! ### The loops -/

variable {stack held : List Word}

theorem push_of_lt (h : stack.length < maximumPartitionPoints) (w : Word) :
    push stack w = w :: stack := if_neg (Nat.ne_of_lt h)

theorem outputRest_eq (stack ring : List Word) :
    outputRest stack ring = ring ++ stack.map bufferOf := by
  induction stack generalizing ring with
  | nil => simp [outputRest]
  | cons w stack ih => simp [outputRest, ih]

theorem restore_eq (h : held.length + stack.length ≤ maximumPartitionPoints) :
    restore held stack = held.reverse ++ stack := by
  induction held generalizing stack with
  | nil => rfl
  | cons w held ih =>
    rw [List.length_cons] at h
    rw [restore, push_of_lt (by omega), ih (by rw [List.length_cons]; omega)]
    simp

/-- The first loop stops at the flagged word next to the top, if there is one, having turned over
the words above it. -/
theorem seekPoint_of_flagged {above below held : List Word} {point last : Word}
    (habove : ∀ w ∈ above, flagged w = false) (hpoint : flagged point)
    (h : held.length + above.length ≤ maximumPartitionPoints) :
    seekPoint (above ++ point :: below) held last = (point, below, above.reverse ++ held) := by
  induction above generalizing held last with
  | nil => simp [seekPoint, hpoint]
  | cons w above ih =>
    rw [List.length_cons] at h
    have hw : flagged w = false := habove w List.mem_cons_self
    rw [List.cons_append, seekPoint, hw, push_of_lt (by omega)]
    rw [ih (fun x hx => habove x (List.mem_cons_of_mem w hx)) (by rw [List.length_cons]; omega)]
    simp

theorem seekPoint_of_not_flagged {last : Word}
    (hstack : ∀ w ∈ stack, flagged w = false) (hlast : flagged last = false)
    (h : held.length + stack.length ≤ maximumPartitionPoints) :
    ∃ w, flagged w = false ∧ seekPoint stack held last = (w, [], stack.reverse ++ held) := by
  induction stack generalizing held last with
  | nil => exact ⟨last, hlast, rfl⟩
  | cons w stack ih =>
    rw [List.length_cons] at h
    have hw : flagged w = false := hstack w List.mem_cons_self
    obtain ⟨x, hx, heq⟩ := ih (fun y hy => hstack y (List.mem_cons_of_mem w hy)) hw
      (show (w :: held).length + stack.length ≤ maximumPartitionPoints by
        rw [List.length_cons]; omega)
    refine ⟨x, hx, ?_⟩
    rw [seekPoint, hw, push_of_lt (by omega)]
    rw [heq]
    simp

theorem flagged_cases (stack : List Word) :
    (∃ above point below, stack = above ++ point :: below ∧ (∀ w ∈ above, flagged w = false) ∧
        flagged point) ∨ ∀ w ∈ stack, flagged w = false := by
  induction stack with
  | nil => exact .inr (by simp)
  | cons w stack ih =>
    cases hw : flagged w with
    | true => exact .inl ⟨[], w, stack, rfl, by simp, hw⟩
    | false =>
      rcases ih with ⟨above, point, below, rfl, habove, hpoint⟩ | hnone
      · exact .inl ⟨w :: above, point, below, rfl, by simpa [hw] using habove, hpoint⟩
      · exact .inr (by simpa [hw] using hnone)

/-! ### One partition -/

/-- What becomes of the stack `stack` when a reversible point is confirmed: the most recent point
is output first and marked, then the frames below it from the top down, and the frames above it
stay; without a point nothing happens. -/
inductive Confirmed (s : Output) (stack : List Word) : Output → Prop
  | point (above below : List Word) (point : Word) (hstack : stack = above ++ point :: below)
      (habove : ∀ w ∈ above, flagged w = false) (hpoint : flagged point) :
      Confirmed s stack
        { reverseFrameStack := above
          temporaryHoldingStack := []
          outputRing := s.outputRing ++ bufferOf point :: below.map bufferOf
          continuousReverseJump := Function.update s.continuousReverseJump (bufferOf point) true }
  | none (hnone : ∀ w ∈ stack, flagged w = false) :
      Confirmed s stack { s with reverseFrameStack := stack }

/-- What a partition does to the stacks: its word, which has its buffer and its flag, is put on
top, and a reversible point is confirmed if it says so. -/
def Stacked (s : Output) (d : Descriptor) (s' : Output) : Prop :=
  ∃ w, bufferOf w = d.buffer ∧ flagged w = d.possibleReversiblePoint ∧
    if d.confirmReversiblePoint then Confirmed s (w :: s.reverseFrameStack) s'
    else s' = { s with reverseFrameStack := w :: s.reverseFrameStack }

/-- Between two calls the second stack is empty and every word on the first one belongs to a
buffer with coded frame parameters. -/
structure Settled (s : Output) : Prop where
  held : s.temporaryHoldingStack = []
  parameters : ∀ w ∈ s.reverseFrameStack, hasParameters (bufferOf w)

variable {hasParameters}

variable {s s' : Output}

theorem outputOnePartition_stacked (hs : Settled hasParameters s)
    (haligned : d.Aligned) (hparameters : hasParameters d.buffer)
    (hroom : s.reverseFrameStack.length < maximumPartitionPoints) :
    Stacked s d (outputOnePartition hasParameters s d) := by
  refine ⟨bufferAndFlag d, bufferOf_bufferAndFlag haligned, flagged_bufferAndFlag haligned, ?_⟩
  have hall : ∀ w ∈ bufferAndFlag d :: s.reverseFrameStack, hasParameters (bufferOf w) := by
    intro w hw
    rcases List.mem_cons.mp hw with rfl | hw
    · rw [bufferOf_bufferAndFlag haligned]
      exact hparameters
    · exact hs.parameters w hw
  simp only [outputOnePartition, push_of_lt hroom]
  split
  · have hlen : (bufferAndFlag d :: s.reverseFrameStack).length ≤ maximumPartitionPoints := hroom
    rcases flagged_cases (bufferAndFlag d :: s.reverseFrameStack) with
      ⟨above, point, below, hstack, habove, hpoint⟩ | hnone
    · rw [hstack] at hlen hall
      rw [List.length_append] at hlen
      have hpar : hasParameters (bufferOf point) := hall point (by simp)
      have hback : restore (above.reverse ++ []) [] = above := by
        rw [List.append_nil, restore_eq (by simp; omega)]
        simp
      simp only [confirm, hs.held, hstack]
      rw [seekPoint_of_flagged habove hpoint (by simp; omega)]
      simp only [hpoint, hpar, if_true, hback, outputRest_eq, List.append_assoc,
        List.singleton_append]
      exact .point above below point rfl habove hpoint
    · obtain ⟨w, hw, hseek⟩ := seekPoint_of_not_flagged hnone
        (hnone (bufferAndFlag d) List.mem_cons_self)
        (show ([] : List Word).length + _ ≤ _ by simpa using hlen)
      have hback : restore ((bufferAndFlag d :: s.reverseFrameStack).reverse ++ []) []
          = bufferAndFlag d :: s.reverseFrameStack := by
        rw [List.append_nil, restore_eq (by simpa using hlen)]
        simp
      simp only [confirm, hs.held, hseek, hw, Bool.false_eq_true, if_false, hback]
      have h := Confirmed.none (s := s) hnone
      rw [hs.held] at h
      exact h
  · rfl

theorem Stacked.settled (hs : Settled hasParameters s)
    (hparameters : hasParameters d.buffer) (h : Stacked s d s') : Settled hasParameters s' := by
  obtain ⟨w, hbuffer, -, hstep⟩ := h
  have hall : ∀ x ∈ w :: s.reverseFrameStack, hasParameters (bufferOf x) := by
    intro x hx
    rcases List.mem_cons.mp hx with rfl | hx
    · rw [hbuffer]
      exact hparameters
    · exact hs.parameters x hx
  split at hstep
  · cases hstep with
    | point above below point hstack habove hpoint =>
      refine ⟨rfl, fun x hx => hall x ?_⟩
      rw [hstack]
      exact List.mem_append_left _ hx
    | none hnone => exact ⟨hs.held, hall⟩
  · subst hstep
    exact ⟨hs.held, hall⟩

/-- The buffers on the stack and in the ring, in some order. -/
def buffers (s : Output) : List Word := s.reverseFrameStack.map bufferOf ++ s.outputRing

theorem Stacked.buffers_perm (h : Stacked s d s') :
    (buffers s').Perm (d.buffer :: buffers s) := by
  obtain ⟨w, hbuffer, -, hstep⟩ := h
  have hpushed : d.buffer :: buffers s = (w :: s.reverseFrameStack).map bufferOf ++ s.outputRing := by
    simp [buffers, hbuffer]
  rw [hpushed]
  split at hstep
  · cases hstep with
    | point above below point hstack habove hpoint =>
      rw [hstack]
      simp only [buffers, List.map_append, List.map_cons, List.append_assoc]
      exact List.Perm.append_left _ List.perm_append_comm
    | none hnone => exact List.Perm.refl _
  · subst hstep
    exact List.Perm.refl _

/-! ### Runs -/

/-- The state after a list of partitions. -/
def outputAll (hasParameters : Word → Bool) (s : Output) (ds : List Descriptor) : Output :=
  ds.foldl (outputOnePartition hasParameters) s

/-- The partitions fit the stacks: there is room for each of them when it comes. -/
def Fits (hasParameters : Word → Bool) : Output → List Descriptor → Prop
  | _, [] => True
  | s, d :: ds => s.reverseFrameStack.length < maximumPartitionPoints ∧
      Fits hasParameters (outputOnePartition hasParameters s d) ds

theorem outputAll_settled {ds : List Descriptor} (hs : Settled hasParameters s)
    (hds : ∀ d ∈ ds, d.Aligned ∧ hasParameters d.buffer) (hfits : Fits hasParameters s ds) :
    Settled hasParameters (outputAll hasParameters s ds) ∧
      (buffers (outputAll hasParameters s ds)).Perm (ds.map Descriptor.buffer ++ buffers s) := by
  induction ds generalizing s with
  | nil => exact ⟨hs, List.Perm.refl _⟩
  | cons d ds ih =>
    obtain ⟨haligned, hpar⟩ := hds d List.mem_cons_self
    have hstep := outputOnePartition_stacked hs haligned hpar hfits.1
    obtain ⟨hsettled, hperm⟩ := ih (hstep.settled hs hpar)
      (fun x hx => hds x (List.mem_cons_of_mem d hx)) hfits.2
    refine ⟨hsettled, hperm.trans ?_⟩
    calc ds.map Descriptor.buffer ++ buffers (outputOnePartition hasParameters s d)
        |>.Perm (ds.map Descriptor.buffer ++ d.buffer :: buffers s) :=
          List.Perm.append_left _ hstep.buffers_perm
      _ |>.Perm ((d :: ds).map Descriptor.buffer ++ buffers s) := List.perm_middle

theorem fits_append {ds es : List Descriptor} :
    Fits hasParameters s (ds ++ es) ↔
      Fits hasParameters s ds ∧ Fits hasParameters (outputAll hasParameters s ds) es := by
  induction ds generalizing s with
  | nil => simp [Fits, outputAll]
  | cons d ds ih =>
    simp only [List.cons_append, Fits, ih, outputAll, List.foldl_cons]
    exact and_assoc.symm

/-- **No frame is lost or moved out of turn**: after any sequence `ds` of partitions within the
capacity of the stacks every buffer is on the stack or in the ring, exactly once, and the next
partition is stacked or output as `Stacked` says. -/
theorem run_stacked {ds : List Descriptor} {d : Descriptor}
    (hds : ∀ x ∈ ds ++ [d], x.Aligned ∧ hasParameters x.buffer)
    (hfits : Fits hasParameters start (ds ++ [d])) :
    (buffers (outputAll hasParameters start ds)).Perm (ds.map Descriptor.buffer) ∧
      (outputAll hasParameters start ds).temporaryHoldingStack = [] ∧
      Stacked (outputAll hasParameters start ds) d
        (outputAll hasParameters start (ds ++ [d])) := by
  obtain ⟨hfirst, hroom, -⟩ := fits_append.mp hfits
  obtain ⟨hsettled, hperm⟩ := outputAll_settled (s := start) ⟨rfl, by simp [start]⟩
    (fun x hx => hds x (List.mem_append_left [d] hx)) hfirst
  obtain ⟨haligned, hpar⟩ := hds d (by simp)
  have hstep := outputOnePartition_stacked hsettled haligned hpar hroom
  refine ⟨by simpa [buffers, start] using hperm, hsettled.held, ?_⟩
  have hlast : outputAll hasParameters start (ds ++ [d])
      = outputOnePartition hasParameters (outputAll hasParameters start ds) d := by
    simp [outputAll]
  rw [hlast]
  exact hstep

/-- A point with one frame below and one above it, confirmed by the frame after that. -/
theorem run_stacked_four_frames :
    (buffers (outputAll (fun _ => true) start
        [⟨0x10, false, false⟩, ⟨0x20, true, false⟩, ⟨0x30, false, false⟩])).Perm
      [0x10, 0x20, 0x30] ∧
    (outputAll (fun _ => true) start
        [⟨0x10, false, false⟩, ⟨0x20, true, false⟩, ⟨0x30, false, false⟩,
          ⟨0x40, false, true⟩]).outputRing = [0x20, 0x10] := by
  obtain ⟨hperm, -, -⟩ := @run_stacked (fun _ => true)
    [⟨0x10, false, false⟩, ⟨0x20, true, false⟩, ⟨0x30, false, false⟩] ⟨0x40, false, true⟩
    (by unfold Descriptor.Aligned; decide) ⟨by decide, by decide, by decide, by decide, trivial⟩
  exact ⟨hperm, by decide⟩

end Player2.ReversePlay

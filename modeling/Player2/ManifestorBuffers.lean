import Player2.Manifestor
import Mathlib.Data.List.Perm.Basic
import Mathlib.Data.List.Nodup
import Mathlib.Data.List.InsertIdx

/-! # Buffers come back from the display once

A buffer that the manifestor has accepted comes back on the output ring when its `QueueCount` is down to
zero.  The count is raised by the number of its entries before any of them is handed over, and it is lowered
for each done callback that the release thread finds in `DequeuedStreamBuffers`.

`Life` says what the state and the count of a buffer can be while a call is at work on it, and while it
waits; `Used` says that no two buffers are in the same use, and where the accepted uses are.  A step keeps
both as long as it loses no completion: the driver must not refuse an entry, a done callback must not come
before the buffer is marked as queued, and it must find room in the ring. -/

namespace Player2.Manifestor

/-- The stage of the call that is at work on this buffer. -/
def Lock.stage : Lock → ℕ → Option Stage
  | .queuing b stage, b' => if b = b' then some stage else none
  | .free, _ => none
  | .releasing, _ => none

@[simp] theorem Lock.stage_free (b : ℕ) : Lock.free.stage b = none := rfl

@[simp] theorem Lock.stage_releasing (b : ℕ) : Lock.releasing.stage b = none := rfl

@[simp] theorem Lock.stage_self (b : ℕ) (stage : Stage) :
    (Lock.queuing b stage).stage b = some stage := if_pos rfl

theorem Lock.stage_of_ne {b b' : ℕ} (h : b' ≠ b) (stage : Stage) :
    (Lock.queuing b stage).stage b' = none := if_neg (Ne.symm h)

/-- What the count of a buffer is, and how many entries it has that are not taken off the count, in each
state and at each stage of a call; `pending` is `NotQueuedBufferCount`. -/
def Life (pending : ℕ) : BufferState → Option Stage → (queueCount entries : ℕ) → Prop
  | .available, none, queueCount, entries => queueCount = 0 ∧ entries = 0
  | .available, some .latched, queueCount, entries => queueCount = 0 ∧ entries = 0
  | .notQueued, some .cleared, queueCount, entries => queueCount = 0 ∧ entries = 0
  | .notQueued, some (.putting left _), queueCount, entries => queueCount = entries + left ∧ 0 < queueCount
  | .notQueued, none, queueCount, entries => queueCount = 0 ∧ entries = 0 ∧ 0 < pending
  | .queued, none, queueCount, entries => queueCount = entries ∧ 0 < queueCount
  | .multiQueue, some (.putting left _), queueCount, entries =>
    queueCount = entries + left ∧ 0 < queueCount
  | .multiQueue, _, queueCount, entries => queueCount = entries ∧ 0 < queueCount
  | _, _, _, _ => False

theorem Life.mono {pending pending' queueCount entries : ℕ} {state : BufferState} {stage : Option Stage}
    (h : Life pending state stage queueCount entries) (hle : pending ≤ pending') :
    Life pending' state stage queueCount entries := by
  unfold Life at h ⊢
  split at h
  case h_5 => exact ⟨h.1, h.2.1, Nat.lt_of_lt_of_le h.2.2 hle⟩
  all_goals exact h

/-- A buffer of this kind is in use. -/
def inUse : BufferState → Option Stage → Bool
  | .available, none => false
  | _, _ => true

/-- The use of a buffer of this kind is accepted, and has not ended. -/
def isHeld : BufferState → Option Stage → Bool
  | .available, _ => false
  | .notQueued, some _ => false
  | _, _ => true

theorem inUse_of_isHeld {state : BufferState} {stage : Option Stage} (h : isHeld state stage = true) :
    inUse state stage = true := by
  cases state <;> cases stage <;> first | rfl | cases h

namespace ManifestorState

/-! ### The counts -/

/-- The stage of the call that is at work on this buffer. -/
def stage (s : ManifestorState) (b : ℕ) : Option Stage := s.lock.stage b

/-- The entries of a buffer that the driver is not done with, and those that have not been taken from the
ring. -/
def entries (s : ManifestorState) (b : ℕ) : ℕ := (s.plane.map Entry.index).count b + s.returned.count b

/-- The life of each buffer is as it should be. -/
structure Counted (s : ManifestorState) : Prop where
  life : ∀ b, Life s.notQueuedBufferCount (s.buffers b).bufferState (s.stage b) (s.buffers b).queueCount
    (s.entries b)
  small : ∀ b, (s.buffers b).queueCount < 2 ^ 32

/-- The ring holds the buffers of the done callbacks that have not been looked at. -/
structure Consumed (s : ManifestorState) : Prop where
  fits : s.dequeuedStreamBuffers.Fits maxDequeueBuffers
  held : s.dequeuedStreamBuffers.held maxDequeueBuffers = s.returned

/-- Two states agree on a buffer. -/
structure Agree (s s' : ManifestorState) (b : ℕ) : Prop where
  bufferState : (s'.buffers b).bufferState = (s.buffers b).bufferState
  queueCount : (s'.buffers b).queueCount = (s.buffers b).queueCount
  use : (s'.buffers b).use = (s.buffers b).use
  stage : s'.stage b = s.stage b
  entries : s'.entries b = s.entries b

variable {s s' : ManifestorState}

theorem Counted.of_agree (h : s.Counted) (hpending : s.notQueuedBufferCount ≤ s'.notQueuedBufferCount)
    (hagree : ∀ b, Agree s s' b) : s'.Counted := by
  constructor
  · intro b
    have hb := hagree b
    rw [hb.bufferState, hb.queueCount, hb.stage, hb.entries]
    exact (h.life b).mono hpending
  · intro b
    rw [(hagree b).queueCount]
    exact h.small b

theorem Counted.of_agree_others (h : s.Counted)
    (hpending : s.notQueuedBufferCount ≤ s'.notQueuedBufferCount) (b : ℕ)
    (hagree : ∀ b', b' ≠ b → Agree s s' b')
    (hlife : Life s'.notQueuedBufferCount (s'.buffers b).bufferState (s'.stage b)
      (s'.buffers b).queueCount (s'.entries b))
    (hsmall : (s'.buffers b).queueCount < 2 ^ 32) : s'.Counted := by
  constructor
  · intro b'
    by_cases hb' : b' = b
    · rw [hb']
      exact hlife
    · have hb := hagree b' hb'
      rw [hb.bufferState, hb.queueCount, hb.stage, hb.entries]
      exact (h.life b').mono hpending
  · intro b'
    by_cases hb' : b' = b
    · rw [hb']
      exact hsmall
    · rw [(hagree b' hb').queueCount]
      exact h.small b'

@[simp] theorem updateBuffer_self (s : ManifestorState) (b : ℕ) (f : StreamBuffer → StreamBuffer) :
    (s.updateBuffer b f).buffers b = f (s.buffers b) := Function.update_self ..

theorem updateBuffer_of_ne (s : ManifestorState) {b b' : ℕ} (h : b' ≠ b)
    (f : StreamBuffer → StreamBuffer) : (s.updateBuffer b f).buffers b' = s.buffers b' :=
  Function.update_of_ne h ..

@[simp] theorem latchEventPending_self (s : ManifestorState) (b : ℕ) :
    (s.latchEventPending b).buffers b = { s.buffers b with eventPending := s.eventPending } :=
  s.updateBuffer_self b fun buffer => { buffer with eventPending := s.eventPending }

theorem latchEventPending_of_ne (s : ManifestorState) {b b' : ℕ} (h : b' ≠ b) :
    (s.latchEventPending b).buffers b' = s.buffers b' :=
  s.updateBuffer_of_ne h fun buffer => { buffer with eventPending := s.eventPending }

/-! ### The uses -/

/-- The buffer is in use. -/
def InUse (s : ManifestorState) (b : ℕ) : Prop := inUse (s.buffers b).bufferState (s.stage b) = true

/-- The use of the buffer is accepted, and has not ended. -/
def IsHeld (s : ManifestorState) (b : ℕ) : Prop := isHeld (s.buffers b).bufferState (s.stage b) = true

/-- The uses that have ended. -/
def back (s : ManifestorState) : List ℕ := s.outputRing.map Insertion.use

/-- The uses of the buffers that are in use differ, and are not back; the accepted ones are back or are
still held. -/
structure Used (s : ManifestorState) : Prop where
  bound : ∀ b, s.InUse b → b < maxDecodeBuffers
  fresh : ∀ b, s.InUse b → (s.buffers b).use < s.uses
  notBack : ∀ b, s.InUse b → (s.buffers b).use ∉ s.back
  apart : ∀ b b', s.InUse b → s.InUse b' → (s.buffers b).use = (s.buffers b').use → b = b'
  ofPlane : ∀ e ∈ s.plane, e.use = (s.buffers e.index).use
  acceptedNodup : s.accepted.Nodup
  backNodup : s.back.Nodup
  back_lt : ∀ u ∈ s.back, u < s.uses
  mem_accepted : ∀ u, u ∈ s.accepted ↔ u ∈ s.back ∨ ∃ b, s.IsHeld b ∧ (s.buffers b).use = u

theorem Agree.inUse_iff {b : ℕ} (h : Agree s s' b) : s'.InUse b ↔ s.InUse b := by
  unfold InUse
  rw [h.bufferState, h.stage]

theorem Agree.isHeld_iff {b : ℕ} (h : Agree s s' b) : s'.IsHeld b ↔ s.IsHeld b := by
  unfold IsHeld
  rw [h.bufferState, h.stage]

theorem Used.keep (h : s.Used) (hinUse : ∀ b, s'.InUse b → s.InUse b)
    (hheld : ∀ b, s'.IsHeld b ↔ s.IsHeld b) (huse : ∀ b, (s'.buffers b).use = (s.buffers b).use)
    (hplane : ∀ e ∈ s'.plane, e.use = (s.buffers e.index).use) (huses : s'.uses = s.uses)
    (haccepted : s'.accepted = s.accepted) (hback : s'.back = s.back) : s'.Used where
  bound b hb := h.bound b (hinUse b hb)
  fresh b hb := by
    rw [huse, huses]
    exact h.fresh b (hinUse b hb)
  notBack b hb := by
    rw [huse, hback]
    exact h.notBack b (hinUse b hb)
  apart b b' hb hb' heq := by
    rw [huse, huse] at heq
    exact h.apart b b' (hinUse b hb) (hinUse b' hb') heq
  ofPlane e he := by
    rw [huse]
    exact hplane e he
  acceptedNodup := by
    rw [haccepted]
    exact h.acceptedNodup
  backNodup := by
    rw [hback]
    exact h.backNodup
  back_lt := by
    rw [hback, huses]
    exact h.back_lt
  mem_accepted u := by
    rw [haccepted, hback, h.mem_accepted u]
    simp only [hheld, huse]

theorem Used.begin (h : s.Used) {b : ℕ} (hb : b < maxDecodeBuffers)
    (hempty : ∀ e ∈ s.plane, e.index ≠ b) (hothers : ∀ b', b' ≠ b → Agree s s' b')
    (huse : (s'.buffers b).use = s.uses) (hheld : ¬ s.IsHeld b) (hheld' : ¬ s'.IsHeld b)
    (hplane : s'.plane = s.plane) (huses : s'.uses = s.uses + 1)
    (haccepted : s'.accepted = s.accepted) (hback : s'.back = s.back) : s'.Used where
  bound b' hb' := by
    by_cases heq : b' = b
    · rwa [heq]
    · exact h.bound b' ((hothers b' heq).inUse_iff.mp hb')
  fresh b' hb' := by
    rw [huses]
    by_cases heq : b' = b
    · rw [heq, huse]
      exact Nat.lt_succ_self _
    · rw [(hothers b' heq).use]
      exact Nat.lt_succ_of_lt (h.fresh b' ((hothers b' heq).inUse_iff.mp hb'))
  notBack b' hb' := by
    rw [hback]
    by_cases heq : b' = b
    · rw [heq, huse]
      exact fun hmem => Nat.lt_irrefl _ (h.back_lt _ hmem)
    · rw [(hothers b' heq).use]
      exact h.notBack b' ((hothers b' heq).inUse_iff.mp hb')
  apart b' b'' hb' hb'' hequal := by
    by_cases heq : b' = b <;> by_cases heq' : b'' = b
    · rw [heq, heq']
    · rw [heq, huse, (hothers b'' heq').use] at hequal
      exact absurd hequal (Nat.ne_of_gt (h.fresh b'' ((hothers b'' heq').inUse_iff.mp hb'')))
    · rw [heq', huse, (hothers b' heq).use] at hequal
      exact absurd hequal (Nat.ne_of_lt (h.fresh b' ((hothers b' heq).inUse_iff.mp hb')))
    · rw [(hothers b' heq).use, (hothers b'' heq').use] at hequal
      exact h.apart b' b'' ((hothers b' heq).inUse_iff.mp hb') ((hothers b'' heq').inUse_iff.mp hb'') hequal
  ofPlane e he := by
    rw [hplane] at he
    rw [(hothers e.index (hempty e he)).use]
    exact h.ofPlane e he
  acceptedNodup := by
    rw [haccepted]
    exact h.acceptedNodup
  backNodup := by
    rw [hback]
    exact h.backNodup
  back_lt u hu := by
    rw [hback] at hu
    rw [huses]
    exact Nat.lt_succ_of_lt (h.back_lt u hu)
  mem_accepted u := by
    rw [haccepted, hback, h.mem_accepted u]
    refine or_congr_right (exists_congr fun b' => ?_)
    by_cases heq : b' = b
    · rw [heq]
      exact iff_of_false (fun hand => hheld hand.1) fun hand => hheld' hand.1
    · rw [(hothers b' heq).isHeld_iff, (hothers b' heq).use]

theorem Used.accept (h : s.Used) {b : ℕ} (hothers : ∀ b', b' ≠ b → Agree s s' b')
    (huse : (s'.buffers b).use = (s.buffers b).use) (hinUse : s.InUse b) (hheld : ¬ s.IsHeld b)
    (hheld' : s'.IsHeld b) (hplane : s'.plane = s.plane) (huses : s'.uses = s.uses)
    (haccepted : s'.accepted = s.accepted ++ [(s.buffers b).use]) (hback : s'.back = s.back) :
    s'.Used := by
  have hstays : ∀ b', s'.InUse b' → s.InUse b' := by
    intro b' hb'
    by_cases heq : b' = b
    · rwa [heq]
    · exact (hothers b' heq).inUse_iff.mp hb'
  have huse' : ∀ b', (s'.buffers b').use = (s.buffers b').use := by
    intro b'
    by_cases heq : b' = b
    · rw [heq, huse]
    · exact (hothers b' heq).use
  have hnot : (s.buffers b).use ∉ s.accepted := by
    rw [h.mem_accepted]
    rintro (hback | ⟨b', hb', heq⟩)
    · exact h.notBack b hinUse hback
    · obtain rfl := h.apart b' b (inUse_of_isHeld hb') hinUse heq
      exact hheld hb'
  constructor
  case bound => exact fun b' hb' => h.bound b' (hstays b' hb')
  case fresh =>
    intro b' hb'
    rw [huse', huses]
    exact h.fresh b' (hstays b' hb')
  case notBack =>
    intro b' hb'
    rw [huse', hback]
    exact h.notBack b' (hstays b' hb')
  case apart =>
    intro b' b'' hb' hb'' heq
    rw [huse', huse'] at heq
    exact h.apart b' b'' (hstays b' hb') (hstays b'' hb'') heq
  case ofPlane =>
    intro e he
    rw [hplane] at he
    rw [huse']
    exact h.ofPlane e he
  case acceptedNodup =>
    rw [haccepted, List.nodup_append_comm]
    exact List.nodup_cons.mpr ⟨hnot, h.acceptedNodup⟩
  case backNodup =>
    rw [hback]
    exact h.backNodup
  case back_lt =>
    rw [hback, huses]
    exact h.back_lt
  case mem_accepted =>
    intro u
    rw [haccepted, hback, List.mem_append, List.mem_singleton, h.mem_accepted u, or_assoc]
    refine or_congr_right ⟨?_, ?_⟩
    · rintro (⟨b', hb', heq⟩ | heq)
      · have hne : b' ≠ b := by
          rintro rfl
          exact hheld hb'
        exact ⟨b', (hothers b' hne).isHeld_iff.mpr hb', by rw [huse', heq]⟩
      · exact ⟨b, hheld', by rw [huse, heq]⟩
    · rintro ⟨b', hb', heq⟩
      rw [huse'] at heq
      by_cases heq' : b' = b
      · rw [heq'] at heq
        exact .inr heq.symm
      · exact .inl ⟨b', (hothers b' heq').isHeld_iff.mp hb', heq⟩

theorem Used.release (h : s.Used) (gone : List ℕ) (hnodup : gone.Nodup) (hheld : ∀ b ∈ gone, s.IsHeld b)
    (hinUse : ∀ b, s'.InUse b → s.InUse b ∧ b ∉ gone)
    (hheld' : ∀ b, s'.IsHeld b ↔ s.IsHeld b ∧ b ∉ gone)
    (huse : ∀ b, (s'.buffers b).use = (s.buffers b).use) (hplane : s'.plane = s.plane)
    (huses : s'.uses = s.uses) (haccepted : s'.accepted = s.accepted)
    (hback : s'.back = s.back ++ gone.map fun b => (s.buffers b).use) : s'.Used where
  bound b hb := h.bound b (hinUse b hb).1
  fresh b hb := by
    rw [huse, huses]
    exact h.fresh b (hinUse b hb).1
  notBack b hb := by
    obtain ⟨hb, hnot⟩ := hinUse b hb
    rw [huse, hback, List.mem_append, List.mem_map]
    rintro (hmem | ⟨b', hb', heq⟩)
    · exact h.notBack b hb hmem
    · obtain rfl := h.apart b' b (inUse_of_isHeld (hheld b' hb')) hb heq
      exact hnot hb'
  apart b b' hb hb' heq := by
    rw [huse, huse] at heq
    exact h.apart b b' (hinUse b hb).1 (hinUse b' hb').1 heq
  ofPlane e he := by
    rw [hplane] at he
    rw [huse]
    exact h.ofPlane e he
  acceptedNodup := by
    rw [haccepted]
    exact h.acceptedNodup
  backNodup := by
    rw [hback, List.nodup_append]
    refine ⟨h.backNodup, ?_, ?_⟩
    · refine (List.nodup_map_iff_inj_on hnodup).mpr fun b hb b' hb' heq => ?_
      exact h.apart b b' (inUse_of_isHeld (hheld b hb)) (inUse_of_isHeld (hheld b' hb')) heq
    · intro u hu u' hu' heq
      obtain ⟨b, hb, rfl⟩ := List.mem_map.mp hu'
      exact h.notBack b (inUse_of_isHeld (hheld b hb)) (heq ▸ hu)
  back_lt u hu := by
    rw [hback, List.mem_append, List.mem_map] at hu
    rw [huses]
    rcases hu with hu | ⟨b, hb, rfl⟩
    · exact h.back_lt u hu
    · exact h.fresh b (inUse_of_isHeld (hheld b hb))
  mem_accepted u := by
    rw [haccepted, hback, h.mem_accepted u, List.mem_append, or_assoc, List.mem_map]
    simp only [hheld', huse]
    refine or_congr_right ⟨?_, ?_⟩
    · rintro ⟨b, hb, heq⟩
      by_cases hmem : b ∈ gone
      · exact .inl ⟨b, hmem, heq⟩
      · exact .inr ⟨b, ⟨hb, hmem⟩, heq⟩
    · rintro (⟨b, hb, heq⟩ | ⟨b, ⟨hb, -⟩, heq⟩)
      · exact ⟨b, hheld b hb, heq⟩
      · exact ⟨b, hb, heq⟩

/-! ### One buffer at a time -/

/-- What came back had no entries left, and no count. -/
def Clean (s : ManifestorState) : Prop := ∀ i ∈ s.outputRing, i.queueCount = 0 ∧ i.outstanding = 0

/-- Everything is accounted for. -/
structure Sound (s : ManifestorState) : Prop where
  counted : s.Counted
  used : s.Used
  consumed : s.Consumed
  clean : s.Clean

/-- What the steps of a call leave as it is. -/
structure SameRings (s s' : ManifestorState) : Prop where
  dequeuedStreamBuffers : s'.dequeuedStreamBuffers = s.dequeuedStreamBuffers
  returned : s'.returned = s.returned
  outputRing : s'.outputRing = s.outputRing

theorem SameRings.consumed (h : SameRings s s') (hs : s.Consumed) : s'.Consumed := by
  constructor
  · rw [h.dequeuedStreamBuffers]
    exact hs.fits
  · rw [h.dequeuedStreamBuffers, h.returned]
    exact hs.held

theorem SameRings.clean (h : SameRings s s') (hs : s.Clean) : s'.Clean := by
  unfold Clean
  rw [h.outputRing]
  exact hs

theorem SameRings.back (h : SameRings s s') : s'.back = s.back := by
  unfold ManifestorState.back
  rw [h.outputRing]

/-- A lock that is free or taken for this buffer. -/
def Concerns (s : ManifestorState) (b : ℕ) : Prop := ∀ b', b' ≠ b → s.stage b' = none

theorem concerns_free (h : s.lock = .free) (b : ℕ) : s.Concerns b := by
  intro b' _
  unfold stage
  rw [h, Lock.stage_free]

theorem concerns_releasing (h : s.lock = .releasing) (b : ℕ) : s.Concerns b := by
  intro b' _
  unfold stage
  rw [h, Lock.stage_releasing]

theorem concerns_queuing {b : ℕ} {stage : Stage} (h : s.lock = .queuing b stage) : s.Concerns b := by
  intro b' hb'
  unfold ManifestorState.stage
  rw [h, Lock.stage_of_ne hb']

theorem stage_queuing {b : ℕ} {stage : Stage} (h : s.lock = .queuing b stage) : s.stage b = some stage := by
  unfold ManifestorState.stage
  rw [h, Lock.stage_self]

theorem stage_free (h : s.lock = .free) (b : ℕ) : s.stage b = none := by
  unfold stage
  rw [h, Lock.stage_free]

theorem agree_others {b : ℕ} (hlock : s.Concerns b) (hlock' : s'.Concerns b)
    (hbuffers : ∀ b', b' ≠ b → s'.buffers b' = s.buffers b')
    (hentries : ∀ b', b' ≠ b → s'.entries b' = s.entries b') (b' : ℕ) (hb' : b' ≠ b) :
    Agree s s' b' where
  bufferState := by rw [hbuffers b' hb']
  queueCount := by rw [hbuffers b' hb']
  use := by rw [hbuffers b' hb']
  stage := by rw [hlock b' hb', hlock' b' hb']
  entries := hentries b' hb'

theorem Sound.keep (h : s.Sound) (hagree : ∀ b, Agree s s' b) (hrings : SameRings s s')
    (hpending : s.notQueuedBufferCount ≤ s'.notQueuedBufferCount)
    (hplane : ∀ e ∈ s'.plane, e.use = (s.buffers e.index).use) (huses : s'.uses = s.uses)
    (haccepted : s'.accepted = s.accepted) : s'.Sound where
  counted := h.counted.of_agree hpending hagree
  used := h.used.keep (fun b => (hagree b).inUse_iff.mp) (fun b => (hagree b).isHeld_iff)
    (fun b => (hagree b).use) hplane huses haccepted hrings.back
  consumed := hrings.consumed h.consumed
  clean := hrings.clean h.clean

theorem Sound.change (h : s.Sound) (b : ℕ) (hothers : ∀ b', b' ≠ b → Agree s s' b')
    (hrings : SameRings s s') (hpending : s.notQueuedBufferCount ≤ s'.notQueuedBufferCount)
    (hlife : Life s'.notQueuedBufferCount (s'.buffers b).bufferState (s'.stage b)
      (s'.buffers b).queueCount (s'.entries b))
    (hsmall : (s'.buffers b).queueCount < 2 ^ 32) (huse : (s'.buffers b).use = (s.buffers b).use)
    (hinUse : s'.InUse b → s.InUse b) (hheld : s'.IsHeld b ↔ s.IsHeld b)
    (hplane : ∀ e ∈ s'.plane, e.use = (s.buffers e.index).use) (huses : s'.uses = s.uses)
    (haccepted : s'.accepted = s.accepted) : s'.Sound where
  counted := h.counted.of_agree_others hpending b hothers hlife hsmall
  used := by
    refine h.used.keep (fun b' => ?_) (fun b' => ?_) (fun b' => ?_) hplane huses haccepted hrings.back
    · by_cases heq : b' = b
      · rwa [heq]
      · exact (hothers b' heq).inUse_iff.mp
    · by_cases heq : b' = b
      · rwa [heq]
      · exact (hothers b' heq).isHeld_iff
    · by_cases heq : b' = b
      · rwa [heq]
      · exact (hothers b' heq).use
  consumed := hrings.consumed h.consumed
  clean := hrings.clean h.clean

/-! ### The steps of a call -/

theorem Sound.available (h : s.Sound) {b : ℕ} (hstate : (s.buffers b).bufferState = .available) :
    (s.buffers b).queueCount = 0 ∧ s.entries b = 0 := by
  have hlife := h.counted.life b
  rw [hstate] at hlife
  unfold Life at hlife
  split at hlife
  case h_1 => exact hlife
  case h_2 => exact hlife
  all_goals contradiction

theorem Sound.queueDecodeBuffer (h : s.Sound) {b : ℕ} (hlock : s.lock = .free) (hb : b < maxDecodeBuffers)
    (hstate : (s.buffers b).bufferState = .available) : (s.queueDecodeBuffer b).Sound := by
  obtain ⟨hcount, hentries⟩ := h.available hstate
  have hothers : ∀ b', b' ≠ b → Agree s (s.queueDecodeBuffer b) b' := by
    refine agree_others (concerns_free hlock b) (concerns_queuing rfl) (fun b' hb' => ?_) fun _ _ => rfl
    exact (latchEventPending_of_ne _ hb').trans (updateBuffer_of_ne s hb' _)
  have hbuffer : (s.queueDecodeBuffer b).buffers b =
      { s.buffers b with use := s.uses, eventPending := s.eventPending } := by
    refine (latchEventPending_self _ b).trans ?_
    rw [updateBuffer_self]
    rfl
  have hstage : (s.queueDecodeBuffer b).stage b = some .latched := stage_queuing rfl
  constructor
  · refine h.counted.of_agree_others le_rfl b hothers ?_ ?_
    · rw [hbuffer, hstage, hstate]
      exact ⟨hcount, hentries⟩
    · rw [hbuffer]
      exact h.counted.small b
  · refine h.used.begin hb ?_ hothers (by rw [hbuffer]) ?_ ?_ rfl rfl rfl rfl
    · rintro e he rfl
      have hmem : e.index ∈ s.plane.map Entry.index := List.mem_map_of_mem he
      have hpos := List.count_pos_iff.mpr hmem
      unfold entries at hentries
      omega
    · unfold IsHeld
      rw [hstate]
      exact Bool.false_ne_true
    · unfold IsHeld
      rw [hbuffer, hstate]
      exact Bool.false_ne_true
  · exact ⟨h.consumed.fits, h.consumed.held⟩
  · exact h.clean

theorem Sound.requeueBuffer (h : s.Sound) {b : ℕ} (hlock : s.lock = .free)
    (hstate : (s.buffers b).bufferState = .queued ∨ (s.buffers b).bufferState = .multiQueue) :
    (s.requeueBuffer b).Sound := by
  have hlife := h.counted.life b
  have hnone := stage_free hlock b
  have hbuffer : (s.requeueBuffer b).buffers b =
      { s.buffers b with bufferState := .multiQueue, eventPending := s.eventPending } := by
    refine (latchEventPending_self _ b).trans ?_
    rw [updateBuffer_self]
    rfl
  have hstage : (s.requeueBuffer b).stage b = some .latched := stage_queuing rfl
  have hheld : s.IsHeld b := by
    unfold IsHeld
    rcases hstate with hstate | hstate <;> rw [hstate] <;> rfl
  refine h.change b ?_ ⟨rfl, rfl, rfl⟩ le_rfl ?_ ?_ ?_ (fun _ => inUse_of_isHeld hheld) ?_ h.used.ofPlane
    rfl rfl
  · refine agree_others (concerns_free hlock b) (concerns_queuing rfl) (fun b' hb' => ?_) fun _ _ => rfl
    exact (latchEventPending_of_ne _ hb').trans (updateBuffer_of_ne s hb' _)
  · rw [hbuffer, hstage]
    rw [hnone] at hlife
    rcases hstate with hstate | hstate <;> rw [hstate] at hlife <;> exact hlife
  · rw [hbuffer]
    exact h.counted.small b
  · rw [hbuffer]
  · refine iff_of_true ?_ hheld
    unfold IsHeld
    rw [hbuffer, hstage]
    rfl

theorem moved_fields (buffer : StreamBuffer) (old new : BufferState) :
    (if buffer.bufferState = old then { buffer with bufferState := new } else buffer) =
      { buffer with bufferState := if buffer.bufferState = old then new else buffer.bufferState } := by
  split <;> rfl

theorem Sound.clearEventPending (h : s.Sound) {b : ℕ} (hlock : s.lock = .queuing b .latched) :
    (s.clearEventPending b).Sound := by
  have hlife := h.counted.life b
  have hbefore := stage_queuing hlock
  have hstage : (s.clearEventPending b).stage b = some .cleared := stage_queuing rfl
  have hbuffer : (s.clearEventPending b).buffers b = { s.buffers b with
      bufferState := if (s.buffers b).bufferState = .available then .notQueued
        else (s.buffers b).bufferState } := (updateBuffer_self ..).trans (moved_fields ..)
  rw [hbefore] at hlife
  have hstate : (s.buffers b).bufferState = .available ∨ (s.buffers b).bufferState = .multiQueue := by
    cases hstate : (s.buffers b).bufferState <;> rw [hstate] at hlife <;>
      first | exact .inl rfl | exact .inr rfl | exact hlife.elim
  refine h.change b ?_ ⟨rfl, rfl, rfl⟩ le_rfl ?_ ?_ ?_ ?_ ?_ h.used.ofPlane rfl rfl
  · exact agree_others (concerns_queuing hlock) (concerns_queuing rfl)
      (fun b' hb' => updateBuffer_of_ne s hb' _) fun _ _ => rfl
  · rw [hbuffer, hstage]
    rcases hstate with hstate | hstate <;> rw [hstate] at hlife ⊢ <;> exact hlife
  · rw [hbuffer]
    exact h.counted.small b
  · rw [hbuffer]
  · intro _
    unfold InUse
    rw [hbefore]
    rcases hstate with hstate | hstate <;> rw [hstate] <;> rfl
  · unfold IsHeld
    rw [hbuffer, hstage, hbefore]
    rcases hstate with hstate | hstate <;> rw [hstate] <;> exact Iff.rfl

theorem Sound.state_of_cleared (h : s.Sound) {b : ℕ} (hlock : s.lock = .queuing b .cleared) :
    (s.buffers b).bufferState = .notQueued ∨ (s.buffers b).bufferState = .multiQueue := by
  have hlife := h.counted.life b
  rw [stage_queuing hlock] at hlife
  cases hstate : (s.buffers b).bufferState <;> rw [hstate] at hlife <;>
    first | exact .inl rfl | exact .inr rfl | exact hlife.elim

theorem Sound.state_of_putting (h : s.Sound) {b left : ℕ} {first : Bool}
    (hlock : s.lock = .queuing b (.putting left first)) :
    (s.buffers b).bufferState = .notQueued ∨ (s.buffers b).bufferState = .multiQueue := by
  have hlife := h.counted.life b
  rw [stage_queuing hlock] at hlife
  cases hstate : (s.buffers b).bufferState <;> rw [hstate] at hlife <;>
    first | exact .inl rfl | exact .inr rfl | exact hlife.elim

theorem Sound.displayWindowsFail (h : s.Sound) {b : ℕ} (hlock : s.lock = .queuing b .cleared) :
    (s.displayWindowsFail b).Sound := by
  have hlife := h.counted.life b
  have hbefore := stage_queuing hlock
  have hstate := h.state_of_cleared hlock
  have hstage : (s.displayWindowsFail b).stage b = none := stage_free rfl b
  have hbuffer : (s.displayWindowsFail b).buffers b = { s.buffers b with
      bufferState := if (s.buffers b).bufferState = .notQueued then .available
        else (s.buffers b).bufferState } := (updateBuffer_self ..).trans (moved_fields ..)
  rw [hbefore] at hlife
  refine h.change b ?_ ⟨rfl, rfl, rfl⟩ le_rfl ?_ ?_ ?_ ?_ ?_ h.used.ofPlane rfl rfl
  · exact agree_others (concerns_queuing hlock) (concerns_free rfl b)
      (fun b' hb' => updateBuffer_of_ne s hb' _) fun _ _ => rfl
  · rw [hbuffer, hstage]
    rcases hstate with hstate | hstate <;> rw [hstate] at hlife ⊢ <;> exact hlife
  · rw [hbuffer]
    exact h.counted.small b
  · rw [hbuffer]
  · intro _
    unfold InUse
    rcases hstate with hstate | hstate <;> rw [hstate] <;> rfl
  · unfold IsHeld
    rw [hbuffer, hstage, hbefore]
    rcases hstate with hstate | hstate <;> rw [hstate] <;> exact Iff.rfl

theorem Sound.leaveNotQueued (h : s.Sound) {b : ℕ} (hlock : s.lock = .queuing b .cleared) :
    (s.leaveNotQueued b).Sound := by
  have hlife := h.counted.life b
  have hbefore := stage_queuing hlock
  have hstage : (s.leaveNotQueued b).stage b = none := stage_free rfl b
  have hothers : ∀ b', b' ≠ b → Agree s (s.leaveNotQueued b) b' :=
    agree_others (concerns_queuing hlock) (concerns_free rfl b) (fun _ _ => rfl) fun _ _ => rfl
  have hpending : s.notQueuedBufferCount ≤ s.notQueuedBufferCount + 1 := Nat.le_succ _
  rw [hbefore] at hlife
  rcases h.state_of_cleared hlock with hstate | hstate
  · rw [hstate] at hlife
    have hlife' : Life (s.leaveNotQueued b).notQueuedBufferCount (s.buffers b).bufferState
        ((s.leaveNotQueued b).stage b) (s.buffers b).queueCount (s.entries b) := by
      rw [hstate, hstage]
      exact ⟨hlife.1, hlife.2, Nat.succ_pos _⟩
    refine ⟨h.counted.of_agree_others hpending b hothers hlife' (h.counted.small b), ?_,
      ⟨h.consumed.fits, h.consumed.held⟩, h.clean⟩
    have haccepted : (s.leaveNotQueued b).accepted = s.accepted ++ [(s.buffers b).use] := if_pos hstate
    refine h.used.accept (b := b) hothers rfl ?_ ?_ ?_ rfl rfl haccepted rfl
    · unfold InUse
      rw [hstate, hbefore]
      rfl
    · unfold IsHeld
      rw [hstate, hbefore]
      exact Bool.false_ne_true
    · change isHeld (s.buffers b).bufferState _ = true
      rw [hstate, hstage]
      rfl
  · have haccepted : (s.leaveNotQueued b).accepted = s.accepted :=
      if_neg (by rw [hstate]; exact fun hne => by cases hne)
    refine h.change b hothers ⟨rfl, rfl, rfl⟩ hpending ?_ (h.counted.small b) rfl ?_ ?_ h.used.ofPlane rfl
      haccepted
    · change Life _ (s.buffers b).bufferState _ (s.buffers b).queueCount _
      rw [hstate] at hlife ⊢
      exact hlife
    · intro _
      unfold InUse
      rw [hbefore, hstate]
      rfl
    · unfold IsHeld
      change isHeld (s.buffers b).bufferState _ = true ↔ _
      rw [hstage, hbefore, hstate]
      exact Iff.rfl

theorem Sound.raiseQueueCount (h : s.Sound) {b n : ℕ} (hlock : s.lock = .queuing b .cleared) (hn : 0 < n)
    (hsmall : (s.buffers b).queueCount + n < 2 ^ 32) : (s.raiseQueueCount b n).Sound := by
  have hlife := h.counted.life b
  have hbefore := stage_queuing hlock
  have hstate := h.state_of_cleared hlock
  have hstage : (s.raiseQueueCount b n).stage b = some (.putting n true) := stage_queuing rfl
  have hbuffer : (s.raiseQueueCount b n).buffers b =
      { s.buffers b with queueCount := (s.buffers b).queueCount + n } := by
    refine (s.updateBuffer_self b fun buffer =>
      { buffer with queueCount := (buffer.queueCount + n) % 2 ^ 32 }).trans ?_
    rw [Nat.mod_eq_of_lt hsmall]
  have hentries : (s.raiseQueueCount b n).entries b = s.entries b := rfl
  rw [hbefore] at hlife
  refine h.change b ?_ ⟨rfl, rfl, rfl⟩ le_rfl ?_ ?_ ?_ ?_ ?_ h.used.ofPlane rfl rfl
  · exact agree_others (concerns_queuing hlock) (concerns_queuing rfl)
      (fun b' hb' => Function.update_of_ne hb' ..) fun _ _ => rfl
  · rw [hbuffer, hstage, hentries]
    rcases hstate with hstate | hstate <;> rw [hstate] at hlife
    · refine hstate ▸ ⟨?_, ?_⟩
      · rw [hlife.1, hlife.2]
      · exact Nat.add_pos_right _ hn
    · refine hstate ▸ ⟨?_, ?_⟩
      · rw [hlife.1]
      · exact Nat.add_pos_right _ hn
  · rw [hbuffer]
    exact hsmall
  · rw [hbuffer]
  · intro _
    unfold InUse
    rcases hstate with hstate | hstate <;> rw [hstate] <;> rfl
  · unfold IsHeld
    rw [hbuffer, hstage, hbefore]
    rcases hstate with hstate | hstate <;> rw [hstate] <;> exact Iff.rfl

theorem Sound.planeAccepts (h : s.Sound) {b left : ℕ} {first : Bool}
    (hlock : s.lock = .queuing b (.putting (left + 1) first)) : (s.planeAccepts b left first).Sound := by
  have hlife := h.counted.life b
  have hbefore := stage_queuing hlock
  have hstate := h.state_of_putting hlock
  have hstage : (s.planeAccepts b left first).stage b = some (.putting left false) := stage_queuing rfl
  have hentries (b' : ℕ) : (s.planeAccepts b left first).entries b' =
      s.entries b' + if b = b' then 1 else 0 := by
    unfold entries ManifestorState.planeAccepts
    rw [List.map_append, List.count_append, List.map_singleton, List.count_singleton]
    simp only [beq_iff_eq]
    omega
  rw [hbefore] at hlife
  refine h.change b ?_ ⟨rfl, rfl, rfl⟩ le_rfl ?_ (h.counted.small b) rfl ?_ ?_ ?_ rfl rfl
  · refine agree_others (concerns_queuing hlock) (concerns_queuing rfl) (fun _ _ => rfl) fun b' hb' => ?_
    rw [hentries, if_neg (Ne.symm hb'), Nat.add_zero]
  · change Life _ (s.buffers b).bufferState _ (s.buffers b).queueCount _
    rw [hstage, hentries, if_pos rfl]
    rcases hstate with hstate | hstate <;> rw [hstate] at hlife ⊢ <;>
      exact ⟨by rw [hlife.1]; omega, hlife.2⟩
  · intro _
    unfold InUse
    rcases hstate with hstate | hstate <;> rw [hstate] <;> rfl
  · unfold IsHeld
    change isHeld (s.buffers b).bufferState _ = true ↔ _
    rw [hstage, hbefore]
    rcases hstate with hstate | hstate <;> rw [hstate] <;> exact Iff.rfl
  · intro e he
    rcases List.mem_append.mp he with he | he
    · exact h.used.ofPlane e he
    · obtain rfl := List.mem_singleton.mp he
      rfl

theorem Sound.bufferQueued (h : s.Sound) {b : ℕ} {first : Bool}
    (hlock : s.lock = .queuing b (.putting 0 first)) : (s.bufferQueued b).Sound := by
  have hlife := h.counted.life b
  have hbefore := stage_queuing hlock
  rw [hbefore] at hlife
  unfold ManifestorState.bufferQueued
  rcases h.state_of_putting hlock with hstate | hstate
  · rw [if_pos hstate]
    rw [hstate] at hlife
    have hbuffer := s.updateBuffer_self b fun buffer => { buffer with bufferState := .queued }
    have haccepted : s.acceptUse b = s.accepted ++ [(s.buffers b).use] := if_pos hstate
    rw [haccepted]
    have hothers (lastUse : Option ℕ) (count : ℤ) (b' : ℕ) (hb' : b' ≠ b) :
        Agree s { s.updateBuffer b fun buffer => { buffer with bufferState := .queued } with
          queuedBufferCount := count
          lastQueuedBuffer := b
          lastUse := lastUse
          accepted := s.accepted ++ [(s.buffers b).use]
          lock := .free } b' := by
      refine agree_others (concerns_queuing hlock) ?_ (fun b' hb' => ?_) (fun _ _ => ?_) b' hb'
      · exact concerns_free rfl b
      · exact Function.update_of_ne hb' ..
      · rfl
    constructor
    · refine h.counted.of_agree_others le_rfl b (hothers _ _) ?_ ?_
      · rw [hbuffer, stage_free rfl]
        exact hlife
      · rw [hbuffer]
        exact h.counted.small b
    · refine h.used.accept (b := b) (hothers _ _) (by rw [hbuffer]) ?_ ?_ ?_ rfl rfl rfl rfl
      · unfold InUse
        rw [hstate, hbefore]
        rfl
      · unfold IsHeld
        rw [hstate, hbefore]
        exact Bool.false_ne_true
      · unfold IsHeld
        rw [hbuffer, stage_free rfl]
        rfl
    · exact ⟨h.consumed.fits, h.consumed.held⟩
    · exact h.clean
  · rw [if_neg (by rw [hstate]; exact fun hne => by cases hne)]
    refine h.change b ?_ ⟨rfl, rfl, rfl⟩ le_rfl ?_ (h.counted.small b) rfl ?_ ?_ h.used.ofPlane rfl rfl
    · exact agree_others (concerns_queuing hlock) (concerns_free rfl b) (fun _ _ => rfl) fun _ _ => rfl
    · rw [hstate] at hlife ⊢
      exact hlife
    · intro _
      unfold InUse
      rw [hbefore, hstate]
      rfl
    · unfold IsHeld
      rw [hstate]
      exact Iff.rfl

/-! ### The other steps -/

theorem Sound.frame (h : s.Sound)
    (hbuffers : ∀ b, (s'.buffers b).bufferState = (s.buffers b).bufferState ∧
      (s'.buffers b).queueCount = (s.buffers b).queueCount ∧ (s'.buffers b).use = (s.buffers b).use)
    (hlock : s'.lock = s.lock) (hplane : s'.plane = s.plane) (hrings : SameRings s s')
    (hpending : s'.notQueuedBufferCount = s.notQueuedBufferCount) (huses : s'.uses = s.uses)
    (haccepted : s'.accepted = s.accepted) : s'.Sound := by
  refine h.keep (fun b => ⟨(hbuffers b).1, (hbuffers b).2.1, (hbuffers b).2.2, ?_, ?_⟩) hrings
    (Nat.le_of_eq hpending.symm) (hplane ▸ h.used.ofPlane) huses haccepted
  · unfold stage
    rw [hlock]
  · unfold entries
    rw [hplane, hrings.returned]

theorem Sound.registerDisplayEvent (h : s.Sound) (b code : ℕ) : (s.registerDisplayEvent b code).Sound := by
  refine h.frame (fun b' => ?_) rfl rfl ⟨rfl, rfl, rfl⟩ rfl rfl rfl
  by_cases hb' : b' = b
  · have hbuffer : (s.registerDisplayEvent b code).buffers b' =
        { s.buffers b with eventPending := true } := by
      rw [hb']
      exact s.updateBuffer_self b fun buffer => { buffer with eventPending := true }
    rw [hbuffer, hb']
    exact ⟨rfl, rfl, rfl⟩
  · have hbuffer : (s.registerDisplayEvent b code).buffers b' = s.buffers b' :=
      Function.update_of_ne hb' ..
    rw [hbuffer]
    exact ⟨rfl, rfl, rfl⟩

theorem Sound.initialFrame (h : s.Sound) {b : ℕ} (accepts : Bool)
    (hstate : (s.buffers b).bufferState = .available) : (s.queueInitialFrame b accepts).Sound := by
  refine h.frame (fun b' => ?_) rfl rfl ⟨rfl, rfl, rfl⟩ rfl rfl rfl
  by_cases hb' : b' = b
  · have hbuffer : (s.queueInitialFrame b accepts).buffers b' =
        { s.buffers b with eventPending := false, queueCount := 0 } := by
      rw [hb']
      exact s.updateBuffer_self b fun buffer => { buffer with eventPending := false, queueCount := 0 }
    rw [hbuffer, hb', (h.available hstate).1]
    exact ⟨rfl, rfl, rfl⟩
  · have hbuffer : (s.queueInitialFrame b accepts).buffers b' = s.buffers b' :=
      Function.update_of_ne hb' ..
    rw [hbuffer]
    exact ⟨rfl, rfl, rfl⟩

theorem Sound.displayCallback (h : s.Sound) {place : ℕ} {e : Entry} (he : s.plane[place]? = some e) :
    (s.displayCallback place e).Sound := by
  obtain ⟨hlt, hget⟩ := List.getElem?_eq_some_iff.mp he
  have hmap : (s.plane.set place { e with shown := true }).map Entry.index = s.plane.map Entry.index := by
    rw [List.map_set]
    refine List.ext_getElem (List.length_set ..) fun i hi hi' => ?_
    rw [List.getElem_set]
    split
    next heq =>
      subst heq
      rw [List.getElem_map, hget]
    next => rfl
  refine h.keep (fun b => ⟨rfl, rfl, rfl, rfl, ?_⟩) ⟨rfl, rfl, rfl⟩ le_rfl (fun e' he' => ?_) rfl rfl
  · unfold entries ManifestorState.displayCallback
    rw [hmap]
  · rcases List.mem_or_eq_of_mem_set he' with he' | rfl
    · exact h.used.ofPlane e' he'
    · exact h.used.ofPlane e (List.mem_of_getElem? he)

theorem map_eraseIdx_perm {place : ℕ} {e : Entry} (he : s.plane[place]? = some e) :
    (e.index :: (s.plane.eraseIdx place).map Entry.index).Perm (s.plane.map Entry.index) := by
  obtain ⟨hlt, rfl⟩ := List.getElem?_eq_some_iff.mp he
  exact (List.getElem_cons_eraseIdx_perm hlt).map Entry.index

theorem Sound.doneCallback (h : s.Sound) {place : ℕ} {e : Entry} (he : s.plane[place]? = some e)
    (hstate : (s.buffers e.index).bufferState = .queued ∨ (s.buffers e.index).bufferState = .multiQueue)
    (hroom : s.dequeuedStreamBuffers.count maxDequeueBuffers + 1 < maxDequeueBuffers) :
    (s.doneCallback place e).Sound := by
  have hperm := map_eraseIdx_perm he
  have hnot : ¬ ((s.buffers e.index).bufferState ≠ .queued ∧
      (s.buffers e.index).bufferState ≠ .multiQueue) := by
    rintro ⟨hne, hne'⟩
    exact hstate.elim hne hne'
  unfold ManifestorState.doneCallback
  rw [if_neg hnot]
  have hagree : ∀ b, Agree s { s with
      plane := s.plane.eraseIdx place
      dequeuedStreamBuffers := s.dequeuedStreamBuffers.push maxDequeueBuffers e.index
      returned := s.returned ++ [e.index] } b := by
    refine fun b => ⟨rfl, rfl, rfl, rfl, ?_⟩
    have hcount := hperm.count_eq b
    rw [List.count_cons] at hcount
    unfold entries
    dsimp only
    rw [List.count_append, List.count_singleton]
    omega
  constructor
  · exact h.counted.of_agree le_rfl hagree
  · exact h.used.keep (fun b => (hagree b).inUse_iff.mp) (fun b => (hagree b).isHeld_iff) (fun _ => rfl)
      (fun e' he' => h.used.ofPlane e' (List.mem_of_mem_eraseIdx he')) rfl rfl rfl
  · refine ⟨Circular.Ring.push_fits h.consumed.fits _, ?_⟩
    rw [Circular.Ring.held_push h.consumed.fits _ hroom, h.consumed.held]
  · exact h.clean

/-! ### The release thread -/

theorem Sound.inUse_of_entries (h : s.Sound) {b : ℕ} (hentries : s.entries b ≠ 0) : s.InUse b := by
  unfold InUse
  cases hstate : (s.buffers b).bufferState with
  | available => exact absurd (h.available hstate).2 hentries
  | queued => cases s.stage b <;> rfl
  | notQueued => cases s.stage b <;> rfl
  | multiQueue => cases s.stage b <;> rfl

theorem Sound.outstanding_eq_zero (h : s.Sound) {b : ℕ} (hb : s.InUse b)
    (hnone : (s.plane.map Entry.index).count b = 0) : (s.insertion b).outstanding = 0 := by
  refine List.countP_eq_zero.mpr fun e he huse => ?_
  have hmem : e.index ∈ s.plane.map Entry.index := List.mem_map_of_mem he
  have hpos := List.count_pos_iff.mpr hmem
  have hentries : s.entries e.index ≠ 0 := by
    unfold entries
    omega
  rw [beq_iff_eq, h.used.ofPlane e he] at huse
  have heq := h.used.apart _ _ (h.inUse_of_entries hentries) hb huse
  rw [heq] at hpos
  omega

theorem mem_notQueuedBuffers {b : ℕ} :
    b ∈ s.notQueuedBuffers ↔ b < maxDecodeBuffers ∧ (s.buffers b).bufferState = .notQueued := by
  unfold notQueuedBuffers
  rw [List.mem_filter, List.mem_range, decide_eq_true_eq]

theorem Sound.lock_changes (h : s.Sound) {lock : Lock} (hlock : ∀ b, s.stage b = lock.stage b) :
    Sound { s with lock := lock } :=
  h.keep (fun b => ⟨rfl, rfl, rfl, (hlock b).symm, rfl⟩) ⟨rfl, rfl, rfl⟩ le_rfl h.used.ofPlane rfl rfl

theorem Sound.releaseNotQueued (h : s.Sound) (hlock : s.lock = .free) : s.releaseNotQueued.Sound := by
  have hstage (b : ℕ) : s.stage b = none := stage_free hlock b
  unfold ManifestorState.releaseNotQueued
  split
  next => exact h.lock_changes fun b => hstage b
  next =>
    have hgone : ∀ b ∈ s.notQueuedBuffers, (s.buffers b).bufferState = .notQueued ∧
        (s.buffers b).queueCount = 0 ∧ s.entries b = 0 := by
      intro b hb
      have hstate := (mem_notQueuedBuffers.mp hb).2
      have hlife := h.counted.life b
      rw [hstate, hstage] at hlife
      exact ⟨hstate, hlife.1, hlife.2.1⟩
    have hheld : ∀ b ∈ s.notQueuedBuffers, s.IsHeld b := by
      intro b hb
      unfold IsHeld
      rw [(hgone b hb).1, hstage]
      rfl
    have hrest : ∀ b, b ∉ s.notQueuedBuffers → (s.buffers b).bufferState ≠ .notQueued := by
      intro b hb hstate
      refine hb (mem_notQueuedBuffers.mpr ⟨h.used.bound b ?_, hstate⟩)
      unfold InUse
      rw [hstate, hstage]
      rfl
    constructor
    · constructor
      · intro b
        change Life 0 (if b ∈ s.notQueuedBuffers then { s.buffers b with bufferState := .available }
          else s.buffers b).bufferState none (if b ∈ s.notQueuedBuffers then
            { s.buffers b with bufferState := .available } else s.buffers b).queueCount (s.entries b)
        have hlife := h.counted.life b
        rw [hstage] at hlife
        split
        next hb => exact (hgone b hb).2
        next hb =>
          have hne := hrest b hb
          cases hstate : (s.buffers b).bufferState with
          | notQueued => exact absurd hstate hne
          | available => exact (hstate ▸ hlife :)
          | queued => exact (hstate ▸ hlife :)
          | multiQueue => exact (hstate ▸ hlife :)
      · intro b
        change (if b ∈ s.notQueuedBuffers then { s.buffers b with bufferState := .available }
          else s.buffers b).queueCount < 2 ^ 32
        split <;> exact h.counted.small b
    · refine h.used.release s.notQueuedBuffers (List.nodup_range.filter _) hheld ?_ ?_ ?_ rfl rfl
        rfl ?_
      · intro b hb
        change inUse (if b ∈ s.notQueuedBuffers then { s.buffers b with bufferState := .available }
          else s.buffers b).bufferState none = true at hb
        split at hb
        next => cases hb
        next hnot =>
          refine ⟨?_, hnot⟩
          unfold InUse
          rw [hstage]
          exact hb
      · intro b
        change isHeld (if b ∈ s.notQueuedBuffers then { s.buffers b with bufferState := .available }
          else s.buffers b).bufferState none = true ↔ _
        split
        next hb => exact iff_of_false Bool.false_ne_true fun hand => hand.2 hb
        next hnot =>
          unfold IsHeld
          rw [hstage, and_iff_left hnot]
      · intro b
        change (if b ∈ s.notQueuedBuffers then { s.buffers b with bufferState := .available }
          else s.buffers b).use = _
        split <;> rfl
      · unfold back
        rw [List.map_append, List.map_map]
        rfl
    · exact ⟨h.consumed.fits, h.consumed.held⟩
    · intro i hi
      rcases List.mem_append.mp hi with hi | hi
      · exact h.clean i hi
      · obtain ⟨b, hb, rfl⟩ := List.mem_map.mp hi
        refine ⟨(hgone b hb).2.1, h.outstanding_eq_zero (inUse_of_isHeld (hheld b hb)) ?_⟩
        have hentries := (hgone b hb).2.2
        unfold entries at hentries
        omega

theorem Sound.taken (h : s.Sound) (hlock : s.lock = .releasing) {b : ℕ} (hb : b ∈ s.returned) :
    ((s.buffers b).bufferState = .queued ∨ (s.buffers b).bufferState = .multiQueue) ∧
      (s.buffers b).queueCount = s.entries b ∧ 0 < (s.buffers b).queueCount := by
  have hlife := h.counted.life b
  have hpos : 0 < s.entries b := by
    have hcount := List.count_pos_iff.mpr hb
    unfold entries
    omega
  have hstage : s.stage b = none := by
    unfold stage
    rw [hlock]
    rfl
  rw [hstage] at hlife
  cases hstate : (s.buffers b).bufferState with
  | available => exact absurd (h.available hstate).2 (Nat.ne_of_gt hpos)
  | queued =>
    rw [hstate] at hlife
    exact ⟨.inl rfl, hlife⟩
  | notQueued =>
    rw [hstate] at hlife
    exact absurd hlife.2.1 (Nat.ne_of_gt hpos)
  | multiQueue =>
    rw [hstate] at hlife
    exact ⟨.inr rfl, hlife⟩

theorem comeBack_self (s : ManifestorState) (b : ℕ) :
    (s.comeBack b).buffers b = { s.buffers b with bufferState := .available } :=
  s.updateBuffer_self b fun buffer => { buffer with bufferState := .available }

theorem comeBack_of_ne (s : ManifestorState) {b b' : ℕ} (h : b' ≠ b) :
    (s.comeBack b).buffers b' = s.buffers b' := Function.update_of_ne h ..

theorem comeBack_entries (s : ManifestorState) (b b' : ℕ) : (s.comeBack b).entries b' = s.entries b' := rfl

theorem comeBack_stage (s : ManifestorState) (b b' : ℕ) : (s.comeBack b).stage b' = s.stage b' := rfl

section
variable {b : ℕ} {rest : List ℕ} (hreturned : s.returned = b :: rest)

include hreturned

theorem takeDone_entries (b' : ℕ) : (s.takeDone b).entries b' + (if b = b' then 1 else 0) = s.entries b' := by
  unfold entries
  change _ + s.returned.tail.count b' + _ = _
  rw [hreturned, List.tail_cons, List.count_cons]
  change (s.plane.map Entry.index).count b' + _ + _ = _
  simp only [beq_iff_eq]
  omega

theorem takeDone_consumed (h : s.Consumed) : (s.takeDone b).Consumed := by
  have hne : s.dequeuedStreamBuffers.next ≠ s.dequeuedStreamBuffers.last := by
    intro heq
    have hnil := (Circular.Ring.held_eq_nil_iff h.fits).mpr heq
    rw [h.held, hreturned] at hnil
    cases hnil
  refine ⟨Circular.Ring.drop_fits h.fits, ?_⟩
  have hheld := Circular.Ring.held_drop h.fits hne
  rw [h.held, hreturned] at hheld
  change _ = s.returned.tail
  rw [hreturned]
  exact (List.cons.inj hheld).2.symm

variable (hlock : s.lock = .releasing)

include hlock

theorem takeDone_agree (b' : ℕ) (hb' : b' ≠ b) : Agree s (s.takeDone b) b' := by
  refine agree_others (concerns_releasing hlock b) (concerns_free rfl b)
    (fun b' hb' => Function.update_of_ne hb' ..) (fun b' hb' => ?_) b' hb'
  have hentries := takeDone_entries hreturned b'
  rwa [if_neg (Ne.symm hb'), Nat.add_zero] at hentries

variable (h : s.Sound)

include h

theorem takeDone_buffer : (s.takeDone b).buffers b =
    { s.buffers b with queueCount := (s.buffers b).queueCount - 1 } := by
  have hpos := (h.taken hlock (b := b) (by rw [hreturned]; exact List.mem_cons_self)).2.2
  have hsmall := h.counted.small b
  refine (s.updateBuffer_self b fun buffer =>
    { buffer with queueCount := (buffer.queueCount + (2 ^ 32 - 1)) % 2 ^ 32 }).trans ?_
  have hmod : ((s.buffers b).queueCount + (2 ^ 32 - 1)) % 2 ^ 32 = (s.buffers b).queueCount - 1 := by omega
  rw [hmod]

theorem takeDone_sound (hmore : 1 < (s.buffers b).queueCount) : (s.takeDone b).Sound := by
  have hmem : b ∈ s.returned := by
    rw [hreturned]
    exact List.mem_cons_self
  obtain ⟨hstate, hcount, -⟩ := h.taken hlock hmem
  have hbuffer := takeDone_buffer hreturned hlock h
  have hothers := takeDone_agree hreturned hlock
  have hentries := takeDone_entries hreturned b
  rw [if_pos rfl] at hentries
  have hstage : (s.takeDone b).stage b = none := stage_free rfl b
  have hless : (s.buffers b).queueCount - 1 = (s.takeDone b).entries b := by omega
  have hheld : ∀ b', (s.takeDone b).IsHeld b' ↔ s.IsHeld b' := by
    intro b'
    by_cases hb' : b' = b
    · unfold IsHeld
      rw [hb', hbuffer, hstage]
      rcases hstate with hstate | hstate <;> rw [hstate] <;> exact iff_of_true rfl rfl
    · exact (hothers b' hb').isHeld_iff
  constructor
  · refine h.counted.of_agree_others le_rfl b hothers ?_ ?_
    · rw [hbuffer, hstage]
      rcases hstate with hstate | hstate <;> rw [hstate] <;>
        exact ⟨hless, Nat.sub_pos_of_lt hmore⟩
    · rw [hbuffer]
      exact Nat.lt_of_le_of_lt (Nat.sub_le ..) (h.counted.small b)
  · refine h.used.keep (fun b' hb' => ?_) hheld (fun b' => ?_) h.used.ofPlane rfl rfl rfl
    · by_cases heq : b' = b
      · refine inUse_of_isHeld ((hheld b').mp ?_)
        unfold IsHeld
        rw [heq, hbuffer, hstage]
        rcases hstate with hstate | hstate <;> rw [hstate] <;> rfl
      · exact (hothers b' heq).inUse_iff.mp hb'
    · by_cases heq : b' = b
      · rw [heq, hbuffer]
      · exact (hothers b' heq).use
  · exact takeDone_consumed hreturned h.consumed
  · exact h.clean

theorem comeBack_sound (hlast : (s.buffers b).queueCount = 1) : ((s.takeDone b).comeBack b).Sound := by
  have hmem : b ∈ s.returned := by
    rw [hreturned]
    exact List.mem_cons_self
  obtain ⟨hstate, hcount, -⟩ := h.taken hlock hmem
  have hbuffer : ((s.takeDone b).comeBack b).buffers b =
      { s.buffers b with queueCount := 0, bufferState := .available } := by
    rw [comeBack_self, takeDone_buffer hreturned hlock h, hlast]
  have hentries := takeDone_entries hreturned b
  rw [if_pos rfl] at hentries
  have hothers : ∀ b', b' ≠ b → Agree s ((s.takeDone b).comeBack b) b' := by
    intro b' hb'
    have hagree := takeDone_agree hreturned hlock b' hb'
    have hsame := (s.takeDone b).comeBack_of_ne hb'
    constructor
    case bufferState =>
      rw [hsame]
      exact hagree.bufferState
    case queueCount =>
      rw [hsame]
      exact hagree.queueCount
    case use =>
      rw [hsame]
      exact hagree.use
    case stage => exact (comeBack_stage ..).trans hagree.stage
    case entries => exact (comeBack_entries ..).trans hagree.entries
  have hstage : ((s.takeDone b).comeBack b).stage b = none := stage_free rfl b
  have hheld : s.IsHeld b := by
    unfold IsHeld
    rcases hstate with hstate | hstate <;> rw [hstate] <;> cases s.stage b <;> rfl
  have hnotInUse : ¬ ((s.takeDone b).comeBack b).InUse b := by
    unfold InUse
    rw [hbuffer, hstage]
    exact Bool.false_ne_true
  constructor
  · refine h.counted.of_agree_others le_rfl b hothers ?_ ?_
    · rw [hbuffer, hstage, comeBack_entries]
      have hzero : (s.takeDone b).entries b = 0 := by omega
      exact ⟨rfl, hzero⟩
    · rw [hbuffer]
      exact Nat.two_pow_pos 32
  · refine h.used.release [b] (List.nodup_singleton b) ?_ (fun b' hb' => ?_) (fun b' => ?_)
      (fun b' => ?_) rfl rfl rfl ?_
    · rintro b' hb'
      rwa [List.mem_singleton.mp hb']
    · have hne : b' ≠ b := by
        rintro rfl
        exact hnotInUse hb'
      exact ⟨(hothers b' hne).inUse_iff.mp hb', fun hmem => hne (List.mem_singleton.mp hmem)⟩
    · by_cases heq : b' = b
      · rw [heq]
        exact iff_of_false (fun hb => hnotInUse (inUse_of_isHeld hb))
          fun hand => hand.2 (List.mem_singleton_self b)
      · rw [(hothers b' heq).isHeld_iff, and_iff_left fun hmem => heq (List.mem_singleton.mp hmem)]
    · by_cases heq : b' = b
      · rw [heq, hbuffer]
      · exact (hothers b' heq).use
    · change ((s.outputRing ++ [(s.takeDone b).insertion b]).map Insertion.use) = _
      rw [List.map_append]
      change _ ++ [((s.takeDone b).buffers b).use] = _
      rw [takeDone_buffer hreturned hlock h]
      rfl
  · have hconsumed := takeDone_consumed hreturned h.consumed
    exact ⟨hconsumed.fits, hconsumed.held⟩
  · intro i hi
    rcases List.mem_append.mp hi with hi | hi
    · exact h.clean i hi
    · obtain rfl := List.mem_singleton.mp hi
      have hnone : (s.plane.map Entry.index).count b = 0 := by
        have hone := List.count_pos_iff.mpr hmem
        unfold entries at hcount
        omega
      have houtstanding := h.outstanding_eq_zero (inUse_of_isHeld hheld) hnone
      unfold insertion at houtstanding ⊢
      rw [takeDone_buffer hreturned hlock h, hlast]
      exact ⟨rfl, houtstanding⟩

end

theorem Sound.releaseDequeued (h : s.Sound) (hlock : s.lock = .releasing) : s.releaseDequeued.Sound := by
  unfold ManifestorState.releaseDequeued
  dsimp only
  split
  next =>
    refine h.lock_changes fun b => ?_
    unfold stage
    rw [hlock]
    rfl
  next hne =>
    have hheld := Circular.Ring.held_drop h.consumed.fits hne
    rw [h.consumed.held] at hheld
    have hbuffer := takeDone_buffer hheld hlock h
    obtain ⟨-, -, hpos⟩ := h.taken hlock (by rw [hheld]; exact List.mem_cons_self)
    rw [hbuffer]
    split
    next hzero => exact comeBack_sound hheld hlock h (by change _ - 1 = 0 at hzero; omega)
    next hzero => exact takeDone_sound hheld hlock h (by change ¬ _ - 1 = 0 at hzero; omega)

/-! ### Runs -/

/-- No completion is lost: the driver refuses no entry, and a done callback finds its buffer marked as
queued and room in the ring; and the count stays below its largest value. -/
def ReturnsMeant (s : ManifestorState) : Label → Prop
  | .planeRefuses => False
  | .doneCallback place => ∀ e ∈ s.plane[place]?,
      ((s.buffers e.index).bufferState = .queued ∨ (s.buffers e.index).bufferState = .multiQueue) ∧
        s.dequeuedStreamBuffers.count maxDequeueBuffers + 1 < maxDequeueBuffers
  | .raiseQueueCount n =>
    match s.lock with
    | .queuing b _ => (s.buffers b).queueCount + n < 2 ^ 32
    | _ => True
  | _ => True

instance (s : ManifestorState) : (label : Label) → Decidable (s.ReturnsMeant label)
  | .doneCallback place => inferInstanceAs (Decidable (∀ e ∈ s.plane[place]?, _ ∧ _))
  | .raiseQueueCount n =>
    match h : s.lock with
    | .queuing b _ => decidable_of_iff ((s.buffers b).queueCount + n < 2 ^ 32) (by
        simp only [ReturnsMeant, h])
    | .free => isTrue (by simp only [ReturnsMeant, h])
    | .releasing => isTrue (by simp only [ReturnsMeant, h])
  | .planeRefuses => isFalse id
  | .queueEventSignal _ | .queueDecodeBuffer _ | .requeueBuffer _ | .clearEventPending
  | .displayWindowsFail | .leaveNotQueued | .registerDisplayEvent _ | .planeAccepts
  | .bufferQueued | .initialFrame _ _ | .displayCallback _ | .initialFrameDisplayCallback _
  | .releaseNotQueued | .releaseDequeued | .displaySignal | .serviceEventQueue | .flushDisplayQueue
  | .clearEventList => isTrue trivial

theorem initial_sound : initial.Sound where
  counted := ⟨fun _ => ⟨rfl, rfl⟩, fun _ => Nat.two_pow_pos 32⟩
  used :=
    { bound := fun _ hb => by cases hb
      fresh := fun _ hb => by cases hb
      notBack := fun _ hb => by cases hb
      apart := fun _ _ hb => by cases hb
      ofPlane := fun _ he => by cases he
      acceptedNodup := List.nodup_nil
      backNodup := List.nodup_nil
      back_lt := fun _ hu => by cases hu
      mem_accepted := fun u => by
        refine iff_of_false List.not_mem_nil ?_
        rintro (hu | ⟨b, hb, -⟩)
        · cases hu
        · cases hb }
  consumed := ⟨⟨by decide, by decide⟩, rfl⟩
  clean := fun _ hi => by cases hi

theorem Sound.queueEventSignal (h : s.Sound) (code : ℕ) : (s.queueEventSignal code).Sound :=
  h.frame (fun _ => ⟨rfl, rfl, rfl⟩) rfl rfl ⟨rfl, rfl, rfl⟩ rfl rfl rfl

theorem Sound.serviceEventQueue (h : s.Sound) {id : ℕ} (hs' : s.serviceEventQueue id = some s') :
    s'.Sound := by
  unfold ManifestorState.serviceEventQueue at hs'
  split at hs'
  next =>
    obtain rfl := Option.some.inj hs'
    exact h
  next =>
    obtain ⟨⟨list, events⟩, -, rfl⟩ := Option.map_eq_some_iff.mp hs'
    exact h.frame (fun _ => ⟨rfl, rfl, rfl⟩) rfl rfl ⟨rfl, rfl, rfl⟩ rfl rfl rfl

/-- **Step**: a step that loses no completion keeps the account of every buffer. -/
theorem Sound.step (h : s.Sound) {label : Label} (hmeant : s.ReturnsMeant label)
    (hstep : Steps s label s') : s'.Sound := by
  cases hstep with
  | queueEventSignal code => exact h.queueEventSignal code
  | queueDecodeBuffer b hlock hb hstate => exact h.queueDecodeBuffer hlock hb hstate
  | requeueBuffer b hlock hb hstate => exact h.requeueBuffer hlock hstate
  | clearEventPending b hlock => exact h.clearEventPending hlock
  | displayWindowsFail b hlock => exact h.displayWindowsFail hlock
  | leaveNotQueued b hlock => exact h.leaveNotQueued hlock
  | raiseQueueCount b n hlock hn =>
    unfold ReturnsMeant at hmeant
    rw [hlock] at hmeant
    exact h.raiseQueueCount hlock hn hmeant
  | registerDisplayEvent b left code => exact h.registerDisplayEvent b code
  | planeAccepts b left first hlock => exact h.planeAccepts hlock
  | planeRefuses => exact hmeant.elim
  | bufferQueued b first hlock => exact h.bufferQueued hlock
  | initialFrame b accepts hinitial hlock hb hstate => exact h.initialFrame accepts hstate
  | displayCallback place e he => exact h.displayCallback he
  | doneCallback place e he =>
    obtain ⟨hstate, hroom⟩ := hmeant e he
    exact h.doneCallback he hstate hroom
  | releaseNotQueued hlock => exact h.releaseNotQueued hlock
  | releaseDequeued hlock => exact h.releaseDequeued hlock
  | serviceEventQueue id s' hid hs' =>
    have hframe : Sound { s with signalling := none } :=
      h.frame (fun _ => ⟨rfl, rfl, rfl⟩) rfl rfl ⟨rfl, rfl, rfl⟩ rfl rfl rfl
    exact hframe.serviceEventQueue hs'
  | initialFrameDisplayCallback =>
    exact h.frame (fun _ => ⟨rfl, rfl, rfl⟩) rfl rfl ⟨rfl, rfl, rfl⟩ rfl rfl rfl
  | displaySignal => exact h.frame (fun _ => ⟨rfl, rfl, rfl⟩) rfl rfl ⟨rfl, rfl, rfl⟩ rfl rfl rfl
  | flushDisplayQueue => exact h.frame (fun _ => ⟨rfl, rfl, rfl⟩) rfl rfl ⟨rfl, rfl, rfl⟩ rfl rfl rfl
  | clearEventList => exact h.frame (fun _ => ⟨rfl, rfl, rfl⟩) rfl rfl ⟨rfl, rfl, rfl⟩ rfl rfl rfl

/-- The buffer of an accepted use has something that is still to come: the end of a call that queues it
again, an entry that is not done or that is not taken from the ring, or, if it is not to be displayed, the
next round of the release thread. -/
def Awaited (s : ManifestorState) (u : ℕ) : Prop :=
  ∃ b, s.IsHeld b ∧ (s.buffers b).use = u ∧
    (s.stage b ≠ none ∨ 0 < s.entries b ∨
      (s.buffers b).bufferState = .notQueued ∧ 0 < s.notQueuedBufferCount)

/-- The accepted buffers come back once: no use comes back twice or without having been accepted, an
accepted one that is not back is awaited, every buffer that is back had no entry left and no count, and the
ring holds what was put into it. -/
structure ComesBack (s : ManifestorState) : Prop where
  nodup : s.back.Nodup
  accepted : ∀ u ∈ s.back, u ∈ s.accepted
  awaited : ∀ u ∈ s.accepted, u ∈ s.back ∨ s.Awaited u
  clean : s.Clean
  kept : s.dequeuedStreamBuffers.held maxDequeueBuffers = s.returned

theorem Sound.comesBack (h : s.Sound) : s.ComesBack where
  nodup := h.used.backNodup
  accepted u hu := (h.used.mem_accepted u).mpr (.inl hu)
  awaited u hu := by
    refine ((h.used.mem_accepted u).mp hu).imp_right ?_
    rintro ⟨b, hb, huse⟩
    refine ⟨b, hb, huse, ?_⟩
    cases hstage : s.stage b with
    | some stage => exact .inl (Option.some_ne_none stage)
    | none =>
      have hlife := h.counted.life b
      rw [hstage] at hlife
      unfold IsHeld at hb
      cases hstate : (s.buffers b).bufferState with
      | available =>
        rw [hstate] at hb
        cases hb
      | queued =>
        rw [hstate] at hlife
        exact .inr (.inl (hlife.1 ▸ hlife.2))
      | multiQueue =>
        rw [hstate] at hlife
        exact .inr (.inl (hlife.1 ▸ hlife.2))
      | notQueued =>
        rw [hstate] at hlife
        exact .inr (.inr ⟨rfl, hlife.2.2⟩)
  clean := h.clean
  kept := h.consumed.held

/-- **Buffers come back once**: in every run that loses no completion. -/
theorem run_comesBack {labels : List Label} (hmeant : Lts.Along Manifestor.step ReturnsMeant initial labels)
    (h : run initial labels = some s) : s.ComesBack := by
  have hinv : s.Sound := Lts.run_invariant_along
    (fun _ _ _ hs hlabel hstep => hs.step hlabel (steps_of_step hstep)) initial_sound hmeant h
  exact hinv.comesBack

/-- A buffer is queued as two fields, is queued again when the first of them is done, and a second buffer
is not to be displayed. -/
def queuedAgain : List Label :=
  [.queueDecodeBuffer 0, .clearEventPending, .raiseQueueCount 2, .planeAccepts, .planeAccepts, .bufferQueued,
    .displayCallback 0, .doneCallback 0, .requeueBuffer 0, .clearEventPending, .raiseQueueCount 1,
    .planeAccepts, .bufferQueued, .queueDecodeBuffer 1, .clearEventPending, .leaveNotQueued,
    .releaseNotQueued, .releaseDequeued, .doneCallback 0, .doneCallback 0,
    .releaseNotQueued, .releaseDequeued, .releaseNotQueued, .releaseDequeued]

theorem run_comesBack_queuedAgain : ∃ s, run initial queuedAgain = some s ∧ s.ComesBack := by
  obtain ⟨s, hs⟩ : ∃ s, run initial queuedAgain = some s := ⟨_, rfl⟩
  have hmeant : Lts.Along Manifestor.step ReturnsMeant initial queuedAgain := by decide +kernel
  exact ⟨s, hs, run_comesBack hmeant hs⟩

/-- The only entry of a buffer is done before the call that queues it returns. -/
def doneBeforeReturn : List Label :=
  [.queueDecodeBuffer 0, .clearEventPending, .raiseQueueCount 1, .planeAccepts, .doneCallback 0, .bufferQueued]

theorem not_run_comesBack_doneBeforeReturn : ¬ ∀ labels s, run initial labels = some s → s.ComesBack := by
  intro hall
  obtain ⟨s, hs⟩ : ∃ s, run initial doneBeforeReturn = some s := ⟨_, rfl⟩
  have haccounts : (run initial doneBeforeReturn).map
      (fun s => (s.accepted, s.back, s.plane, s.returned, s.lock, s.notQueuedBufferCount)) =
        some ([0], [], [], [], .free, 0) := rfl
  rw [hs, Option.map_some, Option.some_inj] at haccounts
  obtain ⟨haccepted, hback, hplane, hreturned, hlock, hpending⟩ := by simpa only [Prod.mk.injEq] using haccounts
  have hnot : ¬ s.Awaited 0 := by
    rintro ⟨b, -, -, hstage | hentries | ⟨-, hpos⟩⟩
    · exact hstage (stage_free hlock b)
    · unfold entries at hentries
      rw [hplane, hreturned] at hentries
      exact absurd hentries (Nat.lt_irrefl 0)
    · omega
  have hawaited := (hall doneBeforeReturn s hs).awaited 0
  rw [haccepted, hback] at hawaited
  exact (hawaited (List.mem_singleton_self 0)).elim List.not_mem_nil hnot

end ManifestorState
end Player2.Manifestor

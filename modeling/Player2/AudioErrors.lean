import Player2.AudioProgress

/-! # The errors of the MPEG audio collator

A pass fails only when the coded frame buffer overflows.  The nested call of the recovery also
comes back with `PlayerUnwindStack`, and `HandleMissingNextFrameHeader` would hand that status on
if nothing were left to try; it never does.  A header is examined when all its bytes have been
accumulated (`Held`), in recovery they come from the data that is processed again (`Sourced`), so
at least five bytes of it are there and another attempt follows.  Hence `returns_status`: a call
of `HandleElementaryStream` comes back without an error or with a buffer overflow. -/

namespace Player2.Audio

open Collator

variable {maximum : ℕ}

/-! ### Overflow -/

/-- The pass does not fail, or for want of room in the coded frame buffer. -/
def FailsOnOverflow : Outcome → Prop
  | .fail status _ => status = .bufferOverflow
  | _ => True

theorem searchForSyncWord_failsOnOverflow (e : Setting) (s : Collator) (data : List UInt8) :
    FailsOnOverflow (s.searchForSyncWord e data) := by
  unfold searchForSyncWord
  dsimp only
  split
  · split
    · trivial
    · split
      · trivial
      · rfl
  · trivial

theorem examineHeader_failsOnOverflow (e : Setting) (s : Collator) (data : List UInt8) :
    FailsOnOverflow (s.examineHeader e data) := by
  unfold examineHeader
  split
  · split <;> trivial
  · trivial

theorem readPartialFrameHeader_failsOnOverflow (e : Setting) (s : Collator) (data : List UInt8) :
    FailsOnOverflow (s.readPartialFrameHeader e data) := by
  unfold readPartialFrameHeader
  dsimp only
  split
  · rfl
  · split
    · exact examineHeader_failsOnOverflow e _ _
    · trivial

theorem readFrame_failsOnOverflow (e : Setting) (s : Collator) (data : List UInt8) :
    FailsOnOverflow (s.readFrame e data) := by
  unfold readFrame
  dsimp only
  split
  · trivial
  · split
    · split
      · rfl
      · trivial
    · trivial

theorem pass_failsOnOverflow (e : Setting) (s : Collator) (data : List UInt8) :
    FailsOnOverflow (s.pass e data) := by
  unfold Collator.pass
  split
  · exact searchForSyncWord_failsOnOverflow e s data
  · exact readPartialFrameHeader_failsOnOverflow e s data
  · exact readPartialFrameHeader_failsOnOverflow e s data
  · exact readFrame_failsOnOverflow e s data
  · exact readFrame_failsOnOverflow e s data
  · trivial

/-! ### The bytes of a header -/

/-- The bytes of the next header that count as read are in the buffer. -/
def Held (s : Collator) : Prop :=
  match s.collatorState with
  | .gotSynchronized | .seekingFrameEnd => s.gotPartialFrameHeaderBytes ≤ s.accumulated.length
  | .readSubFrame => -s.framePayloadRemaining ≤ s.accumulated.length
  | .gotCompleteFrame => 0 ≤ s.framePayloadRemaining
  | .seekingSyncWord => True
  | .skipSubFrame => False

/-- A pass keeps the bytes of the header, and takes the bytes it accumulates from the data. -/
def Sourced (s : Collator) (data : List UInt8) : Outcome → Prop
  | .more t rest => Held t ∧ (s.potentialFrameHeader = [] →
      t.accumulated.length + rest.length ≤ s.accumulated.length + data.length ∧
        (t.potentialFrameHeader = [] ∨ rest = []))
  | .missing _ _ => 5 ≤ s.accumulated.length + data.length
  | .fail _ _ => True

variable {s t : Collator}

theorem held_of_seeking (h : s.collatorState = .seekingSyncWord) : Held s := by
  simp [Held, h]

variable {data : List UInt8}

theorem searchForSyncWord_sourced (hstate : s.collatorState = .seekingSyncWord) :
    Sourced s data (s.searchForSyncWord (mpeg maximum) data) := by
  unfold searchForSyncWord
  split
  next codeOffset hfind =>
    dsimp only
    split
    next hpos =>
      refine ⟨by simp [Held], fun _ => ⟨?_, .inl rfl⟩⟩
      rw [List.length_drop]
      dsimp only
      omega
    next hneg =>
      -- the word begins with the last of the bytes kept
      change mpegFindNextSyncWord _ _ = _ at hfind
      unfold mpegFindNextSyncWord at hfind
      split at hfind
      next hspan =>
        obtain rfl := Option.some.inj hfind
        have hne : s.potentialFrameHeader ≠ [] := by
          intro hnil
          rw [hnil] at hspan
          exact absurd hspan.1 (by simp)
        split
        next t hacc =>
          obtain ⟨-, rfl⟩ := accumulateData_some hacc
          refine ⟨?_, fun hnil => absurd hnil hne⟩
          have := List.length_pos_iff.mpr hne
          simp only [Held, lastBytes, List.length_append, List.length_drop]
          omega
        next => trivial
      next =>
        obtain ⟨i, -, hi⟩ := Option.map_eq_some_iff.mp hfind
        exact absurd (hi ▸ Int.natCast_nonneg _) hneg
  next => exact ⟨held_of_seeking hstate, fun _ => ⟨Nat.add_le_add_left (Nat.zero_le _) _, .inr rfl⟩⟩

theorem mpegDecideNextState_complete {state : CollatorState} {header : List UInt8} {length : ℕ}
    (h : mpegDecideNextState state header = some (.gotCompleteFrame, length)) : 24 ≤ length := by
  have hframe : mpegDecideFrame state header = some (.gotCompleteFrame, length) → 24 ≤ length := by
    intro hf
    obtain ⟨l, hl, heq⟩ := Option.map_eq_some_iff.mp hf
    obtain ⟨-, rfl⟩ := Prod.mk.inj heq
    exact parseFrameHeader_ge hl
  unfold mpegDecideNextState at h
  split at h
  · split at h
    · exact absurd h (by simp)
    · exact hframe h
  · exact hframe h

theorem examineHeader_sourced {data rest : List UInt8}
    (hlen : 5 ≤ t.accumulated.length)
    (hsum : t.accumulated.length + rest.length = s.accumulated.length + data.length)
    (hpot : t.potentialFrameHeader = s.potentialFrameHeader) :
    Sourced s data (t.examineHeader (mpeg maximum) rest) := by
  unfold examineHeader
  split
  next state length hdecide =>
    split
    · simp only [Sourced]
      omega
    · rcases (mpegDecideNextState_cases hdecide).1 with rfl | rfl
      · refine ⟨?_, fun hnil => ⟨Nat.le_of_eq hsum, .inl (hpot.trans hnil)⟩⟩
        simp only [Held, acceptHeader, mpeg]
        rw [if_neg (by simp)]
        omega
      · have hge := mpegDecideNextState_complete hdecide
        refine ⟨?_, fun hnil => ⟨Nat.le_of_eq hsum, .inl (hpot.trans hnil)⟩⟩
        simp only [Held, acceptHeader, mpeg]
        omega
  next =>
    simp only [Sourced]
    omega

theorem readPartialFrameHeader_sourced (hheld : Held s)
    (hstate : s.collatorState = .gotSynchronized ∨ s.collatorState = .seekingFrameEnd) :
    Sourced s data (s.readPartialFrameHeader (mpeg maximum) data) := by
  have hgot : s.gotPartialFrameHeaderBytes ≤ s.accumulated.length := by
    rcases hstate with h | h <;> simpa only [Held, h] using hheld
  have hheader : (mpeg maximum).frameHeaderLength = 5 := rfl
  unfold readPartialFrameHeader
  dsimp only
  split
  next => trivial
  next t hacc =>
    obtain ⟨-, rfl⟩ := accumulateData_some hacc
    split
    next hall =>
      apply examineHeader_sourced
      · simp only [List.length_append, List.length_take]
        omega
      · simp only [List.length_append, List.length_take, List.length_drop]
        omega
      · rfl
    next hpart =>
      refine ⟨?_, fun hnil => ⟨?_, .inl hnil⟩⟩
      · rcases hstate with h | h
        all_goals
          simp only [Held, h, List.length_append, List.length_take]
          omega
      · simp only [List.length_append, List.length_take, List.length_drop]
        omega

theorem readFrame_sourced (hheld : Held s)
    (hstate : s.collatorState = .readSubFrame) :
    Sourced s data (s.readFrame (mpeg maximum) data) := by
  simp only [Held, hstate] at hheld
  unfold readFrame
  split
  next hneg =>
    refine ⟨?_, fun hnil => ⟨Nat.le_refl _, .inl hnil⟩⟩
    simp only [Held]
    omega
  next hpos =>
    dsimp only
    split
    next => trivial
    next t hacc =>
      obtain ⟨-, rfl⟩ := accumulateData_some hacc
      refine ⟨?_, fun hnil => ⟨?_, .inl hnil⟩⟩
      · by_cases hall : ((min s.framePayloadRemaining.toNat data.length : ℕ) : ℤ)
            = s.framePayloadRemaining
        · simp [Held, absorb, hall]
        · simp only [Held, absorb, hall, if_false, hstate]
          omega
      · simp only [absorb, List.length_append, List.length_take, List.length_drop]
        omega

theorem internalFrameFlush_length_le (e : Setting) (s : Collator) :
    (s.internalFrameFlush e).accumulated.length ≤ s.accumulated.length ∧
      (s.internalFrameFlush e).potentialFrameHeader = s.potentialFrameHeader := by
  have hout : ∀ t : Collator, (t.outputFrame.accumulated = [] ∧
      t.outputFrame.potentialFrameHeader = t.potentialFrameHeader) := by
    intro t
    unfold outputFrame
    split
    · exact ⟨‹_›, rfl⟩
    · exact ⟨rfl, rfl⟩
  unfold internalFrameFlush
  split
  · dsimp only
    obtain ⟨hnil, hpot⟩ := hout
      { s with accumulated := s.accumulated.take (s.accumulated.length - e.frameHeaderLength) }
    unfold accumulateData
    split
    · simp [hnil, hpot]
    · simp [hnil, hpot, lastBytes]
  · simp [(hout s).1, (hout s).2]

theorem pass_sourced (hheld : Held s) (data : List UInt8) :
    Sourced s data (s.pass (mpeg maximum) data) := by
  unfold Collator.pass
  split
  next hstate => exact searchForSyncWord_sourced hstate
  next hstate => exact readPartialFrameHeader_sourced hheld (.inl hstate)
  next hstate => exact readPartialFrameHeader_sourced hheld (.inr hstate)
  next hstate => exact readFrame_sourced hheld hstate
  next hstate => simp [Held, hstate] at hheld
  next hstate =>
    simp only [Held, hstate] at hheld
    obtain ⟨hlen, hpot⟩ := internalFrameFlush_length_le (mpeg maximum) s
    refine ⟨?_, fun hnil => ⟨Nat.add_le_add_right hlen _, .inl (hpot.trans hnil)⟩⟩
    have hpayload := internalFrameFlush_framePayloadRemaining (mpeg maximum) s
    simp only [Held]
    omega

/-! ### Whole runs -/

/-- Headers are in the buffer, and in recovery all data is data that is processed again. -/
def Recoverable (c : Config) : Prop :=
  Held c.collator ∧ ∀ r, c.recovery = some r →
    c.collator.accumulated.length + c.remaining.length ≤ r.reprocessing.length ∧
      (c.collator.potentialFrameHeader = [] ∨ c.remaining = [])

/-- What a step leads to: never to a return with `PlayerUnwindStack`. -/
def RecoverableNext : Next → Prop
  | .config c => Recoverable c
  | .done status s => Held s ∧ (status = .noError ∨ status = .bufferOverflow)

variable {status : Status}

theorem resume_recoverable (hs : Held s) (rest : List UInt8)
    (hstatus : status = .noError ∨ status = .bufferOverflow) :
    RecoverableNext (resume status s rest) := by
  unfold resume
  split
  · exact ⟨hs, fun r hr => absurd hr (by simp)⟩
  · exact ⟨held_of_seeking rfl, hstatus⟩

theorem retry_recoverable {e : Setting} {last : Status} {r : Recovery}
    (hstate : s.collatorState = .seekingSyncWord) (hacc : s.accumulated = [])
    (hlast : last = .noError ∨ 1 < r.reprocessing.length) :
    RecoverableNext (retry e last s r) := by
  unfold retry
  split
  next hmore =>
    refine ⟨held_of_seeking hstate, fun r' hr => ?_⟩
    obtain rfl := Option.some.inj hr
    exact ⟨by simp [hacc], .inl rfl⟩
  next hless =>
    rcases hlast with rfl | hlong
    · exact resume_recoverable (held_of_seeking hstate) _ (.inl rfl)
    · exact absurd hlong hless

variable {c : Config}

theorem step_recoverable (hc : Recoverable c) :
    RecoverableNext (step (mpeg maximum) c) := by
  obtain ⟨hheld, hrecovery⟩ := hc
  unfold step
  split
  · split
    · exact ⟨hheld, .inl rfl⟩
    · exact resume_recoverable hheld _ (.inl rfl)
  next hrem =>
    have hpass : Sourced c.collator c.remaining (c.collator.pass (mpeg maximum) c.remaining) :=
      pass_sourced hheld c.remaining
    have hfail := pass_failsOnOverflow (mpeg maximum) c.collator c.remaining
    split
    next s rest heq =>
      rw [heq] at hpass
      refine ⟨hpass.1, fun r hr => ?_⟩
      obtain ⟨hsum, hpot⟩ := hrecovery r hr
      obtain ⟨hle, hpot'⟩ := hpass.2 (hpot.resolve_right hrem)
      exact ⟨Nat.le_trans hle hsum, hpot'⟩
    next s rest heq =>
      rw [heq] at hpass
      unfold missingHeader
      split
      next r hr =>
        apply retry_recoverable rfl rfl
        right
        have := (hrecovery r hr).1
        simp only [Sourced] at hpass
        omega
      next =>
        split
        · exact retry_recoverable rfl rfl (.inl rfl)
        · exact ⟨held_of_seeking rfl, fun r hr => absurd hr (by simp)⟩
    next status s heq =>
      rw [heq] at hfail
      split
      · exact ⟨held_of_seeking rfl, .inr hfail⟩
      · exact resume_recoverable (held_of_seeking rfl) _ (.inr hfail)

theorem run_recoverable (hc : Recoverable c) (n : ℕ) :
    RecoverableNext (run (mpeg maximum) n c) := by
  induction n generalizing c with
  | zero => exact hc
  | succ n ih =>
    have hstep : RecoverableNext (step (mpeg maximum) c) := step_recoverable hc
    rw [run]
    cases h : step (mpeg maximum) c with
    | config c' =>
      rw [h] at hstep
      exact ih hstep
    | done status s =>
      rw [h] at hstep
      exact hstep

theorem recoverable_of_held (hs : Held s) (data : List UInt8) :
    Recoverable ⟨s, data, none⟩ := ⟨hs, fun r hr => absurd hr (by simp)⟩

theorem internalFrameFlush_held (hready : ReadyAtEnd s) (hs : Held s) :
    Held (s.internalFrameFlush (mpeg maximum)) := by
  have hpayload := internalFrameFlush_framePayloadRemaining (mpeg maximum) s
  by_cases h : s.accumulatedFrameReady = true
  · have hstate := hready h
    have hkeep : (s.internalFrameFlush (mpeg maximum)).collatorState = .gotCompleteFrame := by
      simp only [internalFrameFlush, h, if_true]
      unfold accumulateData outputFrame
      split_ifs <;> exact hstate
    simp only [Held, hstate] at hs
    simp only [Held, hkeep, hpayload]
    exact hs
  · apply held_of_seeking
    simp [internalFrameFlush, h]

theorem discardAccumulatedData_held (hs : Held s) (hbetween : BetweenHeaders s) :
    Held s.discardAccumulatedData := by
  unfold BetweenHeaders at hbetween
  unfold Held discardAccumulatedData at *
  cases hstate : s.collatorState <;> simp only [hstate, List.length_nil] at hs hbetween ⊢ <;> omega

theorem Reachable.held (hs : Reachable (mpeg maximum) s) : Held s := by
  induction hs with
  | start => exact held_of_seeking rfl
  | @handle s t data status _ h ih =>
    obtain ⟨n, hn⟩ := h
    have hnext : RecoverableNext (run (mpeg maximum) n ⟨s, data, none⟩) :=
      run_recoverable (recoverable_of_held ih data) n
    rw [hn] at hnext
    exact hnext.1
  | flush hs ih => exact internalFrameFlush_held hs.steady.2 ih
  | discard _ hbetween ih => exact discardAccumulatedData_held ih hbetween
  | jump _ _ => exact held_of_seeking (discard_flush _ _).1

theorem returns_status (hs : Reachable (mpeg maximum) s)
    (h : HandlesElementaryStream (mpeg maximum) s data status t) :
    status = .noError ∨ status = .bufferOverflow := by
  obtain ⟨n, hn⟩ := h
  have hnext : RecoverableNext (run (mpeg maximum) n ⟨s, data, none⟩) :=
    run_recoverable (recoverable_of_held hs.held data) n
  rw [hn] at hnext
  exact hnext.2

end Player2.Audio

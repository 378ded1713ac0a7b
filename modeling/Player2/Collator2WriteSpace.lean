import Player2.Collator2Flush
import Player2.Run

/-! # The space for a write that does not block

`NonBlockingWriteSpace` tells the caller how many bytes an `Input` may hold that is not to block.
Each round of `ProcessInputForward` asks for `MINIMUM_ACCUMULATION_HEADROOM` bytes of free space,
and so the size should be what the free space has beyond the headroom.  The routine asks the wrong
way round: with more than the headroom free it answers nothing, and with less it subtracts the
headroom from the smaller free space, which wraps around (`freeSpace_lt_nonBlockingWriteSpace`).

The answer is usable exactly where it is zero, that is where the headroom is free
(`usable_throughout`). -/

namespace Player2.Collator2

namespace Collator

variable {σ : Type} {env : Setting σ}

/-- `NonBlockingWriteSpace`; the subtraction is that of an `unsigned int`. -/
def nonBlockingWriteSpace (s : Collator σ) : ℕ :=
  if s.codedFrameBufferFreeSpace > minimumAccumulationHeadroom then 0
  else (s.codedFrameBufferFreeSpace + 2 ^ 32 - minimumAccumulationHeadroom) % 2 ^ 32

/-! ### The answer -/

variable {s : Collator σ}

theorem nonBlockingWriteSpace_eq_zero
    (h : minimumAccumulationHeadroom ≤ s.codedFrameBufferFreeSpace) :
    s.nonBlockingWriteSpace = 0 := by
  unfold nonBlockingWriteSpace
  unfold minimumAccumulationHeadroom at h ⊢
  split
  · rfl
  next hle =>
    have hfree : s.codedFrameBufferFreeSpace = 1024 := by omega
    rw [hfree]
    norm_num

theorem nonBlockingWriteSpace_of_lt
    (h : s.codedFrameBufferFreeSpace < minimumAccumulationHeadroom) :
    s.nonBlockingWriteSpace + minimumAccumulationHeadroom =
      2 ^ 32 + s.codedFrameBufferFreeSpace := by
  unfold nonBlockingWriteSpace
  rw [if_neg (by omega)]
  unfold minimumAccumulationHeadroom at h ⊢
  omega

theorem freeSpace_lt_nonBlockingWriteSpace
    (h : s.codedFrameBufferFreeSpace < minimumAccumulationHeadroom) :
    s.codedFrameBufferFreeSpace < s.nonBlockingWriteSpace := by
  have hsize := nonBlockingWriteSpace_of_lt h
  unfold minimumAccumulationHeadroom at hsize
  omega

/-! ### An `Input` that does not block -/

theorem partitionOutput_ne_wouldBlock (s : Collator σ) :
    (s.partitionOutput env).1 ≠ .wouldBlock := by
  unfold partitionOutput secureRoom
  dsimp only
  split
  · split
    · split <;> simp
    · simp
  · simp

/-- An `Input` returns, and if it blocks then because the table of partition points is full. -/
def Accepted (env : Setting σ) (s : Collator σ) (descriptor : PesTimes) (data : List UInt8) : Prop :=
  ∃ rounds status t rest, s.input env rounds descriptor true data = some (status, t, rest) ∧
    (status = .wouldBlock → maximumPartitionPoints - 1 ≤ t.partitionPoints.length)

theorem accepted_nil (h : s.extendCodedFrameBufferAtEarliestOpportunity = false)
    (descriptor : PesTimes) : s.Accepted env descriptor [] := by
  obtain ⟨t, ht⟩ : ∃ t, s.inputEntry env descriptor true = (.noError, t) := by
    unfold inputEntry
    rw [h]
    exact ⟨_, rfl⟩
  by_cases hsafe : t.partitionPointSafeToOutputCount ≠ 0
  · refine ⟨1, (t.partitionOutput env).1, (t.partitionOutput env).2, [], ?_, ?_⟩
    · simp [input, ht, processInputForward, hsafe]
    · intro hblock
      exact absurd hblock (partitionOutput_ne_wouldBlock t)
  · refine ⟨1, .noError, t, [], ?_, by simp⟩
    simp [input, ht, processInputForward, hsafe]

/-- What the caller relies on: there is room for as much as the answer says, and an `Input` of no
more than that is accepted. -/
structure Usable (env : Setting σ) (s : Collator σ) : Prop where
  size_le : s.nonBlockingWriteSpace ≤ s.codedFrameBufferFreeSpace
  accepted : ∀ descriptor data, data.length ≤ s.nonBlockingWriteSpace →
    s.Accepted env descriptor data

/-- The pending work is done. -/
def Idle (s : Collator σ) : Prop :=
  s.extendCodedFrameBufferAtEarliestOpportunity = false ∧
    s.partitionPoints.length < maximumPartitionPoints - 1

theorem usable_iff (h : s.Idle) :
    Usable env s ↔ minimumAccumulationHeadroom ≤ s.codedFrameBufferFreeSpace := by
  constructor
  · intro husable
    by_contra hlt
    have hsize := freeSpace_lt_nonBlockingWriteSpace (Nat.lt_of_not_le hlt)
    exact absurd husable.size_le (Nat.not_le.mpr hsize)
  · intro hfree
    have hzero := nonBlockingWriteSpace_eq_zero hfree
    refine ⟨by omega, ?_⟩
    intro descriptor data hdata
    have hnil : data = [] := List.eq_nil_of_length_eq_zero (by omega)
    rw [hnil]
    exact accepted_nil h.1 descriptor

/-! ### Runs -/

def inputGlitch (s : Collator σ) : Collator σ :=
  let t := s.discardAccumulatedData
  { t with nextPartition := { t.nextPartition with glitch := true } }

/-- A call of the collator in forward play. -/
inductive Call
  | input (rounds : ℕ) (descriptor : PesTimes) (nonBlocking : Bool) (data : List UInt8)
  | frameFlush
  | discardAccumulatedData
  | inputJump (surplusDataInjected continuousReverseJump : Bool)
  | inputGlitch

/-- The state after a call. -/
def call (env : Setting σ) (s : Collator σ) : Call → Option (Collator σ)
  | .input rounds descriptor nonBlocking data =>
    (s.input env rounds descriptor nonBlocking data).map fun r => r.2.1
  | .frameFlush => some (s.frameFlush env).2
  | .discardAccumulatedData => some s.discardAccumulatedData
  | .inputJump surplusDataInjected continuousReverseJump =>
    some (s.inputJump env surplusDataInjected continuousReverseJump)
  | .inputGlitch => some s.inputGlitch

/-- **The space for a write that does not block**: throughout every run of calls, in each state
whose pending work is done, the answer is usable exactly if the headroom is free. -/
theorem usable_throughout (env : Setting σ) (parser : σ) (bufferSize : ℕ) (calls : List Call) :
    Lts.Throughout (call env)
      (fun s => s.Idle →
        (Usable env s ↔ minimumAccumulationHeadroom ≤ s.codedFrameBufferFreeSpace))
      (start parser bufferSize) calls :=
  Lts.throughout_of_along (P := fun _ _ => True) (J := fun _ => True) (fun _ _ _ _ _ _ => trivial)
    (fun _ _ h => usable_iff h) trivial (Lts.along_true _ _)

/-! ### Below the headroom -/

/-- A pool that has given its last buffer. -/
def lastBuffer : Setting Unit :=
  { sequenceHeaders with
    maximumCodedFrameSize := 1028
    pool := { sequenceHeaders.pool with freeBuffers := fun _ => 0, getBuffer := fun _ _ => none } }

/-- With 1020 of 1028 bytes left, there is room for 4294967292, it is said. -/
theorem not_usable_throughout :
    ¬ ∀ (env : Setting Unit) (bufferSize : ℕ) (calls : List Call),
      Lts.Throughout (call env) (fun s => s.Idle → Usable env s) (start () bufferSize) calls := by
  intro hall
  have hrun : (call lastBuffer (start () 1028)
      (.input 2 ⟨none, none⟩ true (List.replicate 8 0xff))).map
        (fun t => (t.extendCodedFrameBufferAtEarliestOpportunity, t.partitionPoints.length,
          t.codedFrameBufferFreeSpace)) = some (false, 0, 1020) := by
    decide +kernel
  obtain ⟨t, hcall, ht⟩ := Option.map_eq_some_iff.mp hrun
  obtain ⟨hpending, hrest⟩ := Prod.mk.inj ht
  obtain ⟨hlength, hfree⟩ := Prod.mk.inj hrest
  have husable : Usable lastBuffer t :=
    (hall lastBuffer 1028 [.input 2 ⟨none, none⟩ true (List.replicate 8 0xff)]).2 t hcall
      ⟨hpending, by rw [hlength]; decide⟩
  have hlt : t.codedFrameBufferFreeSpace < minimumAccumulationHeadroom := by
    rw [hfree]
    decide
  exact absurd husable.size_le (Nat.not_le.mpr (freeSpace_lt_nonBlockingWriteSpace hlt))

end Collator

end Player2.Collator2

import Player2.Collator2Forward

/-! # Flushing the reversible mode collator in forward play

`FrameFlush` makes the current partition a used one and calls `PartitionOutput`, after setting
the number of partitions that are safe to output.  In reverse play that is the marker count; in
forward play it is set to zero, so that `PartitionOutput` puts nothing on the output ring and the
partitions stay in the table (`frameFlush_partitionPoints`).  A flush therefore does its work
exactly when there is none (`frameFlush_flushed_iff`); and since `InputJump` adds a partition for
the discontinuity and flushes again, after a jump the table is never empty
(`not_directionChangeAccepted_inputJump`). -/

namespace Player2.Collator2

namespace Collator

variable {σ : Type} {env : Setting σ}

/-! ### What a flush does -/

theorem secureRoom_partitionPoints (s : Collator σ) :
    (s.secureRoom env).2.partitionPoints = s.partitionPoints ∧
      (s.secureRoom env).2.outputRing = s.outputRing := by
  unfold secureRoom
  dsimp only
  split
  · split
    · split <;> exact ⟨rfl, rfl⟩
    · exact ⟨rfl, rfl⟩
  · exact ⟨rfl, rfl⟩

theorem partitionOutput_of_none_safe (env : Setting σ) {s : Collator σ}
    (h : s.partitionPointSafeToOutputCount = 0) :
    (s.partitionOutput env).2.partitionPoints = s.partitionPoints ∧
      (s.partitionOutput env).2.outputRing = s.outputRing := by
  unfold partitionOutput
  rw [h]
  exact secureRoom_partitionPoints _

theorem frameFlush_partitionPoints (env : Setting σ) (s : Collator σ) :
    (s.frameFlush env).2.partitionPoints = (s.accumulateOnePartition env).partitionPoints ∧
      (s.frameFlush env).2.outputRing = (s.accumulateOnePartition env).outputRing := by
  obtain ⟨t, ht⟩ : ∃ t, t = { s.accumulateOnePartition env with
      partitionPointSafeToOutputCount := 0
      partitionPointMarkerCount := (s.accumulateOnePartition env).partitionPoints.length
      nonBlockingInput := false } := ⟨_, rfl⟩
  have houtput := partitionOutput_of_none_safe env (s := t) (by rw [ht])
  have hflush : (s.frameFlush env).2.partitionPoints = (t.partitionOutput env).2.partitionPoints ∧
      (s.frameFlush env).2.outputRing = (t.partitionOutput env).2.outputRing := by
    rw [ht]
    exact ⟨rfl, rfl⟩
  rw [hflush.1, hflush.2, houtput.1, houtput.2, ht]
  exact ⟨rfl, rfl⟩

/-! ### What there is to flush -/

/-- The current partition is one that `AccumulateOnePartition` makes a used one. -/
def Accumulates (s : Collator σ) : Prop :=
  (s.discardingData = false ∧ s.nextPartition.data ≠ []) ∨
    s.nextPartition.codedFrameParameters.streamDiscontinuity = true ∨
    s.nextPartition.codedFrameParameters.continuousReverseJump = true

/-- The state in which `AccumulateOnePartition` decides. -/
def discarded (s : Collator σ) : Collator σ :=
  if s.discardingData then s.emptyCurrentPartition else s

theorem hasPartition_discarded (s : Collator σ) :
    s.discarded.hasPartition = true ↔ s.Accumulates := by
  unfold discarded hasPartition Accumulates
  cases hd : s.discardingData with
  | true => simp [emptyCurrentPartition]
  | false => simp [or_assoc]

theorem closePartition_ne_nil (s : Collator σ) : s.closePartition.partitionPoints ≠ [] := by
  simp [closePartition, initializePartition]

theorem accumulateOnePartition_partitionPoints (env : Setting σ) (s : Collator σ) :
    (s.accumulateOnePartition env).partitionPoints =
        (s.accumulateOnePartitionBase env).partitionPoints ∧
      (s.accumulateOnePartition env).outputRing = (s.accumulateOnePartitionBase env).outputRing := by
  unfold accumulateOnePartition
  dsimp only
  split <;> exact ⟨rfl, rfl⟩

theorem accumulateOnePartitionBase_eq (s : Collator σ) :
    s.accumulateOnePartitionBase env =
      if !s.discarded.hasPartition then s.discarded
      else if !s.discarded.nextPartition.data.isEmpty &&
          env.configuration.insertFrameTerminateCode then
        closePartition (s.discarded.accumulateData env [0, 0, 1, env.configuration.terminalCode]).2
      else closePartition s.discarded := rfl

theorem accumulateOnePartition_ne_nil {s : Collator σ} (h : s.Accumulates) :
    (s.accumulateOnePartition env).partitionPoints ≠ [] := by
  rw [(accumulateOnePartition_partitionPoints env s).1]
  have hhas := (hasPartition_discarded s).mpr h
  rw [accumulateOnePartitionBase_eq, hhas, if_neg (by simp)]
  split
  · exact closePartition_ne_nil _
  · exact closePartition_ne_nil _

theorem accumulateOnePartition_of_not (env : Setting σ) {s : Collator σ} (h : ¬ s.Accumulates) :
    (s.accumulateOnePartition env).partitionPoints = s.partitionPoints ∧
      (s.accumulateOnePartition env).outputRing = s.outputRing := by
  obtain ⟨hpoints, hring⟩ := accumulateOnePartition_partitionPoints env s
  have hhas : s.discarded.hasPartition = false := by
    rw [← Bool.not_eq_true, hasPartition_discarded]
    exact h
  have hbase : s.accumulateOnePartitionBase env = s.discarded := by
    rw [accumulateOnePartitionBase_eq, hhas, if_pos (by simp)]
  rw [hpoints, hring, hbase]
  unfold discarded
  split <;> exact ⟨rfl, rfl⟩

/-- The bytes of the frames that are waiting: those of the used partitions, and the current
one with its terminate code. -/
def waiting (env : Setting σ) (s : Collator σ) : List (List UInt8) :=
  s.partitionPoints.map PartitionPoint.data ++
    if s.discarded.hasPartition then
      [s.discarded.nextPartition.data ++
        if s.discarded.nextPartition.data ≠ [] ∧ env.configuration.insertFrameTerminateCode then
          [0, 0, 1, env.configuration.terminalCode] else []]
    else []

/-- Everything has been output, once and in order, and the table is empty. -/
def Flushed (env : Setting σ) (s t : Collator σ) : Prop :=
  t.partitionPoints = [] ∧
    t.outputRing.map CodedFrame.data = s.outputRing.map CodedFrame.data ++ waiting env s

theorem frameFlush_flushed_iff (s : Collator σ) :
    Flushed env s (s.frameFlush env).2 ↔ s.partitionPoints = [] ∧ ¬ s.Accumulates := by
  obtain ⟨hpoints, hring⟩ := frameFlush_partitionPoints env s
  unfold Flushed
  rw [hpoints, hring]
  constructor
  · rintro ⟨hempty, -⟩
    have hnot : ¬ s.Accumulates := fun h => accumulateOnePartition_ne_nil h hempty
    rw [(accumulateOnePartition_of_not env hnot).1] at hempty
    exact ⟨hempty, hnot⟩
  · rintro ⟨hempty, hnot⟩
    obtain ⟨hpoints', hring'⟩ := accumulateOnePartition_of_not env hnot
    have hhas : s.discarded.hasPartition = false := by
      rw [← Bool.not_eq_true, hasPartition_discarded]
      exact hnot
    rw [hpoints', hring']
    exact ⟨hempty, by simp [waiting, hempty, hhas]⟩

/-! ### Jumps -/

/-- After a jump the discontinuity is on the ring behind everything that was waiting, and the
direction may be changed. -/
def JumpFlushed (env : Setting σ) (s t : Collator σ) : Prop :=
  t.directionChangeAccepted = true ∧
    ∃ frames marker, t.outputRing = s.outputRing ++ frames ++ [marker] ∧
      frames.map CodedFrame.data = waiting env s ∧ marker.parameters.streamDiscontinuity = true

theorem not_directionChangeAccepted_inputJump (s : Collator σ)
    (surplusDataInjected continuousReverseJump : Bool) :
    (s.inputJump env surplusDataInjected continuousReverseJump).directionChangeAccepted = false := by
  obtain ⟨t, ht⟩ : ∃ t, t =
      (if surplusDataInjected then s.discardAccumulatedData else (s.frameFlush env).2).markDiscontinuity
        env surplusDataInjected continuousReverseJump := ⟨_, rfl⟩
  have haccumulates : t.Accumulates := by
    rw [ht]
    exact .inr (.inl rfl)
  have hne : (t.frameFlush env).2.partitionPoints ≠ [] := by
    rw [(frameFlush_partitionPoints env t).1]
    exact accumulateOnePartition_ne_nil haccumulates
  have hpoints : (s.inputJump env surplusDataInjected continuousReverseJump).partitionPoints =
      (t.frameFlush env).2.partitionPoints := by
    rw [ht]
    rfl
  unfold directionChangeAccepted
  rw [hpoints]
  simp [hne]

/-- **Flushing in forward play**: in every state a flush outputs everything exactly if nothing is
waiting; and after a jump, whatever was waiting, the discontinuity is not on the ring with an empty
table behind it. -/
theorem frameFlush_flushes (s : Collator σ) :
    (Flushed env s (s.frameFlush env).2 ↔ s.partitionPoints = [] ∧ ¬ s.Accumulates) ∧
      ∀ continuousReverseJump,
        ¬ JumpFlushed env s (s.inputJump env false continuousReverseJump) := by
  refine ⟨frameFlush_flushed_iff s, ?_⟩
  rintro continuousReverseJump ⟨haccepted, -⟩
  rw [not_directionChangeAccepted_inputJump] at haccepted
  exact absurd haccepted (by simp)

/-- The states that calls of `Input` in forward play lead to. -/
inductive Reachable (env : Setting σ) : Collator σ → Prop
  | start (parser : σ) (bufferSize : ℕ) : Reachable env (start parser bufferSize)
  | input {s t : Collator σ} {rounds : ℕ} {descriptor : PesTimes} {nonBlocking : Bool}
      {data rest : List UInt8} {status : CollatorStatus} (hs : Reachable env s)
      (h : s.input env rounds descriptor nonBlocking data = some (status, t, rest)) : Reachable env t

/-- A setting with a frame parser for which a frame begins at each code `b3`, and a pool that
always has another buffer. -/
def sequenceHeaders : Setting Unit where
  configuration := ⟨true, 0xf0, 0xe0, 0, 0, 0x01, 0xaf, false, 0⟩
  maximumCodedFrameSize := 65536
  frameParser :=
    { requiredPresentationLength := fun _ => 0
      presentCollatedHeader := fun _ code _ => (⟨code == 0xb3, false, false⟩, ())
      resetCollatedHeaderState := id }
  pool :=
    { freeBuffers := fun _ => 4
      largestFreeMemoryBlock := fun _ => 65536
      partitionBuffer := fun _ => true
      extendBuffer := fun _ size => size
      getBuffer := fun _ size => some size }
  memory := fun _ => []

/-- A packet with one frame and the beginning of the next. -/
def frameAndHalf : List UInt8 :=
  [0, 0, 1, 0xe0, 0, 0, 0x80, 0, 0, 0, 0, 1, 0xb3, 0x11, 0x22, 0, 0, 1, 0xb3, 0x33]

/-- The frame that has begun is not output by a flush. -/
theorem not_frameFlush_flushes_half_frame :
    ¬ ∀ s : Collator Unit, Reachable sequenceHeaders s →
      (s.frameFlush sequenceHeaders).1 = .noError →
      Flushed sequenceHeaders s (s.frameFlush sequenceHeaders).2 ∧
        ∀ continuousReverseJump,
          JumpFlushed sequenceHeaders s (s.inputJump sequenceHeaders false continuousReverseJump) := by
  intro h
  have hrun : ((start () 65536).input sequenceHeaders 8 ⟨none, none⟩ false frameAndHalf).map
      (fun r => ((r.2.1.frameFlush sequenceHeaders).1,
        (r.2.1.frameFlush sequenceHeaders).2.partitionPoints.map PartitionPoint.data)) =
      some (.noError, [[0, 0, 1, 0xb3, 0x33]]) := by
    decide +kernel
  obtain ⟨⟨status, s, rest⟩, hinput, hs⟩ := Option.map_eq_some_iff.mp hrun
  obtain ⟨hstatus, hpoints⟩ := Prod.mk.inj hs
  have hflushed := (h s (.input (.start () 65536) hinput) hstatus).1.1
  rw [hflushed] at hpoints
  exact absurd hpoints (by simp)

end Collator

end Player2.Collator2

import Player2.Collator2Table

/-! # The layout of the partitions

`Placed` says that the partitions lie side by side from the fixed end of the coded frame buffer on,
`Listed` that their start codes do so in the accumulated list, and `Counted` how the counters of the
table are ordered.  Every routine of `Collator2_Base_c` that changes the table has a lemma here that
it keeps them; `OutputClear` and the other conditions say when. -/

namespace Player2.Reversible

open Collator2 (maximumPartitionPoints)
open Tiling (Span)

theorem wrap_of_lt {z : ℤ} (h : 0 ≤ z) (hlt : z < 2 ^ 32) : (wrap z : ℤ) = z := by
  unfold wrap
  rw [Int.emod_eq_of_lt h hlt, Int.toNat_of_nonneg h]

theorem Span.stop_eq (b : Span) : b.stop = b.base + b.size := rfl

/-! ### Side by side -/

/-- The end of a partition that comes first in its direction. -/
def PartitionPoint.near (d : PlayDirection) (p : PartitionPoint) : ℕ :=
  if d = .playForward then p.partitionBase else p.partitionBase + p.partitionSize

/-- The end of a partition that comes last in its direction. -/
def PartitionPoint.far (d : PlayDirection) (p : PartitionPoint) : ℕ :=
  if d = .playForward then p.partitionBase + p.partitionSize else p.partitionBase

/-- The partitions lie side by side between two addresses. -/
def Chain (d : PlayDirection) : ℕ → List PartitionPoint → ℕ → Prop
  | start, [], stop => start = stop
  | start, p :: ps, stop => p.near d = start ∧ Chain d (p.far d) ps stop

/-- The start codes of the partitions lie side by side between two places of the list. -/
def Listed : ℕ → List PartitionPoint → ℕ → Prop
  | start, [], stop => start = stop
  | start, p :: ps, stop =>
    p.startCodeListIndex = start ∧ Listed (start + p.numberOfStartCodes) ps stop

/-- The size of some partitions together. -/
def extent (ps : List PartitionPoint) : ℕ := (ps.map PartitionPoint.partitionSize).sum

@[simp] theorem extent_nil : extent [] = 0 := rfl

@[simp] theorem extent_cons (p : PartitionPoint) (ps : List PartitionPoint) :
    extent (p :: ps) = p.partitionSize + extent ps := rfl

@[simp] theorem extent_append (ps qs : List PartitionPoint) :
    extent (ps ++ qs) = extent ps + extent qs := by
  simp [extent]

section
variable {d : PlayDirection} {ps qs : List PartitionPoint} {p : PartitionPoint} {a b : ℕ}

@[simp] theorem chain_append :
    Chain d a (ps ++ [p]) b ↔ Chain d a ps (p.near d) ∧ p.far d = b := by
  induction ps generalizing a with
  | nil => exact Iff.and eq_comm Iff.rfl
  | cons q ps ih =>
    rw [List.cons_append, Chain, ih, Chain, and_assoc]

theorem Chain.forward (h : Chain .playForward a ps b) : b = a + extent ps := by
  induction ps generalizing a with
  | nil => exact h.symm
  | cons p ps ih =>
    have hrest := ih h.2
    have hnear : p.partitionBase = a := h.1
    have hfar : p.far .playForward = p.partitionBase + p.partitionSize := rfl
    rw [extent_cons]
    omega

theorem Chain.backward (h : Chain .playBackward a ps b) : a = b + extent ps := by
  induction ps generalizing a with
  | nil => exact h
  | cons p ps ih =>
    have hrest := ih h.2
    have hnear : p.partitionBase + p.partitionSize = a := h.1
    have hfar : p.far .playBackward = p.partitionBase := rfl
    rw [extent_cons]
    omega

@[simp] theorem listed_append : Listed a (ps ++ [p]) b ↔
    Listed a ps p.startCodeListIndex ∧ p.startCodeListIndex + p.numberOfStartCodes = b := by
  induction ps generalizing a with
  | nil =>
    constructor
    · rintro ⟨rfl, h⟩
      exact ⟨rfl, h⟩
    · rintro ⟨h, h'⟩
      exact ⟨h.symm, by rw [← h']; exact congrArg (· + _) h⟩
  | cons q ps ih =>
    rw [List.cons_append, Listed, ih, Listed, and_assoc]

theorem Listed.le (h : Listed a ps b) : a ≤ b := by
  induction ps generalizing a with
  | nil => exact Nat.le_of_eq h
  | cons p ps ih => exact Nat.le_trans (Nat.le_add_right _ _) (ih h.2)

theorem Listed.map {f : PartitionPoint → PartitionPoint}
    (hindex : ∀ p, (f p).startCodeListIndex = p.startCodeListIndex)
    (hnumber : ∀ p, (f p).numberOfStartCodes = p.numberOfStartCodes) (h : Listed a ps b) :
    Listed a (ps.map f) b := by
  induction ps generalizing a with
  | nil => exact h
  | cons p ps ih => exact ⟨(hindex p).trans h.1, (hnumber p).symm ▸ ih h.2⟩

end

/-- The move of a partition to a new buffer. -/
def moveBy (transferTo transferFrom : ℕ) (p : PartitionPoint) : PartitionPoint :=
  { p with partitionBase := wrap (p.partitionBase + transferTo - transferFrom) }

variable {ps : List PartitionPoint} {a b x y : ℕ}

theorem Chain.moveForward
    (h : Chain .playForward a ps b) (hfrom : y ≤ a) (hlt : b + x < 2 ^ 32 + y) :
    Chain .playForward (a + x - y) (ps.map (moveBy x y)) (b + x - y) := by
  induction ps generalizing a with
  | nil =>
    have hab : a = b := h
    rw [hab]
    exact rfl
  | cons p ps ih =>
    have hnear : p.partitionBase = a := h.1
    have hrest : Chain .playForward (p.partitionBase + p.partitionSize) ps b := h.2
    have hb := hrest.forward
    have hbase := wrap_of_lt (z := p.partitionBase + x - y) (by omega) (by omega)
    refine ⟨?_, ?_⟩
    · simp only [PartitionPoint.near, moveBy, if_true]
      omega
    · have hmoved := ih hrest (by omega)
      simp only [PartitionPoint.far, moveBy, if_true]
      convert hmoved using 1
      omega

theorem Chain.moveBackward
    (h : Chain .playBackward a ps b) (hfrom : y ≤ b) (hlt : a + x < 2 ^ 32 + y) :
    Chain .playBackward (a + x - y) (ps.map (moveBy x y)) (b + x - y) := by
  induction ps generalizing a with
  | nil =>
    have hab : a = b := h
    rw [hab]
    exact rfl
  | cons p ps ih =>
    have hnear : p.partitionBase + p.partitionSize = a := h.1
    have hrest : Chain .playBackward p.partitionBase ps b := h.2
    have hb := hrest.backward
    have hbase := wrap_of_lt (z := p.partitionBase + x - y) (by omega) (by omega)
    refine ⟨?_, ?_⟩
    · simp only [PartitionPoint.near, moveBy, reduceCtorEq, if_false]
      omega
    · have hmoved := ih hrest (by omega)
      simp only [PartitionPoint.far, moveBy, reduceCtorEq, if_false]
      convert hmoved using 1
      omega

@[simp] theorem extent_map_moveBy (ps : List PartitionPoint) (x y : ℕ) :
    extent (ps.map (moveBy x y)) = extent ps := by
  simp only [extent, List.map_map]
  rfl

/-! Marks have no part in the layout. -/

section
variable {d : PlayDirection} {ps : List PartitionPoint} {a b : ℕ}

theorem Chain.modify (h : Chain d a ps b) (i : ℕ) (f : Marks → Marks) :
    Chain d a (ps.modify i fun p => { p with marks := f p.marks }) b := by
  induction ps generalizing a i with
  | nil => simpa using h
  | cons p ps ih =>
    cases i with
    | zero => exact h
    | succ i => exact ⟨h.1, ih h.2 i⟩

theorem Listed.modify (h : Listed a ps b) (i : ℕ) (f : Marks → Marks) :
    Listed a (ps.modify i fun p => { p with marks := f p.marks }) b := by
  induction ps generalizing a i with
  | nil => simpa using h
  | cons p ps ih =>
    cases i with
    | zero => exact h
    | succ i => exact ⟨h.1, ih h.2 i⟩

theorem extent_modify (ps : List PartitionPoint) (i : ℕ) (f : Marks → Marks) :
    extent (ps.modify i fun p => { p with marks := f p.marks }) = extent ps := by
  induction ps generalizing i with
  | nil => simp
  | cons p ps ih =>
    cases i with
    | zero => rfl
    | succ i => exact congrArg (p.partitionSize + ·) (ih i)

end

/-! ### The invariants -/

namespace Table

/-- The fixed end of the coded frame buffer. -/
def origin (t : Table) : ℕ :=
  if t.playDirection = .playForward then t.codedFrameBuffer.base else t.codedFrameBuffer.stop

/-- The partitions lie side by side from the fixed end of the buffer on, and are the space used. -/
structure Placed (t : Table) : Prop where
  stop_lt : t.codedFrameBuffer.stop < 2 ^ 32
  used_le : t.codedFrameBufferUsedSpace ≤ t.codedFrameBuffer.size
  chain : Chain t.playDirection t.origin t.partitionPoints (t.nextPartition.near t.playDirection)
  sizes : extent t.partitionPoints + t.nextPartition.partitionSize = t.codedFrameBufferUsedSpace

/-- The buffer is held, and the rest of it is free. -/
def Spaced (t : Table) : Prop :=
  t.codedFrameBufferHeld = true ∧
    t.codedFrameBufferUsedSpace + t.codedFrameBufferFreeSpace = t.codedFrameBuffer.size

/-- The start codes of the partitions follow each other in the list. -/
structure Indexed (env : Base) (t : Table) : Prop where
  listed : Listed t.nextReadInStartCodeList t.partitionPoints t.nextPartition.startCodeListIndex
  index_le : t.nextPartition.startCodeListIndex ≤ t.nextWriteInStartCodeList
  quiet : env.configuration.generateStartCodeList = false →
    t.nextWriteInStartCodeList = t.nextReadInStartCodeList

/-- The order of the counters; in reverse play what is safe to output lies before the marker. -/
structure Counted (t : Table) : Prop where
  safe_le : t.partitionPointSafeToOutputCount ≤ t.partitionPointUsedCount
  marker_le : t.partitionPointMarkerCount ≤ t.partitionPointUsedCount
  used_lt : t.partitionPointUsedCount < maximumPartitionPoints
  safe_le_marker : t.playDirection = .playBackward →
    t.partitionPointSafeToOutputCount ≤ t.partitionPointMarkerCount

/-- The invariant of the partition table. -/
structure Sound (env : Base) (t : Table) : Prop where
  placed : t.Placed
  spaced : t.Spaced
  indexed : t.Indexed env
  counted : t.Counted

section
variable {env : Base} {t u : Table}

theorem Placed.forward (h : t.Placed) (hd : t.playDirection = .playForward) :
    t.nextPartition.partitionBase = t.codedFrameBuffer.base + extent t.partitionPoints := by
  have hchain := h.chain
  rw [origin, if_pos hd, hd] at hchain
  exact hchain.forward

theorem Placed.backward (h : t.Placed) (hd : t.playDirection = .playBackward) :
    t.nextPartition.partitionBase + t.codedFrameBufferUsedSpace = t.codedFrameBuffer.stop := by
  have hchain := h.chain
  rw [origin, hd, if_neg (by decide)] at hchain
  have hnear : t.nextPartition.near .playBackward =
    t.nextPartition.partitionBase + t.nextPartition.partitionSize := rfl
  have hstop := hchain.backward
  have hsizes := h.sizes
  omega

/-! ### The current partition -/

variable {bytes : ℤ}

theorem Placed.move (h : t.Placed) (hs : t.Spaced)
    (hlow : -t.nextPartition.partitionSize ≤ bytes) (hhigh : bytes ≤ t.codedFrameBufferFreeSpace) :
    (t.moveCurrentPartitionBoundary bytes).Placed ∧ (t.moveCurrentPartitionBoundary bytes).Spaced ∧
      ((t.moveCurrentPartitionBoundary bytes).nextPartition.partitionSize : ℤ) =
        t.nextPartition.partitionSize + bytes := by
  have hstop := h.stop_lt
  have hsizes := h.sizes
  obtain ⟨hheld, hs⟩ := hs
  rw [Span.stop_eq] at hstop
  have hsize := wrap_of_lt (z := t.nextPartition.partitionSize + bytes) (by omega) (by omega)
  have hused := wrap_of_lt (z := t.codedFrameBufferUsedSpace + bytes) (by omega) (by omega)
  have hfree := wrap_of_lt (z := t.codedFrameBufferFreeSpace - bytes) (by omega) (by omega)
  refine ⟨⟨h.stop_lt, ?_, ?_, ?_⟩, ?_, hsize⟩
  · simp only [moveCurrentPartitionBoundary]
    omega
  · have hchain := h.chain
    cases hd : t.playDirection with
    | playForward =>
      simp only [moveCurrentPartitionBoundary, origin, PartitionPoint.near, hd, if_true]
        at hchain ⊢
      exact hchain
    | playBackward =>
      have hbase := h.backward hd
      rw [Span.stop_eq] at hbase
      have hmoved := wrap_of_lt (z := t.nextPartition.partitionBase - bytes) (by omega) (by omega)
      simp only [moveCurrentPartitionBoundary, origin, PartitionPoint.near, hd, reduceCtorEq,
        if_false] at hchain ⊢
      convert hchain using 1
      omega
  · simp only [moveCurrentPartitionBoundary]
    omega
  · refine ⟨hheld, ?_⟩
    simp only [moveCurrentPartitionBoundary]
    omega

theorem emptyCurrentPartition_placed (h : t.Placed) (hs : t.Spaced) :
    t.emptyCurrentPartition.Placed ∧ t.emptyCurrentPartition.Spaced ∧
      t.emptyCurrentPartition.nextPartition.partitionSize = 0 := by
  obtain ⟨hplaced, hspaced, hsize⟩ :=
    h.move hs (neg_le_neg le_rfl) (by omega)
  refine ⟨⟨hplaced.stop_lt, hplaced.used_le, hplaced.chain, hplaced.sizes⟩, hspaced, ?_⟩
  change (t.moveCurrentPartitionBoundary _).nextPartition.partitionSize = 0
  omega

theorem initializePartition_placed (h : t.Placed) (hsize : t.nextPartition.partitionSize = 0) :
    t.initializePartition.Placed := by
  have hstop := h.stop_lt
  have hsizes := h.sizes
  have hused := h.used_le
  rw [Span.stop_eq] at hstop
  refine ⟨h.stop_lt, h.used_le, ?_, ?_⟩
  · have hchain := h.chain
    cases hd : t.playDirection with
    | playForward =>
      have hbase := h.forward hd
      have hnew := wrap_of_lt (z := t.codedFrameBuffer.base + t.codedFrameBufferUsedSpace)
        (by omega) (by omega)
      simp only [initializePartition, origin, PartitionPoint.near, hd, if_true] at hchain ⊢
      convert hchain using 1
      omega
    | playBackward =>
      have hbase := h.backward hd
      rw [Span.stop_eq] at hbase
      have hnew := wrap_of_lt (z := t.codedFrameBuffer.base + t.codedFrameBuffer.size -
        t.codedFrameBufferUsedSpace) (by omega) (by omega)
      simp only [initializePartition, origin, PartitionPoint.near, hd, reduceCtorEq, if_false]
        at hchain ⊢
      convert hchain using 1
      omega
  · simp only [initializePartition]
    omega

theorem emptyCurrentPartition_indexed (h : t.Indexed env) : t.emptyCurrentPartition.Indexed env := by
  refine ⟨h.listed, le_rfl, fun hquiet => ?_⟩
  have hle := h.listed.le
  have hindex := h.index_le
  have hwrite := h.quiet hquiet
  change t.nextPartition.startCodeListIndex = t.nextReadInStartCodeList
  omega

theorem initializePartition_indexed (h : t.Indexed env)
    (hindex : t.nextPartition.startCodeListIndex = t.nextWriteInStartCodeList) :
    t.initializePartition.Indexed env := by
  have hlisted := h.listed
  rw [hindex] at hlisted
  exact ⟨hlisted, le_rfl, h.quiet⟩

theorem emptyCurrentPartition_sound (h : t.Sound env) : t.emptyCurrentPartition.Sound env := by
  obtain ⟨hplaced, hspaced, -⟩ := emptyCurrentPartition_placed h.placed h.spaced
  exact ⟨hplaced, hspaced, emptyCurrentPartition_indexed h.indexed,
    ⟨h.counted.safe_le, h.counted.marker_le, h.counted.used_lt, h.counted.safe_le_marker⟩⟩

theorem initializePartition_sound (h : t.Sound env) (hsize : t.nextPartition.partitionSize = 0)
    (hindex : t.nextPartition.startCodeListIndex = t.nextWriteInStartCodeList) :
    t.initializePartition.Sound env :=
  ⟨initializePartition_placed h.placed hsize, h.spaced, initializePartition_indexed h.indexed hindex,
    ⟨h.counted.safe_le, h.counted.marker_le, h.counted.used_lt, h.counted.safe_le_marker⟩⟩

theorem dumpCurrentPartition_sound (h : t.Sound env) :
    t.emptyCurrentPartition.initializePartition.Sound env :=
  initializePartition_sound (emptyCurrentPartition_sound h)
    (emptyCurrentPartition_placed h.placed h.spaced).2.2 rfl

theorem move_sound (h : t.Sound env) (hlow : -t.nextPartition.partitionSize ≤ bytes)
    (hhigh : bytes ≤ t.codedFrameBufferFreeSpace) :
    (t.moveCurrentPartitionBoundary bytes).Sound env := by
  obtain ⟨hplaced, hspaced, -⟩ := h.placed.move h.spaced hlow hhigh
  exact ⟨hplaced, hspaced, ⟨h.indexed.listed, h.indexed.index_le, h.indexed.quiet⟩,
    ⟨h.counted.safe_le, h.counted.marker_le, h.counted.used_lt, h.counted.safe_le_marker⟩⟩

end

/-! ### Output -/

/-- In forward play no more partitions are safe to output than the marker counts, the size of a new
buffer fits into 32 bits, and a new buffer is only refused while there is something in the old one. -/
def OutputClear (env : Base) (t : Table) : Prop :=
  (t.playDirection = .playForward →
    t.partitionPointSafeToOutputCount ≤ t.partitionPointMarkerCount) ∧
  t.codedFrameBufferUsedSpace + t.acceptableBufferSpace env < 2 ^ 32 ∧
  ((t.partitionOutput env).1 = .noBuffer → (t.partitionOutput env).2.codedFrameBufferUsedSpace ≠ 0)

instance (env : Base) (t : Table) : Decidable (t.OutputClear env) :=
  inferInstanceAs (Decidable ((_ → _) ∧ _ ∧ (_ → _)))

/-- Some partitions have been output, and the rest of the table is as it was. -/
structure Output (t u : Table) (n : ℕ) : Prop where
  direction : u.playDirection = t.playDirection
  points : u.partitionPoints = t.partitionPoints.drop n
  next : u.nextPartition = t.nextPartition
  write : u.nextWriteInStartCodeList = t.nextWriteInStartCodeList
  marker : u.partitionPointMarkerCount = t.partitionPointMarkerCount
  safe : u.partitionPointSafeToOutputCount = t.partitionPointSafeToOutputCount
  largest : u.largestFrameSeen = t.largestFrameSeen
  used_le : u.codedFrameBufferUsedSpace ≤ t.codedFrameBufferUsedSpace
  held : u.codedFrameBufferHeld = t.codedFrameBufferHeld

theorem Output.refl (t : Table) (requests : ℕ) :
    Output t { t with poolRequests := requests } 0 :=
  ⟨rfl, rfl, rfl, rfl, rfl, rfl, rfl, le_rfl, rfl⟩

section
variable {env : Base} {t u : Table} {p : PartitionPoint} {rest : List PartitionPoint} {n : ℕ}

/-- The frame that is cut off lies at the fixed end of the buffer. -/
theorem performOnePartition_placed (h : t.Placed) (hpoints : t.partitionPoints = p :: rest) :
    (performOnePartition env t p rest).Placed ∧
      (performOnePartition env t p rest).codedFrameBufferUsedSpace ≤ t.codedFrameBufferUsedSpace := by
  have hstop := h.stop_lt
  have hsizes := h.sizes
  have hle := h.used_le
  have hchain := h.chain
  rw [Span.stop_eq] at hstop
  rw [hpoints, extent_cons] at hsizes
  rw [hpoints] at hchain
  have hused := wrap_of_lt (z := t.codedFrameBufferUsedSpace - p.partitionSize) (by omega) (by omega)
  have husedLe : (performOnePartition env t p rest).codedFrameBufferUsedSpace ≤
      t.codedFrameBufferUsedSpace := by
    simp only [performOnePartition]
    omega
  refine ⟨?_, husedLe⟩
  cases hd : t.playDirection with
  | playForward =>
    have hbase := wrap_of_lt (z := t.codedFrameBuffer.base + p.partitionSize) (by omega) (by omega)
    have hsize := wrap_of_lt (z := t.codedFrameBuffer.size - p.partitionSize) (by omega) (by omega)
    rw [origin, hd, if_pos rfl] at hchain
    have hnear : p.partitionBase = t.codedFrameBuffer.base := hchain.1
    have hrest : Chain .playForward (p.partitionBase + p.partitionSize) rest
      (t.nextPartition.near .playForward) := hchain.2
    refine ⟨?_, ?_, ?_, ?_⟩
    · simp only [performOnePartition, hd, if_true, Span.stop_eq]
      omega
    · simp only [performOnePartition, hd, if_true]
      omega
    · simp only [performOnePartition, hd, origin, if_true]
      convert hrest using 1
      omega
    · simp only [performOnePartition]
      omega
  | playBackward =>
    rw [origin, hd, if_neg (by decide)] at hchain
    have hnear : p.partitionBase + p.partitionSize = t.codedFrameBuffer.stop := hchain.1
    have hrest : Chain .playBackward p.partitionBase rest (t.nextPartition.near .playBackward) :=
      hchain.2
    rw [Span.stop_eq] at hnear
    have hsize := wrap_of_lt (z := p.partitionBase - t.codedFrameBuffer.base) (by omega) (by omega)
    refine ⟨?_, ?_, ?_, ?_⟩
    · simp only [performOnePartition, hd, reduceCtorEq, if_false, Span.stop_eq]
      omega
    · simp only [performOnePartition, hd, reduceCtorEq, if_false]
      omega
    · simp only [performOnePartition, hd, origin, reduceCtorEq, if_false, Span.stop_eq]
      convert hrest using 1
      omega
    · simp only [performOnePartition]
      omega

theorem performOnePartition_indexed (h : t.Indexed env) (hpoints : t.partitionPoints = p :: rest) :
    (performOnePartition env t p rest).Indexed env := by
  have hlisted := h.listed
  have hindex := h.index_le
  rw [hpoints] at hlisted
  obtain ⟨-, hrest⟩ := hlisted
  cases hgenerate : env.configuration.generateStartCodeList with
  | true =>
    refine ⟨?_, h.index_le, fun hquiet => absurd hquiet (by simp [hgenerate])⟩
    simp only [performOnePartition, hgenerate, if_true]
    exact hrest
  | false =>
    -- no start codes have been accumulated
    have hwrite := h.quiet hgenerate
    have hle := hrest.le
    have hnone : p.numberOfStartCodes = 0 := by omega
    rw [hnone, Nat.add_zero] at hrest
    refine ⟨?_, h.index_le, fun _ => ?_⟩
    · simpa only [performOnePartition, hgenerate, Bool.false_eq_true, if_false] using hrest
    · simpa only [performOnePartition, hgenerate, Bool.false_eq_true, if_false] using hwrite

theorem outputPartitions_cases (env : Base) (count known : ℕ) (t : Table) :
    (∃ r, outputPartitions env (count + 1) known t = ({ t with poolRequests := r }, 0)) ∨
    ∃ p rest r k, t.partitionPoints = p :: rest ∧ outputPartitions env (count + 1) known t =
      ((outputPartitions env count k
          (performOnePartition env { t with poolRequests := r } p rest)).1,
        (outputPartitions env count k
          (performOnePartition env { t with poolRequests := r } p rest)).2 + 1) := by
  rw [outputPartitions]
  split
  · exact .inl ⟨t.poolRequests, rfl⟩
  next p rest hpoints =>
    by_cases hknown : known = 0
    · simp only [hknown, if_true]
      split
      · exact .inl ⟨_, rfl⟩
      · split
        · exact .inr ⟨p, rest, t.poolRequests + 1 + 1,
            wrap (env.pool.freeBuffers t.poolRequests - 1), hpoints, rfl⟩
        · exact .inl ⟨_, rfl⟩
    · simp only [hknown, if_false]
      split
      · exact .inl ⟨t.poolRequests, rfl⟩
      · split
        · exact .inr ⟨p, rest, t.poolRequests + 1, wrap (known - 1), hpoints, rfl⟩
        · exact .inl ⟨_, rfl⟩

theorem outputPartitions_spec {count known : ℕ} (h : t.Placed) (hindexed : t.Indexed env) :
    (outputPartitions env count known t).1.Placed ∧
      (outputPartitions env count known t).1.Indexed env ∧
      Output t (outputPartitions env count known t).1 (outputPartitions env count known t).2 ∧
      (outputPartitions env count known t).2 ≤ count := by
  induction count generalizing t known with
  | zero => exact ⟨h, hindexed, .refl t t.poolRequests, le_rfl⟩
  | succ count ih =>
    rcases outputPartitions_cases env count known t with
      ⟨r, hstop⟩ | ⟨p, rest, r, k, hpoints, hgo⟩
    · rw [hstop]
      exact ⟨⟨h.stop_lt, h.used_le, h.chain, h.sizes⟩,
        ⟨hindexed.listed, hindexed.index_le, hindexed.quiet⟩, .refl t r, Nat.zero_le _⟩
    · rw [hgo]
      obtain ⟨v, hv⟩ : ∃ v, v = ({ t with poolRequests := r } : Table) := ⟨_, rfl⟩
      have hplaced : v.Placed := by rw [hv]; exact ⟨h.stop_lt, h.used_le, h.chain, h.sizes⟩
      have hvindexed : v.Indexed env := by
        rw [hv]
        exact ⟨hindexed.listed, hindexed.index_le, hindexed.quiet⟩
      have hvpoints : v.partitionPoints = p :: rest := by rw [hv]; exact hpoints
      obtain ⟨hplaced', hle⟩ := performOnePartition_placed hplaced hvpoints
      obtain ⟨hw, hwi, hout, hcount⟩ := ih hplaced'
        (performOnePartition_indexed hvindexed hvpoints)
      rw [← hv]
      refine ⟨hw, hwi, ?_, Nat.succ_le_succ hcount⟩
      obtain ⟨h1, h2, h3, h4, h5, h6, h7, h8, h9⟩ := hout
      subst hv
      refine ⟨h1, h2.trans ?_, h3, h4, h5, h6, h7, h8.trans hle, h9⟩
      rw [hpoints, List.drop_succ_cons]
      rfl

/-- A buffer that holds what is used takes all partitions over. -/
theorem moveToBuffer_placed (new : Span) (h : t.Placed)
    (hsize : t.codedFrameBufferUsedSpace ≤ new.size) (hstop : new.stop < 2 ^ 32) :
    (t.moveToBuffer new).Placed ∧ (t.moveToBuffer new).Spaced := by
  have hold := h.stop_lt
  have hsizes := h.sizes
  have hle := h.used_le
  have hchain := h.chain
  rw [Span.stop_eq] at hold
  have hnew := hstop
  rw [Span.stop_eq] at hnew
  have hfree := wrap_of_lt (z := new.size - t.codedFrameBufferUsedSpace) (by omega) (by omega)
  have hspaced : (t.moveToBuffer new).Spaced := by
    refine ⟨rfl, ?_⟩
    simp only [moveToBuffer]
    omega
  refine ⟨⟨hstop, hsize, ?_, ?_⟩, hspaced⟩
  · cases hd : t.playDirection with
    | playForward =>
      have hbase := h.forward hd
      rw [origin, hd, if_pos rfl] at hchain
      have hnear : t.nextPartition.near .playForward = t.nextPartition.partitionBase := rfl
      have hmoved := hchain.moveForward (x := new.base) (y := t.codedFrameBuffer.base) le_rfl
        (by omega)
      have hnext := wrap_of_lt (z := t.nextPartition.partitionBase + new.base -
        t.codedFrameBuffer.base) (by omega) (by omega)
      simp only [moveToBuffer, origin, hd, if_true, PartitionPoint.near] at hmoved ⊢
      convert hmoved using 1
      · omega
      · rfl
      · omega
    | playBackward =>
      have hbase := h.backward hd
      rw [Span.stop_eq] at hbase
      rw [origin, hd, if_neg (by decide), Span.stop_eq] at hchain
      have hnear : t.nextPartition.near .playBackward =
        t.nextPartition.partitionBase + t.nextPartition.partitionSize := rfl
      have hfrom := wrap_of_lt (z := t.codedFrameBuffer.base + t.codedFrameBuffer.size -
        t.codedFrameBufferUsedSpace) (by omega) (by omega)
      have hto := wrap_of_lt (z := new.base + new.size - t.codedFrameBufferUsedSpace)
        (by omega) (by omega)
      have hmoved := hchain.moveBackward
        (x := wrap (new.base + new.size - t.codedFrameBufferUsedSpace))
        (y := wrap (t.codedFrameBuffer.base + t.codedFrameBuffer.size -
          t.codedFrameBufferUsedSpace)) (by omega) (by omega)
      have hnext := wrap_of_lt (z := t.nextPartition.partitionBase +
        wrap (new.base + new.size - t.codedFrameBufferUsedSpace) -
        wrap (t.codedFrameBuffer.base + t.codedFrameBuffer.size - t.codedFrameBufferUsedSpace))
        (by omega) (by omega)
      simp only [moveToBuffer, origin, hd, reduceCtorEq, if_false, PartitionPoint.near,
        Span.stop_eq] at hmoved ⊢
      convert hmoved using 1
      · omega
      · rfl
      · omega
  · change extent (t.partitionPoints.map (moveBy _ _)) + t.nextPartition.partitionSize = _
    rw [extent_map_moveBy]
    exact hsizes

/-- What `secureRoom` leaves as it was, but for the addresses. -/
structure SameTable (t u : Table) : Prop where
  direction : u.playDirection = t.playDirection
  count : u.partitionPointUsedCount = t.partitionPointUsedCount
  marker : u.partitionPointMarkerCount = t.partitionPointMarkerCount
  safe : u.partitionPointSafeToOutputCount = t.partitionPointSafeToOutputCount
  size : u.nextPartition.partitionSize = t.nextPartition.partitionSize
  used : u.codedFrameBufferUsedSpace = t.codedFrameBufferUsedSpace

theorem SameTable.counted (h : SameTable t u) (hc : t.Counted) : u.Counted := by
  obtain ⟨hd, hcount, hmarker, hsafe, -⟩ := h
  refine ⟨?_, ?_, ?_, fun hback => ?_⟩
  · rw [hsafe, hcount]
    exact hc.safe_le
  · rw [hmarker, hcount]
    exact hc.marker_le
  · rw [hcount]
    exact hc.used_lt
  · rw [hsafe, hmarker]
    exact hc.safe_le_marker (hd ▸ hback)

theorem extended_placed (h : t.Placed) (hheld : t.codedFrameBufferHeld = true) (requests : ℕ) (b : Span)
    (hb : b = env.pool.extendBuffer t.poolRequests t.playDirection t.codedFrameBuffer) :
    let u : Table := { t with
      poolRequests := requests
      codedFrameBuffer := b
      codedFrameBufferFreeSpace := wrap (b.size - t.codedFrameBufferUsedSpace)
      extendCodedFrameBufferAtEarliestOpportunity := false }
    u.Placed ∧ u.Spaced := by
  have hsize := env.pool.extendBuffer_size t.poolRequests t.playDirection t.codedFrameBuffer
  have hstop := env.pool.extendBuffer_stop t.poolRequests t.playDirection t.codedFrameBuffer h.stop_lt
  rw [← hb] at hsize hstop
  have hle := h.used_le
  have hbstop := hstop
  rw [Span.stop_eq] at hbstop
  have hfree := wrap_of_lt (z := b.size - t.codedFrameBufferUsedSpace) (by omega) (by omega)
  refine ⟨⟨hstop, hle.trans hsize, ?_, h.sizes⟩, ?_⟩
  · have hchain := h.chain
    cases hd : t.playDirection with
    | playForward =>
      have hbase := env.pool.extendBuffer_forward t.poolRequests t.codedFrameBuffer
      rw [hd] at hb
      rw [← hb] at hbase
      rw [origin, hd, if_pos rfl] at hchain
      simp only [origin, if_true, hbase]
      exact hchain
    | playBackward =>
      have hfixed := env.pool.extendBuffer_backward t.poolRequests t.codedFrameBuffer
      rw [hd] at hb
      rw [← hb] at hfixed
      rw [origin, hd, if_neg (by decide)] at hchain
      simp only [origin, reduceCtorEq, if_false, hfixed]
      exact hchain
  · refine ⟨hheld, ?_⟩
    dsimp only
    omega

theorem secureRoom_same (t : Table) : SameTable t (t.secureRoom env).2 := by
  unfold secureRoom
  dsimp only
  split
  · split
    · split
      · exact ⟨rfl, rfl, rfl, rfl, rfl, rfl⟩
      · exact ⟨rfl, List.length_map .., rfl, rfl, rfl, rfl⟩
    · exact ⟨rfl, rfl, rfl, rfl, rfl, rfl⟩
  · exact ⟨rfl, rfl, rfl, rfl, rfl, rfl⟩

/-- The buffer is only lost when nothing is in it and no new one is obtained. -/
theorem secureRoom_held (env : Base) (hheld : t.codedFrameBufferHeld = true) :
    (t.secureRoom env).2.codedFrameBufferHeld = true ∨
      (t.secureRoom env).1 = .noBuffer ∧ t.codedFrameBufferUsedSpace = 0 := by
  unfold secureRoom
  dsimp only
  split
  · split
    · split
      · by_cases hused : t.codedFrameBufferUsedSpace = 0
        · exact .inr ⟨rfl, hused⟩
        · rw [hheld, decide_eq_true hused]
          exact .inl rfl
      · exact .inl rfl
    · exact .inl hheld
  · exact .inl hheld

theorem secureRoom_spec (h : t.Placed) (hheld : t.codedFrameBufferHeld = true) (hindexed : t.Indexed env)
    (hclear : t.codedFrameBufferUsedSpace + t.acceptableBufferSpace env < 2 ^ 32) :
    (t.secureRoom env).2.Placed ∧ (t.secureRoom env).2.codedFrameBufferUsedSpace +
        (t.secureRoom env).2.codedFrameBufferFreeSpace = (t.secureRoom env).2.codedFrameBuffer.size ∧
      (t.secureRoom env).2.Indexed env := by
  obtain ⟨hplaced, -, hspaced⟩ := extended_placed h hheld (t.poolRequests + 1) _ rfl
  unfold secureRoom
  dsimp only
  split
  · split
    · split
      · exact ⟨⟨hplaced.stop_lt, hplaced.used_le, hplaced.chain, hplaced.sizes⟩, hspaced,
          ⟨hindexed.listed, hindexed.index_le, hindexed.quiet⟩⟩
      next new hnew =>
        have hsize := env.pool.getBuffer_size _ _ _ hnew
        have hstop := env.pool.getBuffer_stop _ _ _ hnew
        have hsought := wrap_of_lt (z := t.codedFrameBufferUsedSpace + t.acceptableBufferSpace env)
          (by omega) (by exact_mod_cast hclear)
        have hle : t.codedFrameBufferUsedSpace ≤ new.size := by
          refine le_trans ?_ hsize
          change t.codedFrameBufferUsedSpace ≤
            wrap (t.codedFrameBufferUsedSpace + t.acceptableBufferSpace env)
          omega
        obtain ⟨hmoved, hroom⟩ := moveToBuffer_placed new
          (t := { t with
            poolRequests := t.poolRequests + 1 + 1 + 1
            codedFrameBuffer :=
              env.pool.extendBuffer t.poolRequests t.playDirection t.codedFrameBuffer
            codedFrameBufferHeld := t.codedFrameBufferHeld && t.codedFrameBufferUsedSpace ≠ 0
            codedFrameBufferFreeSpace := wrap ((env.pool.extendBuffer t.poolRequests
              t.playDirection t.codedFrameBuffer).size - t.codedFrameBufferUsedSpace)
            extendCodedFrameBufferAtEarliestOpportunity := false })
          ⟨hplaced.stop_lt, hplaced.used_le, hplaced.chain, hplaced.sizes⟩ hle hstop
        refine ⟨hmoved, hroom.2, ⟨?_, hindexed.index_le, hindexed.quiet⟩⟩
        exact hindexed.listed.map (fun _ => rfl) (fun _ => rfl)
    · exact ⟨⟨hplaced.stop_lt, hplaced.used_le, hplaced.chain, hplaced.sizes⟩, hspaced,
        ⟨hindexed.listed, hindexed.index_le, hindexed.quiet⟩⟩
  · exact ⟨hplaced, hspaced, ⟨hindexed.listed, hindexed.index_le, hindexed.quiet⟩⟩

theorem Output.acceptableBufferSpace (h : Output t u n) :
    u.acceptableBufferSpace env = t.acceptableBufferSpace env := by
  simp only [Table.acceptableBufferSpace, h.next, h.largest]

theorem partitionOutput_frame (t : Table) :
    (t.partitionOutput env).2.playDirection = t.playDirection ∧
      (t.partitionOutput env).2.partitionPointUsedCount ≤ t.partitionPointUsedCount := by
  have hloop : ∀ (count known : ℕ) (t : Table),
      (outputPartitions env count known t).1.playDirection = t.playDirection ∧
        (outputPartitions env count known t).1.partitionPointUsedCount ≤
          t.partitionPointUsedCount := by
    intro count
    induction count with
    | zero => exact fun known t => ⟨rfl, le_rfl⟩
    | succ count ih =>
      intro known t
      rcases outputPartitions_cases env count known t with
        ⟨r, hstop⟩ | ⟨p, rest, r, k, hpoints, hgo⟩
      · rw [hstop]
        exact ⟨rfl, le_rfl⟩
      · rw [hgo]
        obtain ⟨hdirection, hcount⟩ := ih k (performOnePartition env { t with poolRequests := r } p rest)
        refine ⟨hdirection, hcount.trans ?_⟩
        change rest.length ≤ t.partitionPoints.length
        rw [hpoints]
        exact Nat.le_succ _
  have hsame : ∀ v : Table, SameTable v (v.secureRoom env).2 := secureRoom_same
  obtain ⟨hdirection, hcount⟩ := hloop t.partitionPointSafeToOutputCount 0 t
  exact ⟨(hsame _).direction.trans hdirection, (hsame _).count.le.trans hcount⟩

/-- **Output**: it keeps the table. -/
theorem partitionOutput_sound (hplaced : t.Placed) (hheld : t.codedFrameBufferHeld = true)
    (hindexed : t.Indexed env) (hc : t.Counted) (hclear : OutputClear env t) :
    (t.partitionOutput env).2.Sound env := by
  obtain ⟨hp, hi, hout, hn⟩ := outputPartitions_spec
    hplaced hindexed
  obtain ⟨hforward, hroom, hobtained⟩ := hclear
  unfold partitionOutput at hobtained ⊢
  generalize outputPartitions env t.partitionPointSafeToOutputCount 0 t = o at hp hi hout hn hobtained ⊢
  obtain ⟨u, n⟩ := o
  dsimp only at hp hi hout hn hobtained ⊢
  have hsafeLe := hc.safe_le
  have hmarkerLe := hc.marker_le
  have hlt := hc.used_lt
  have hmarked : t.partitionPointSafeToOutputCount ≤ t.partitionPointMarkerCount := by
    cases hd : t.playDirection with
    | playForward => exact hforward hd
    | playBackward => exact hc.safe_le_marker hd
  have hlen : u.partitionPoints.length = t.partitionPointUsedCount - n := by
    rw [hout.points, List.length_drop]
    rfl
  simp only [maximumPartitionPoints] at hlt
  have hmarker := wrap_of_lt (z := u.partitionPointMarkerCount - n)
    (by rw [hout.marker]; omega) (by rw [hout.marker]; omega)
  have hsafe := wrap_of_lt (z := u.partitionPointSafeToOutputCount - n)
    (by rw [hout.safe]; omega) (by rw [hout.safe]; omega)
  rw [hout.marker] at hmarker
  rw [hout.safe] at hsafe
  obtain ⟨v, hv⟩ : ∃ v, v = ({ u with
      partitionPointMarkerCount := wrap (u.partitionPointMarkerCount - n)
      partitionPointSafeToOutputCount := wrap (u.partitionPointSafeToOutputCount - n) } : Table) :=
    ⟨_, rfl⟩
  have hvcounted : v.Counted := by
    rw [hv, hout.marker, hout.safe]
    refine ⟨?_, ?_, ?_, fun _ => ?_⟩
    · change wrap _ ≤ u.partitionPoints.length
      omega
    · change wrap _ ≤ u.partitionPoints.length
      omega
    · change u.partitionPoints.length < maximumPartitionPoints
      simp only [maximumPartitionPoints]
      omega
    · change wrap _ ≤ wrap _
      omega
  have hspace : v.codedFrameBufferUsedSpace + v.acceptableBufferSpace env < 2 ^ 32 := by
    have hacceptable : u.acceptableBufferSpace env = t.acceptableBufferSpace env :=
      hout.acceptableBufferSpace
    have hle := hout.used_le
    rw [hv]
    change u.codedFrameBufferUsedSpace + u.acceptableBufferSpace env < 2 ^ 32
    omega
  have hvplaced : v.Placed := by rw [hv]; exact ⟨hp.stop_lt, hp.used_le, hp.chain, hp.sizes⟩
  have hvindexed : v.Indexed env := by rw [hv]; exact ⟨hi.listed, hi.index_le, hi.quiet⟩
  rw [← hv, (secureRoom_same v).used] at hobtained
  have hvheld : v.codedFrameBufferHeld = true := by rw [hv]; exact hout.held.trans hheld
  obtain ⟨hplaced', hspaced', hindexed'⟩ := secureRoom_spec hvplaced hvheld hvindexed hspace
  have hheld' := (secureRoom_held env hvheld).resolve_right fun h => hobtained h.1 h.2
  rw [← hv]
  exact ⟨hplaced', ⟨hheld', hspaced'⟩, hindexed', (secureRoom_same v).counted hvcounted⟩

end

/-! ### Accumulation -/

/-- If the data does not fit, the output that is to make room for it is clear. -/
def DataClear (env : Base) (t : Table) (length : ℕ) : Prop :=
  wrap (t.nextPartition.partitionSize + length) ≤ env.maximumCodedFrameSize →
    t.codedFrameBufferFreeSpace < length → OutputClear env t

section
variable {env : Base} {t : Table}

instance (env : Base) (t : Table) (length : ℕ) : Decidable (t.DataClear env length) :=
  inferInstanceAs (Decidable (_ → _ → t.OutputClear env))

theorem Sound.frame (h : t.Sound env) (memory : ℕ → UInt8) (discarding nonBlocking : Bool) :
    ({ t with
        memory := memory
        discardingData := discarding
        nonBlockingInput := nonBlocking } : Table).Sound env :=
  ⟨⟨h.placed.stop_lt, h.placed.used_le, h.placed.chain, h.placed.sizes⟩, h.spaced,
    ⟨h.indexed.listed, h.indexed.index_le, h.indexed.quiet⟩,
    ⟨h.counted.safe_le, h.counted.marker_le, h.counted.used_lt, h.counted.safe_le_marker⟩⟩

variable {bytes : List UInt8}

theorem store_sound (h : t.Sound env)
    (hroom : bytes.length ≤ t.codedFrameBufferFreeSpace) : (t.store bytes).Sound env :=
  move_sound (h.frame _ t.discardingData t.nonBlockingInput)
    (le_trans (neg_nonpos.mpr (Int.natCast_nonneg _)) (Int.natCast_nonneg _))
    (Int.ofNat_le.mpr hroom)

theorem accumulateData_frame (t : Table) (bytes : List UInt8) :
    (t.accumulateData env bytes).2.playDirection = t.playDirection ∧
      (t.accumulateData env bytes).2.partitionPointUsedCount ≤ t.partitionPointUsedCount := by
  unfold accumulateData
  split
  · exact ⟨rfl, le_rfl⟩
  · split
    · dsimp only
      split
      · exact partitionOutput_frame t
      · split <;> exact partitionOutput_frame t
    · exact ⟨rfl, le_rfl⟩

/-- **Data**: it is accumulated in the current partition, after output if need be. -/
theorem accumulateData_sound (h : t.Sound env)
    (hclear : t.DataClear env bytes.length) : (t.accumulateData env bytes).2.Sound env := by
  unfold accumulateData
  split
  · exact dumpCurrentPartition_sound h
  next hfits =>
    split
    next hshort =>
      have hsound := partitionOutput_sound h.placed h.spaced.1 h.indexed h.counted
        (hclear (Nat.le_of_not_lt hfits) hshort)
      dsimp only
      split
      · exact hsound
      · split
        · exact hsound
        next hroom => exact store_sound hsound (Nat.le_of_not_lt hroom)
    next hroom => exact store_sound h (Nat.le_of_not_lt hroom)

theorem accumulateStartCode_sound {code : ℕ × UInt8} (h : t.Sound env) :
    (t.accumulateStartCode env code).2.Sound env := by
  unfold accumulateStartCode
  split
  · exact h
  next hgenerate =>
    split
    · exact h
    · refine ⟨⟨h.placed.stop_lt, h.placed.used_le, h.placed.chain, h.placed.sizes⟩, h.spaced,
        ⟨h.indexed.listed, Nat.le_succ_of_le h.indexed.index_le, fun hquiet => ?_⟩,
        ⟨h.counted.safe_le, h.counted.marker_le, h.counted.used_lt, h.counted.safe_le_marker⟩⟩
      simp [hquiet] at hgenerate

theorem closePartition_sound (h : t.Sound env)
    (hroom : t.partitionPointUsedCount + 1 < maximumPartitionPoints) : t.closePartition.Sound env := by
  have hstop := h.placed.stop_lt
  have hsizes := h.placed.sizes
  have hused := h.placed.used_le
  have hchain := h.placed.chain
  rw [Span.stop_eq] at hstop
  have hlength : t.closePartition.partitionPointUsedCount = t.partitionPointUsedCount + 1 :=
    List.length_append ..
  refine ⟨⟨h.placed.stop_lt, h.placed.used_le, ?_, ?_⟩, h.spaced, ⟨?_, le_rfl, h.indexed.quiet⟩,
    ⟨?_, ?_, ?_, h.counted.safe_le_marker⟩⟩
  · simp only [closePartition, initializePartition, origin]
    rw [chain_append]
    refine ⟨hchain, ?_⟩
    cases hd : t.playDirection with
    | playForward =>
      have hbase := h.placed.forward hd
      have hnew := wrap_of_lt (z := t.codedFrameBuffer.base + t.codedFrameBufferUsedSpace)
        (by omega) (by omega)
      simp only [PartitionPoint.near, PartitionPoint.far, if_true]
      omega
    | playBackward =>
      have hbase := h.placed.backward hd
      rw [Span.stop_eq] at hbase
      have hnew := wrap_of_lt (z := t.codedFrameBuffer.base + t.codedFrameBuffer.size -
        t.codedFrameBufferUsedSpace) (by omega) (by omega)
      simp only [PartitionPoint.near, PartitionPoint.far, reduceCtorEq, if_false]
      omega
  · simp only [closePartition, initializePartition, extent_append, extent_cons, extent_nil]
    omega
  · simp only [closePartition, initializePartition]
    rw [listed_append]
    have hindex := h.indexed.index_le
    exact ⟨h.indexed.listed, by dsimp only; omega⟩
  · rw [hlength]
    exact Nat.le_succ_of_le h.counted.safe_le
  · rw [hlength]
    exact Nat.le_succ_of_le h.counted.marker_le
  · rw [hlength]
    exact hroom

/-- The terminal code finds room, or the output for it is clear. -/
def TerminalClear (env : Base) (t : Table) : Prop :=
  t.playDirection = .playForward → t.nextPartition.partitionSize ≠ 0 →
    env.configuration.insertFrameTerminateCode = true → t.DataClear env 4

instance (env : Base) (t : Table) : Decidable (t.TerminalClear env) :=
  inferInstanceAs (Decidable (_ → _ → _ → t.DataClear env 4))

theorem appendTerminalCode_frame (t : Table) (direction : PlayDirection) :
    (t.appendTerminalCode env direction).playDirection = t.playDirection ∧
      (t.appendTerminalCode env direction).partitionPointUsedCount ≤ t.partitionPointUsedCount := by
  unfold appendTerminalCode
  split
  · exact accumulateData_frame t _
  · exact ⟨rfl, le_rfl⟩

theorem appendTerminalCode_sound (h : t.Sound env) (hclear : t.TerminalClear env) :
    (t.appendTerminalCode env .playForward).Sound env := by
  unfold appendTerminalCode
  split
  next hcode =>
    exact accumulateData_sound h
      (hclear hcode.1 hcode.2.1 hcode.2.2)
  · exact h

/-- The current partition as it is when it is to be accumulated. -/
def discarded (t : Table) : Table := if t.discardingData then t.emptyCurrentPartition else t

theorem accumulateOnePartition_eq : t.accumulateOnePartition env =
    if t.discarded.hasPartition then
      (t.discarded.appendTerminalCode env .playForward).closePartition
    else t.discarded := by
  change (if !t.discarded.hasPartition then t.discarded
    else (t.discarded.appendTerminalCode env .playForward).closePartition.appendTerminalCode env
      .playBackward) = _
  have hempty : ∀ u : Table,
      u.closePartition.appendTerminalCode env .playBackward = u.closePartition := by
    intro u
    unfold appendTerminalCode
    rw [if_neg]
    rintro ⟨-, hsize, -⟩
    exact hsize rfl
  rw [hempty]
  cases t.discarded.hasPartition <;> rfl

theorem discarded_sound (h : t.Sound env) : t.discarded.Sound env := by
  unfold discarded
  split
  · exact emptyCurrentPartition_sound h
  · exact h

@[simp] theorem discarded_partitionPointUsedCount :
    t.discarded.partitionPointUsedCount = t.partitionPointUsedCount := by
  unfold discarded
  split <;> rfl

theorem accumulateOnePartition_frame (t : Table) :
    (t.accumulateOnePartition env).playDirection = t.playDirection ∧
      (t.accumulateOnePartition env).partitionPointUsedCount ≤ t.partitionPointUsedCount + 1 := by
  have hdirection : t.discarded.playDirection = t.playDirection := by
    unfold discarded
    split <;> rfl
  rw [accumulateOnePartition_eq]
  split
  · obtain ⟨hd, hcount⟩ := appendTerminalCode_frame t.discarded .playForward
    rw [discarded_partitionPointUsedCount] at hcount
    refine ⟨hd.trans hdirection, ?_⟩
    change (_ ++ [_]).length ≤ _
    rw [List.length_append]
    exact Nat.succ_le_succ hcount
  · rw [discarded_partitionPointUsedCount]
    exact ⟨hdirection, Nat.le_succ _⟩

/-- **Accumulation of a partition**: it needs room in the table if there is one to accumulate. -/
theorem accumulateOnePartition_sound (h : t.Sound env) (hclear : t.discarded.TerminalClear env)
    (hroom : t.discarded.hasPartition = true →
      t.partitionPointUsedCount + 1 < maximumPartitionPoints) :
    (t.accumulateOnePartition env).Sound env := by
  rw [accumulateOnePartition_eq]
  split
  next hhas =>
    refine closePartition_sound (appendTerminalCode_sound (discarded_sound h) hclear) ?_
    have hcount : (t.discarded.appendTerminalCode env .playForward).partitionPointUsedCount ≤
        t.discarded.partitionPointUsedCount :=
      (appendTerminalCode_frame t.discarded .playForward).2
    rw [discarded_partitionPointUsedCount] at hcount
    exact lt_of_le_of_lt (Nat.succ_le_succ hcount) (hroom hhas)
  · exact discarded_sound h

/-! ### Discarding, and changing the direction -/

variable {ps : List PartitionPoint} {q : PartitionPoint}

theorem reopen_placed (h : t.Placed)
    (hs : t.Spaced) (hpoints : t.partitionPoints = ps ++ [q]) :
    let u : Table := { t.emptyCurrentPartition with partitionPoints := ps, nextPartition := q }
    u.Placed ∧ u.Spaced := by
  obtain ⟨hplaced, hspaced, hsize⟩ := emptyCurrentPartition_placed h hs
  have hchain := hplaced.chain
  have hsizes := hplaced.sizes
  change Chain t.playDirection t.emptyCurrentPartition.origin t.partitionPoints _ at hchain
  change extent t.partitionPoints + t.emptyCurrentPartition.nextPartition.partitionSize = _ at hsizes
  rw [hpoints, chain_append] at hchain
  rw [hpoints, hsize, extent_append, extent_cons, extent_nil] at hsizes
  exact ⟨⟨hplaced.stop_lt, hplaced.used_le, hchain.1, by simpa using hsizes⟩, hspaced⟩

theorem reopen_indexed (h : t.Indexed env)
    (hpoints : t.partitionPoints = ps ++ [q]) :
    ({ t.emptyCurrentPartition with partitionPoints := ps, nextPartition := q } : Table).Indexed
      env := by
  have hempty := emptyCurrentPartition_indexed h
  have hlisted := h.listed
  rw [hpoints, listed_append] at hlisted
  refine ⟨hlisted.1, ?_, hempty.quiet⟩
  change q.startCodeListIndex ≤ t.nextPartition.startCodeListIndex
  omega

theorem discardPartitions_spec {count : ℕ} (hp : t.Placed) (hs : t.Spaced) (hi : t.Indexed env)
    (hsafe : t.partitionPointSafeToOutputCount ≤ t.partitionPointUsedCount) :
    (discardPartitions count t).Placed ∧ (discardPartitions count t).Spaced ∧
      (discardPartitions count t).Indexed env ∧
      (discardPartitions count t).playDirection = t.playDirection ∧
      (discardPartitions count t).partitionPointSafeToOutputCount =
        t.partitionPointSafeToOutputCount ∧
      t.partitionPointSafeToOutputCount ≤ (discardPartitions count t).partitionPointUsedCount ∧
      (discardPartitions count t).partitionPointUsedCount ≤ t.partitionPointUsedCount := by
  induction count generalizing t with
  | zero => exact ⟨hp, hs, hi, rfl, rfl, hsafe, le_rfl⟩
  | succ count ih =>
    unfold discardPartitions
    split
    next hmore =>
      have hne : t.partitionPoints ≠ [] := List.ne_nil_of_length_pos (by omega)
      obtain ⟨ps, q, hpoints⟩ : ∃ ps q, t.partitionPoints = ps ++ [q] :=
        ⟨_, _, (List.dropLast_append_getLast hne).symm⟩
      obtain ⟨hplaced, hspaced⟩ := reopen_placed hp hs hpoints
      have hindexed := reopen_indexed hi hpoints
      have hlength : ps.length + 1 = t.partitionPointUsedCount := by
        change _ = t.partitionPoints.length
        rw [hpoints, List.length_append, List.length_singleton]
      obtain ⟨v, hv⟩ : ∃ v, v = ({ t.emptyCurrentPartition with
          partitionPoints := ps, nextPartition := q } : Table) := ⟨_, rfl⟩
      have hdrop : ({ t.emptyCurrentPartition with
          partitionPoints := t.emptyCurrentPartition.partitionPoints.dropLast
          nextPartition := t.emptyCurrentPartition.partitionPoints.getLast?.getD
            t.emptyCurrentPartition.nextPartition } : Table) = v := by
        have hsame : t.emptyCurrentPartition.partitionPoints = ps ++ [q] := hpoints
        rw [hv, hsame, List.dropLast_concat, List.getLast?_concat]
        rfl
      dsimp only
      rw [hdrop]
      have hlengthv : v.partitionPointUsedCount = ps.length := by rw [hv]; rfl
      have hsafev : v.partitionPointSafeToOutputCount = t.partitionPointSafeToOutputCount := by
        rw [hv]
        rfl
      have hdirection : v.playDirection = t.playDirection := by rw [hv]; rfl
      have hcount : t.partitionPointUsedCount = t.partitionPoints.length := rfl
      obtain ⟨h1, h2, h3, h4, h5, h6, h7⟩ := ih (t := v) (by rw [hv]; exact hplaced)
        (by rw [hv]; exact hspaced) (by rw [hv]; exact hindexed) (by omega)
      exact ⟨h1, h2, h3, h4.trans hdirection, h5.trans hsafev, by omega, by omega⟩
    · exact ⟨hp, hs, hi, rfl, rfl, hsafe, le_rfl⟩

theorem discardAccumulatedData_frame (t : Table) :
    t.discardAccumulatedData.playDirection = t.playDirection ∧
      t.discardAccumulatedData.partitionPointUsedCount ≤ t.partitionPointUsedCount := by
  have hloop : ∀ (count : ℕ) (t : Table), (discardPartitions count t).playDirection = t.playDirection ∧
      (discardPartitions count t).partitionPointUsedCount ≤ t.partitionPointUsedCount := by
    intro count
    induction count with
    | zero => exact fun t => ⟨rfl, le_rfl⟩
    | succ count ih =>
      intro t
      unfold discardPartitions
      split
      · obtain ⟨hdirection, hcount⟩ := ih { t.emptyCurrentPartition with
          partitionPoints := t.emptyCurrentPartition.partitionPoints.dropLast
          nextPartition := t.emptyCurrentPartition.partitionPoints.getLast?.getD
            t.emptyCurrentPartition.nextPartition }
        refine ⟨hdirection, hcount.trans ?_⟩
        change t.partitionPoints.dropLast.length ≤ t.partitionPoints.length
        rw [List.length_dropLast]
        exact Nat.sub_le ..
      · exact ⟨rfl, le_rfl⟩
  exact hloop t.partitionPoints.length t

/-- **Discarding**: it keeps the table. -/
theorem discardAccumulatedData_sound (h : t.Sound env) : t.discardAccumulatedData.Sound env := by
  obtain ⟨hp, hs, hi, hd, hsafe, hle, hcount⟩ :=
    discardPartitions_spec h.placed h.spaced h.indexed
      h.counted.safe_le
  refine dumpCurrentPartition_sound ⟨⟨hp.stop_lt, hp.used_le, hp.chain, hp.sizes⟩, hs,
    ⟨hi.listed, hi.index_le, hi.quiet⟩, ⟨?_, ?_, lt_of_le_of_lt hcount h.counted.used_lt, fun _ => ?_⟩⟩
  · exact hsafe ▸ hle
  · exact hsafe ▸ hle
  · exact le_rfl

theorem initializePartition_turned (h : t.Sound env) (hcount : t.partitionPointUsedCount = 0)
    (hsize : t.nextPartition.partitionSize = 0)
    (hindex : t.nextPartition.startCodeListIndex = t.nextWriteInStartCodeList)
    (direction : PlayDirection) :
    ({ t with playDirection := direction } : Table).initializePartition.Sound env := by
  have hpoints : t.partitionPoints = [] := List.length_eq_zero_iff.mp hcount
  have hstop := h.placed.stop_lt
  have hsizes := h.placed.sizes
  have hsafe := h.counted.safe_le
  have hmarker := h.counted.marker_le
  rw [Span.stop_eq] at hstop
  rw [hpoints, hsize, extent_nil] at hsizes
  refine ⟨⟨h.placed.stop_lt, h.placed.used_le, ?_, ?_⟩, h.spaced, ⟨?_, le_rfl, h.indexed.quiet⟩,
    ⟨h.counted.safe_le, h.counted.marker_le, h.counted.used_lt, fun _ => ?_⟩⟩
  · simp only [initializePartition, hpoints, ← hsizes]
    cases direction with
    | playForward =>
      have hnew := wrap_of_lt (z := t.codedFrameBuffer.base) (by omega) (by omega)
      simp only [Chain, origin, PartitionPoint.near, if_true, Nat.cast_zero, add_zero]
      omega
    | playBackward =>
      have hnew := wrap_of_lt (z := t.codedFrameBuffer.base + t.codedFrameBuffer.size)
        (by omega) (by omega)
      simp only [Chain, origin, PartitionPoint.near, reduceCtorEq, if_false, Nat.cast_zero,
        add_zero, sub_zero, Span.stop_eq]
      omega
  · simp only [initializePartition, hpoints, extent_nil]
    omega
  · have hlisted := h.indexed.listed
    rw [hindex] at hlisted
    exact hlisted
  · change t.partitionPointSafeToOutputCount ≤ t.partitionPointMarkerCount
    omega

/-- **Switching the direction**: a partition that is given up must not have start codes. -/
theorem switchDirection_sound (h : t.Sound env) {direction : PlayDirection}
    (hindex : t.playDirection ≠ direction → t.directionChangeAccepted = true →
      t.nextPartition.startCodeListIndex = t.nextWriteInStartCodeList) :
    (t.switchDirection direction).2.Sound env := by
  unfold switchDirection
  split
  · exact h
  next hd =>
    split
    next haccepted =>
      have hempty := haccepted
      simp only [directionChangeAccepted, Bool.and_eq_true, beq_iff_eq] at hempty
      exact initializePartition_turned h hempty.1 hempty.2 (hindex hd haccepted) direction
    · exact h

theorem annotate_sound (h : t.Sound env) (index : ℕ) (f : Marks → Marks) :
    (t.annotate index f).Sound env := by
  have hlength : (t.annotate index f).partitionPointUsedCount = t.partitionPointUsedCount :=
    List.length_modify ..
  have hnext : ∃ m, (t.annotate index f).nextPartition = { t.nextPartition with marks := m } := by
    simp only [annotate]
    split
    · exact ⟨_, rfl⟩
    · exact ⟨t.nextPartition.marks, rfl⟩
  obtain ⟨m, hnext⟩ := hnext
  refine ⟨⟨h.placed.stop_lt, h.placed.used_le, ?_, ?_⟩, h.spaced, ⟨?_, ?_, h.indexed.quiet⟩,
    ⟨?_, ?_, ?_, h.counted.safe_le_marker⟩⟩
  · rw [hnext]
    exact h.placed.chain.modify index f
  · rw [hnext]
    change extent (t.partitionPoints.modify index _) + t.nextPartition.partitionSize = _
    rw [extent_modify]
    exact h.placed.sizes
  · rw [hnext]
    exact h.indexed.listed.modify index f
  · rw [hnext]
    exact h.indexed.index_le
  · rw [hlength]
    exact h.counted.safe_le
  · rw [hlength]
    exact h.counted.marker_le
  · rw [hlength]
    exact h.counted.used_lt

end

end Table

end Player2.Reversible

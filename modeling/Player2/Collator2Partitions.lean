import Player2.Collator2Input
import Player2.Collator2Layout
import Player2.Run

/-! # The partition table over runs of calls

`Table.Partitioned` is what the partition table should be like between calls.  It is kept by all
operations that are `Clear` of five slips of the code:

* in forward play the marker is not kept, and output takes more from it than it holds;
* a partition that a flush closes, or that ends in reverse play, is not checked to fit the table;
* the bytes of a start code that spans two chunks are taken to be in the partition when there was
  no room for them, and the header is then taken off a partition that does not have it;
* a change of direction forgets the start codes of a partition without bytes;
* an empty buffer is released before a new one is asked for, which may be refused.

In forward play the check at the beginning of a round makes room in the table for the one partition
that the round may close (`along_processInput_forward`). -/

namespace Player2.Reversible

open Collator2 (maximumPartitionPoints)
open Tiling (Span)
open Program (AtMost)

/-! ### The table between calls -/

namespace Table

/-- The used partitions and the current one. -/
def partitions (t : Table) : List PartitionPoint := t.partitionPoints ++ [t.nextPartition]

/-- The partition table is in order: the buffer is held, and used and free space are the whole of it; the
partitions lie side by side from its fixed end on, apart from each other and inside it, and are the used space; the
counters lie in the table; the start codes of the partitions follow each other in the list. -/
structure Partitioned (t : Table) : Prop where
  held : t.codedFrameBufferHeld = true
  space : t.codedFrameBufferUsedSpace + t.codedFrameBufferFreeSpace = t.codedFrameBuffer.size
  contiguous : Chain t.playDirection t.origin t.partitions (t.nextPartition.far t.playDirection)
  disjoint : t.partitions.Pairwise fun p q =>
    p.partitionBase + p.partitionSize ≤ q.partitionBase ∨
      q.partitionBase + q.partitionSize ≤ p.partitionBase
  inside : ∀ p ∈ t.partitions, t.codedFrameBuffer.base ≤ p.partitionBase ∧
    p.partitionBase + p.partitionSize ≤ t.codedFrameBuffer.stop
  sizes : extent t.partitions = t.codedFrameBufferUsedSpace
  safe_le : t.partitionPointSafeToOutputCount ≤ t.partitionPointUsedCount
  marker_le : t.partitionPointMarkerCount ≤ t.partitionPointUsedCount
  used_lt : t.partitionPointUsedCount < maximumPartitionPoints
  listed : Listed t.nextReadInStartCodeList t.partitionPoints t.nextPartition.startCodeListIndex
  index_le : t.nextPartition.startCodeListIndex ≤ t.nextWriteInStartCodeList

end Table

section
variable {ps : List PartitionPoint} {a b : ℕ}

theorem Chain.insideForward (h : Chain .playForward a ps b) :
    ∀ p ∈ ps, a ≤ p.partitionBase ∧ p.partitionBase + p.partitionSize ≤ b := by
  induction ps generalizing a with
  | nil => exact fun p hp => absurd hp List.not_mem_nil
  | cons p ps ih =>
    have hnear : p.partitionBase = a := h.1
    have hrest : Chain .playForward (p.partitionBase + p.partitionSize) ps b := h.2
    have hb := hrest.forward
    intro q hq
    rcases List.mem_cons.mp hq with rfl | hq
    · omega
    · have := ih hrest q hq
      omega

theorem Chain.insideBackward (h : Chain .playBackward a ps b) :
    ∀ p ∈ ps, b ≤ p.partitionBase ∧ p.partitionBase + p.partitionSize ≤ a := by
  induction ps generalizing a with
  | nil => exact fun p hp => absurd hp List.not_mem_nil
  | cons p ps ih =>
    have hnear : p.partitionBase + p.partitionSize = a := h.1
    have hrest : Chain .playBackward p.partitionBase ps b := h.2
    have hb := hrest.backward
    intro q hq
    rcases List.mem_cons.mp hq with rfl | hq
    · omega
    · have := ih hrest q hq
      omega

theorem Chain.disjoint {d : PlayDirection} (h : Chain d a ps b) : ps.Pairwise fun p q =>
    p.partitionBase + p.partitionSize ≤ q.partitionBase ∨
      q.partitionBase + q.partitionSize ≤ p.partitionBase := by
  induction ps generalizing a with
  | nil => exact .nil
  | cons p ps ih =>
    refine .cons (fun q hq => ?_) (ih h.2)
    cases d with
    | playForward => exact .inl (Chain.insideForward h.2 q hq).1
    | playBackward => exact .inr (Chain.insideBackward h.2 q hq).2

end

namespace Table

theorem Sound.partitioned {env : Base} {t : Table} (h : t.Sound env) : t.Partitioned := by
  have hchain : Chain t.playDirection t.origin t.partitions
      (t.nextPartition.far t.playDirection) := chain_append.mpr ⟨h.placed.chain, rfl⟩
  have hused := h.placed.used_le
  have hsizes : extent t.partitions = t.codedFrameBufferUsedSpace := by
    rw [← h.placed.sizes, partitions, extent_append, extent_cons, extent_nil, Nat.add_zero]
  refine ⟨h.spaced.1, h.spaced.2, hchain, hchain.disjoint, ?_, hsizes, h.counted.safe_le, h.counted.marker_le,
    h.counted.used_lt, h.indexed.listed, h.indexed.index_le⟩
  intro p hp
  rw [Span.stop_eq]
  cases hd : t.playDirection with
  | playForward =>
    rw [hd, origin, if_pos hd] at hchain
    have hinside := hchain.insideForward p hp
    have hfar := hchain.forward
    omega
  | playBackward =>
    rw [hd, origin, hd, if_neg (by decide), Span.stop_eq] at hchain
    have hinside := hchain.insideBackward p hp
    have hfar := hchain.backward
    omega

theorem start_sound (env : Base) (memory : ℕ → UInt8) {buffer : Span} (h : buffer.stop < 2 ^ 32) :
    (start memory buffer).Sound env := by
  have hstop := h
  rw [Span.stop_eq] at hstop
  have hbase := wrap_of_lt (z := buffer.base) (by omega) (by omega)
  refine ⟨⟨h, Nat.zero_le _, ?_, rfl⟩, ⟨rfl, Nat.zero_add _⟩, ⟨rfl, le_rfl, fun _ => rfl⟩,
    ⟨le_rfl, le_rfl, Nat.succ_pos 63, fun _ => le_rfl⟩⟩
  simp only [start, initializePartition, origin, Chain, PartitionPoint.near, if_true, Nat.cast_zero,
    add_zero]
  omega

end Table

/-! ### Operations -/

namespace Operation

variable {σ : Type} {env : Base} {t : Table} {s : Collator σ} {o : Operation σ}

/-- The operation is clear of the slips that do not concern the size of the table. -/
def Clear (env : Base) (t : Table) : Operation σ → Prop
  | .windBack bytes => bytes ≤ t.nextPartition.partitionSize
  | .accumulateData bytes => t.DataClear env bytes.length
  | .accumulateOnePartition => t.discarded.TerminalClear env
  | .partitionOutput => t.OutputClear env
  | _ => True

/-- If the operation closes a partition, there is room for it in the table. -/
def Fits (t : Table) : Operation σ → Prop
  | .accumulateOnePartition =>
    t.discarded.hasPartition = true → t.partitionPointUsedCount + 1 < maximumPartitionPoints
  | _ => True

instance (env : Base) (t : Table) : (o : Operation σ) → Decidable (o.Clear env t)
  | .windBack bytes => inferInstanceAs (Decidable (bytes ≤ t.nextPartition.partitionSize))
  | .accumulateData bytes => inferInstanceAs (Decidable (t.DataClear env bytes.length))
  | .accumulateOnePartition => inferInstanceAs (Decidable (t.discarded.TerminalClear env))
  | .partitionOutput => inferInstanceAs (Decidable (t.OutputClear env))
  | .emptyCurrentPartition | .dumpCurrentPartition | .accumulateStartCode _
  | .discardAccumulatedData | .allSafeToOutput | .noneSafeToOutput | .markedSafeToOutput
  | .markUsed | .discarding _ | .nonBlocking _ | .annotate .. | .note _ => isTrue trivial

instance (t : Table) : (o : Operation σ) → Decidable (o.Fits t)
  | .accumulateOnePartition => inferInstanceAs (Decidable (_ → _))
  | .windBack _ | .accumulateData _ | .partitionOutput | .emptyCurrentPartition
  | .dumpCurrentPartition | .accumulateStartCode _ | .discardAccumulatedData | .allSafeToOutput
  | .noneSafeToOutput | .markedSafeToOutput | .markUsed | .discarding _ | .nonBlocking _
  | .annotate .. | .note _ => isTrue trivial

/-- The operation is one of forward play, and takes place there. -/
def Suits (t : Table) : Operation σ → Prop
  | .allSafeToOutput => t.playDirection = .playForward
  | _ => True

theorem apply_sound (h : t.Sound env) (hclear : o.Clear env t) (hfits : o.Fits t)
    (hsuits : o.Suits t) : (o.apply env t).2.Sound env := by
  cases o with
  | emptyCurrentPartition => exact Table.emptyCurrentPartition_sound h
  | dumpCurrentPartition => exact Table.dumpCurrentPartition_sound h
  | windBack bytes =>
    exact Table.move_sound h (neg_le_neg (Int.ofNat_le.mpr hclear))
      (le_trans (neg_nonpos.mpr (Int.natCast_nonneg _)) (Int.natCast_nonneg _))
  | accumulateData bytes => exact Table.accumulateData_sound h hclear
  | accumulateStartCode code => exact Table.accumulateStartCode_sound h
  | accumulateOnePartition => exact Table.accumulateOnePartition_sound h hclear hfits
  | partitionOutput => exact Table.partitionOutput_sound h.placed h.spaced.1 h.indexed h.counted hclear
  | discardAccumulatedData => exact Table.discardAccumulatedData_sound h
  | allSafeToOutput =>
    refine ⟨⟨h.placed.stop_lt, h.placed.used_le, h.placed.chain, h.placed.sizes⟩, h.spaced,
      ⟨h.indexed.listed, h.indexed.index_le, h.indexed.quiet⟩,
      ⟨le_rfl, h.counted.marker_le, h.counted.used_lt, fun hback => ?_⟩⟩
    cases hsuits.symm.trans hback
  | noneSafeToOutput =>
    exact ⟨⟨h.placed.stop_lt, h.placed.used_le, h.placed.chain, h.placed.sizes⟩, h.spaced,
      ⟨h.indexed.listed, h.indexed.index_le, h.indexed.quiet⟩,
      ⟨Nat.zero_le _, h.counted.marker_le, h.counted.used_lt, fun _ => Nat.zero_le _⟩⟩
  | markedSafeToOutput =>
    exact ⟨⟨h.placed.stop_lt, h.placed.used_le, h.placed.chain, h.placed.sizes⟩, h.spaced,
      ⟨h.indexed.listed, h.indexed.index_le, h.indexed.quiet⟩,
      ⟨h.counted.marker_le, h.counted.marker_le, h.counted.used_lt, fun _ => le_rfl⟩⟩
  | markUsed =>
    exact ⟨⟨h.placed.stop_lt, h.placed.used_le, h.placed.chain, h.placed.sizes⟩, h.spaced,
      ⟨h.indexed.listed, h.indexed.index_le, h.indexed.quiet⟩,
      ⟨h.counted.safe_le, le_rfl, h.counted.used_lt, fun _ => h.counted.safe_le⟩⟩
  | discarding value => exact h.frame t.memory value t.nonBlockingInput
  | nonBlocking value => exact h.frame t.memory t.discardingData value
  | annotate index f => exact Table.annotate_sound h index f
  | note f => exact h

theorem apply_playDirection : (o.apply env t).2.playDirection = t.playDirection := by
  cases o with
  | accumulateData bytes => exact (Table.accumulateData_frame t bytes).1
  | accumulateStartCode code =>
    simp only [apply, Table.accumulateStartCode]
    split
    · rfl
    · split <;> rfl
  | accumulateOnePartition => exact (Table.accumulateOnePartition_frame t).1
  | partitionOutput => exact (Table.partitionOutput_frame t).1
  | discardAccumulatedData => exact (Table.discardAccumulatedData_frame t).1
  | _ => rfl

/-- The operation may close a partition. -/
def Closes : Operation σ → Prop
  | .accumulateOnePartition => True
  | _ => False

instance : DecidablePred (Closes (σ := σ))
  | .accumulateOnePartition => inferInstanceAs (Decidable True)
  | .emptyCurrentPartition | .dumpCurrentPartition | .windBack .. | .accumulateData ..
  | .accumulateStartCode .. | .partitionOutput | .discardAccumulatedData | .allSafeToOutput
  | .noneSafeToOutput | .markedSafeToOutput | .markUsed | .discarding .. | .nonBlocking ..
  | .annotate .. | .note .. => inferInstanceAs (Decidable False)

theorem apply_partitionPointUsedCount : (o.apply env t).2.partitionPointUsedCount ≤
    t.partitionPointUsedCount + if o.Closes then 1 else 0 := by
  cases o with
  | accumulateData bytes => exact (Table.accumulateData_frame t bytes).2
  | accumulateStartCode code =>
    simp only [apply, Table.accumulateStartCode]
    split
    · exact le_rfl
    · split <;> exact le_rfl
  | accumulateOnePartition => exact (Table.accumulateOnePartition_frame t).2
  | partitionOutput => exact (Table.partitionOutput_frame t).2
  | discardAccumulatedData => exact (Table.discardAccumulatedData_frame t).2
  | annotate index f => exact (List.length_modify ..).le
  | _ => exact le_rfl

/-- The operations that the routines are counted for. -/
def Rare (o : Operation σ) : Prop := o = .accumulateOnePartition ∨ o = .allSafeToOutput

end Operation

/-! ### The operations of the routines -/

section
variable {σ : Type} {Q : Operation σ → Prop} {n : ℕ}

theorem atMost_op {o : Operation σ} (hQ : ∀ o, Q o → o.Rare) (ho : ¬ o.Rare) :
    AtMost Q n (Program.op o : Routine σ Collator2.CollatorStatus) := .op fun h => ho (hQ o h)

theorem atMost_note (hQ : ∀ o, Q o → o.Rare) (f : Scan σ → Scan σ) : AtMost Q n (note f) :=
  .bind_right (atMost_op hQ (by simp [Operation.Rare])) fun _ => .done _ _

theorem atMost_annotateNext (hQ : ∀ o, Q o → o.Rare) (f : Marks → Marks) :
    AtMost Q n (annotateNext (σ := σ) f) :=
  .bind_right .state fun _ =>
    .bind_right (atMost_op hQ (by simp [Operation.Rare])) fun _ => .done _ _

theorem atMost_readPesHeader (hQ : ∀ o, Q o → o.Rare) (env : Setting σ) (address : ℕ) :
    AtMost Q n (readPesHeader env address) :=
  .bind_right .state fun _ => .bind_right (atMost_note hQ _) fun _ => .done _ _

theorem atMost_onlyIf {c : Prop} {_ : Decidable c} {p : Routine σ Unit} (hp : AtMost Q n p) :
    AtMost Q n (onlyIf c p) := .ite hp (.done _ _)

theorem atMost_discarding (hQ : ∀ o, Q o → o.Rare) (value : Bool) :
    AtMost Q n (discarding (σ := σ) value) :=
  .bind_right (atMost_op hQ (by simp [Operation.Rare])) fun _ => .done _ _

theorem atMost_accumulateRest (hQ : ∀ o, Q o → o.Rare) (env : Setting σ) :
    AtMost Q n (accumulateRest env) := by
  refine .bind_right .state fun s => ?_
  refine .bind_right (atMost_op hQ (by simp [Operation.Rare])) fun status => ?_
  refine .bind_right (atMost_onlyIf (atMost_note hQ _)) fun _ => ?_
  exact .bind_right (atMost_onlyIf (atMost_discarding hQ _)) fun _ => .done _ _

end

/-! ### Forward play closes one partition in a round -/

section
variable {σ : Type} {n : ℕ} (env : Setting σ)

theorem Operation.rare_of_closes (o : Operation σ) (h : o.Closes) : o.Rare := by
  cases o <;> simp [Operation.Closes, Operation.Rare] at h ⊢

theorem closes_op {o : Operation σ} (ho : ¬ o.Closes) :
    AtMost Operation.Closes n (Program.op o : Routine σ Collator2.CollatorStatus) := .op ho

theorem accumulateOnePartition_closes :
    AtMost (Operation.Closes (σ := σ)) 1 accumulateOnePartition := by
  have hQ := Operation.rare_of_closes (σ := σ)
  refine .bind_left .op_one fun _ => ?_
  refine .bind_right (atMost_discarding hQ _) fun _ => ?_
  refine .bind_right (atMost_note hQ _) fun _ => .bind_right .state fun s => ?_
  refine .ite ?_ ?_
  · exact .bind_right (atMost_annotateNext hQ _) fun _ => atMost_note hQ _
  · exact .bind_right (atMost_annotateNext hQ _) fun _ => atMost_note hQ _

theorem blockTerminate_closes (stored : ℕ) :
    AtMost (Operation.Closes (σ := σ)) 1 (blockTerminate stored) := by
  have hQ := Operation.rare_of_closes (σ := σ)
  refine .bind_right .state fun s => .bind_right (closes_op not_false) fun _ => ?_
  refine .bind_left accumulateOnePartition_closes fun _ => ?_
  refine .bind_right (closes_op not_false) fun _ => .bind_right (closes_op not_false) fun _ => ?_
  exact atMost_discarding hQ _

theorem ensureFrameRoom_closes : AtMost (Operation.Closes (σ := σ)) n ensureFrameRoom := by
  refine .bind_right .state fun s => .ite ?_ (.done _ _)
  exact .bind_right (closes_op not_false) fun _ => .done _ _

theorem genericHeader_closes (stored : ℕ) :
    AtMost Operation.Closes 1 (genericHeader env stored) := by
  have hQ := Operation.rare_of_closes (σ := σ)
  refine .bind_right .state fun s => ?_
  refine .bind_right (atMost_annotateNext hQ _) fun _ => .bind_right (atMost_note hQ _) fun _ => ?_
  refine .bind_left (atMost_onlyIf (blockTerminate_closes stored)) fun _ => ?_
  refine .bind_right .state fun s => .bind_right (closes_op not_false) fun status => ?_
  refine .ite (.bind_right (closes_op not_false) fun _ => .done _ _) (.ite ?_ (.done _ _))
  exact ensureFrameRoom_closes

theorem pesHeader_closes (stored : ℕ) : AtMost Operation.Closes n (pesHeader env stored) := by
  have hQ := Operation.rare_of_closes (σ := σ)
  refine .bind_right .state fun s => .bind_right (atMost_discarding hQ _) fun _ => ?_
  refine .bind_right (atMost_note hQ _) fun _ => .bind_right (closes_op not_false) fun _ => ?_
  refine .bind_right (atMost_readPesHeader hQ env stored) fun status => .ite (.done _ _) ?_
  refine .bind_right ?_ fun _ => .done _ _
  refine .bind_right .state fun s => atMost_onlyIf ?_
  exact .bind_right (atMost_annotateNext hQ _) fun _ => atMost_note hQ _

theorem completeHeader_closes : AtMost Operation.Closes 1 (completeHeader env) := by
  have hQ := Operation.rare_of_closes (σ := σ)
  refine .bind_right .state fun s => ?_
  split
  · exact .bind_right .state fun s => .bind_right (atMost_note hQ _) fun _ => .done _ _
  · refine .bind_right (atMost_note hQ _) fun _ => .ite (.done _ _) ?_
    exact pesHeader_closes env _
  · refine .bind_right (atMost_note hQ _) fun _ => ?_
    exact .bind_right (closes_op not_false) fun _ => .done _ _
  · exact genericHeader_closes env _

theorem extendHeader_closes : AtMost Operation.Closes 1 (extendHeader env) := by
  have hQ := Operation.rare_of_closes (σ := σ)
  refine .bind_right .state fun s => .ite ?_ (completeHeader_closes env)
  refine .bind_right (closes_op not_false) fun status => .ite ?_ ?_
  · refine .bind_right (closes_op not_false) fun _ => .bind_right (atMost_note hQ _) fun _ => ?_
    exact .bind_right (atMost_discarding hQ _) fun _ => .done _ _
  · refine .bind_right (atMost_note hQ _) fun _ => .ite (completeHeader_closes env) (.done _ _)

theorem processCode_closes : AtMost Operation.Closes n (processCode env) := by
  have hQ := Operation.rare_of_closes (σ := σ)
  refine .bind_right ?_ fun _ => .done _ _
  refine .bind_right .state fun s => .bind_right (atMost_note hQ _) fun _ => ?_
  refine .ite (atMost_note hQ _) (.ite (.ite (atMost_note hQ _) ?_) ?_)
  · exact .bind_right (atMost_note hQ _) fun _ => atMost_discarding hQ _
  · refine .ite (atMost_note hQ _) (.ite ?_ (atMost_note hQ _))
    exact .bind_right (atMost_note hQ _) fun _ => .bind_right (closes_op not_false) fun _ => .done _ _

theorem searchCode_closes : AtMost Operation.Closes n (searchCode env) := by
  have hQ := Operation.rare_of_closes (σ := σ)
  refine .bind_right (atMost_note hQ _) fun _ => .bind_right (atMost_note hQ _) fun _ => ?_
  refine .bind_right .state fun s => ?_
  split
  · exact atMost_accumulateRest hQ env
  · refine .bind_right (closes_op not_false) fun status => .ite ?_ ?_
    · exact .bind_right (atMost_onlyIf (atMost_discarding hQ _)) fun _ => .done _ _
    · exact .bind_right (atMost_note hQ _) fun _ => processCode_closes env

theorem scanForward_closes : AtMost Operation.Closes n (scanForward env) := by
  have hQ := Operation.rare_of_closes (σ := σ)
  refine .bind_right .state fun s => .bind_right (atMost_note hQ _) fun _ => .ite (.done _ _) ?_
  refine .bind_right .state fun s => .bind_right (atMost_note hQ _) fun _ => .ite ?_ ?_
  · refine .bind_right (closes_op not_false) fun _ => .bind_right (atMost_note hQ _) fun _ => ?_
    exact processCode_closes env
  · exact searchCode_closes env

end

/-! ### Only forward play makes all partitions safe to output -/

section
variable {σ : Type} {n : ℕ} (env : Setting σ)

/-- The operation makes all partitions safe to output. -/
def Operation.Releases : Operation σ → Prop
  | .allSafeToOutput => True
  | _ => False

theorem Operation.rare_of_releases (o : Operation σ) (h : o.Releases) : o.Rare := by
  cases o <;> simp [Operation.Releases, Operation.Rare] at h ⊢

theorem releases_op {o : Operation σ} (ho : ¬ o.Releases) :
    AtMost Operation.Releases n (Program.op o : Routine σ Collator2.CollatorStatus) := .op ho

theorem accumulateOnePartition_releases :
    AtMost (Operation.Releases (σ := σ)) n accumulateOnePartition := by
  have hQ := Operation.rare_of_releases (σ := σ)
  refine .bind_right (releases_op not_false) fun _ => ?_
  refine .bind_right (atMost_discarding hQ _) fun _ => ?_
  refine .bind_right (atMost_note hQ _) fun _ => .bind_right .state fun s => ?_
  refine .ite ?_ ?_
  · exact .bind_right (atMost_annotateNext hQ _) fun _ => atMost_note hQ _
  · exact .bind_right (atMost_annotateNext hQ _) fun _ => atMost_note hQ _

theorem packetHeader_releases (code : UInt8) (status : Collator2.CollatorStatus) :
    AtMost Operation.Releases n (packetHeader env code status) := by
  have hQ := Operation.rare_of_releases (σ := σ)
  refine .bind_right .state fun s => .ite ?_ ?_
  · exact .bind_right (atMost_discarding hQ _) fun _ => .done _ _
  · refine .bind_right (atMost_discarding hQ _) fun _ => ?_
    refine .bind_right (atMost_readPesHeader hQ env _) fun status => .ite ?_ ?_
    · exact .bind_right (atMost_discarding hQ _) fun _ => .done _ _
    · refine .bind_right (releases_op not_false) fun _ => .bind_right ?_ fun _ => ?_
      · refine .bind_right .state fun s => atMost_onlyIf ?_
        refine .bind_right (atMost_annotateNext hQ _) fun _ => ?_
        exact .bind_right (releases_op not_false) fun _ => atMost_note hQ _
      · exact .bind_right (releases_op not_false) fun _ => .done _ _

theorem genericCode_releases (code : UInt8) :
    AtMost Operation.Releases n (genericCode env code) := by
  have hQ := Operation.rare_of_releases (σ := σ)
  refine .bind_right .state fun s => ?_
  refine .bind_right (releases_op not_false) fun status => .ite ?_ ?_
  · refine .bind_right (atMost_discarding hQ _) fun _ => ?_
    exact .bind_right (releases_op not_false) fun _ => .done _ _
  · refine .bind_right (atMost_note hQ _) fun _ => .bind_right (atMost_annotateNext hQ _) fun _ => ?_
    refine .ite ?_ (.done _ _)
    refine .bind_right (releases_op not_false) fun _ => ?_
    refine .bind_right (releases_op not_false) fun _ => ?_
    refine .bind_right accumulateOnePartition_releases fun _ => .bind_right .state fun s => ?_
    refine .ite ?_ (.done _ _)
    exact .bind_right (releases_op not_false) fun _ => .done _ _

theorem processPreviousCode_releases (accumulation : ℕ) :
    AtMost Operation.Releases n (processPreviousCode env accumulation) := by
  have hQ := Operation.rare_of_releases (σ := σ)
  refine .bind_right .state fun s => ?_
  refine .bind_right (releases_op not_false) fun status => .ite (.done _ _) ?_
  refine .bind_right (atMost_onlyIf (atMost_discarding hQ _)) fun _ => ?_
  refine .bind_right (atMost_note hQ _) fun _ => .bind_right .state fun s => .ite ?_ ?_
  · exact packetHeader_releases env _ _
  · exact genericCode_releases env _

theorem roundBackward_releases : AtMost Operation.Releases n (roundBackward env) := by
  have hQ := Operation.rare_of_releases (σ := σ)
  refine .bind_right ?_ fun status => .ite (.done _ _) ?_
  · refine .bind_right .state fun s => .ite ?_ (.done _ _)
    refine .bind_right (releases_op not_false) fun status => .ite (.done _ _) ?_
    exact .bind_right .state fun s => .done _ _
  · refine .bind_right .state fun s => .ite (processPreviousCode_releases env _) ?_
    split
    · exact atMost_accumulateRest hQ env
    · exact processPreviousCode_releases env _

theorem processInput_releases (rounds : ℕ) (status : Collator2.CollatorStatus) :
    AtMost Operation.Releases 0 (processInput env .playBackward rounds status) := by
  induction rounds generalizing status with
  | zero => exact .done _ _
  | succ rounds ih =>
    refine .bind_right .state fun s => .ite (.done _ _) ?_
    refine .bind_right (roundBackward_releases env) fun part => ?_
    cases part with
    | leave status => exact .done _ _
    | next status => exact ih status
    | proceed => exact ih .noError

theorem input_releases (rounds : ℕ) (descriptor : PesTimes) (nonBlocking : Bool)
    (data : List UInt8) :
    AtMost Operation.Releases 0 (input env .playBackward rounds descriptor nonBlocking data) := by
  have hQ := Operation.rare_of_releases (σ := σ)
  refine .bind_right ?_ fun status => .ite (.done _ _) ?_
  · refine .bind_right (.bind_right .state fun s => ?_) fun _ => ?_
    · exact .bind_right (releases_op not_false) fun _ => .done _ _
    · refine .bind_right (releases_op not_false) fun _ => .bind_right .state fun s => ?_
      exact .ite (releases_op not_false) (.done _ _)
  · refine .bind_right (atMost_note hQ _) fun _ => ?_
    refine .bind_right (processInput_releases env rounds .noError) fun result => ?_
    split
    · refine .bind_right (.bind_right .state fun s => ?_) fun status => .done _ _
      exact .ite (releases_op not_false) (.done _ _)
    · exact .done _ _

theorem frameFlush_releases : AtMost (Operation.Releases (σ := σ)) 0 frameFlush := by
  refine .bind_right accumulateOnePartition_releases fun _ => .bind_right .state fun s => ?_
  refine .bind_right (releases_op ?_) fun _ => ?_
  · split <;> exact not_false
  · refine .bind_right (releases_op not_false) fun _ => ?_
    refine .bind_right (releases_op not_false) fun _ => ?_
    refine .bind_right (releases_op not_false) fun status => ?_
    exact .bind_right (releases_op not_false) fun _ => .done _ _

theorem discardAccumulatedData_releases :
    AtMost (Operation.Releases (σ := σ)) 0 discardAccumulatedData := by
  have hQ := Operation.rare_of_releases (σ := σ)
  refine .bind_right (releases_op not_false) fun _ => ?_
  exact .bind_right (atMost_discarding hQ _) fun _ => .bind_right (atMost_note hQ _) fun _ => .done _ _

theorem routine_releases {c : Call} (hc : ∀ rounds descriptor nonBlocking data,
    c ≠ .input .playForward rounds descriptor nonBlocking data) :
    AtMost Operation.Releases 0 (c.routine env) := by
  have hQ := Operation.rare_of_releases (σ := σ)
  cases c with
  | input direction rounds descriptor nonBlocking data =>
    cases direction with
    | playForward => exact absurd rfl (hc rounds descriptor nonBlocking data)
    | playBackward => exact input_releases env rounds descriptor nonBlocking data
  | frameFlush => exact .bind_right frameFlush_releases fun _ => .done _ _
  | inputJump surplus continuous =>
    refine .bind_right ?_ fun _ => .done _ _
    refine .bind_right ?_ fun _ => ?_
    · exact .ite discardAccumulatedData_releases frameFlush_releases
    · refine .bind_right (atMost_note hQ _) fun _ => ?_
      refine .bind_right (atMost_annotateNext hQ _) fun _ => ?_
      exact .bind_right frameFlush_releases fun _ => .bind_right (atMost_note hQ _) fun _ => .done _ _
  | inputGlitch =>
    refine .bind_right ?_ fun _ => .done _ _
    refine .bind_right discardAccumulatedData_releases fun _ => ?_
    exact .bind_right (atMost_annotateNext hQ _) fun _ => .done _ _
  | discardAccumulatedData => exact .bind_right discardAccumulatedData_releases fun _ => .done _ _

end

/-! ### Runs -/

section
variable {σ : Type} (env : Setting σ)

/-- Every operation of a routine is clear of the slips that do not concern the size of the table;
where `checked`, a partition that is closed fits the table. -/
def Careful (checked : Prop) (s : Collator σ) (o : Operation σ) : Prop :=
  o.Clear env.toBase s.table ∧ (checked → o.Fits s.table)

instance (checked : Prop) [Decidable checked] (s : Collator σ) (o : Operation σ) :
    Decidable (Careful env checked s o) := inferInstanceAs (Decidable (_ ∧ (_ → _)))

/-- What an operation needs to keep the table in order. -/
def Keeps (s : Collator σ) (o : Operation σ) : Prop :=
  o.Clear env.toBase s.table ∧ o.Fits s.table ∧ o.Suits s.table

variable {env}

@[simp] theorem effect_table (o : Operation σ) (s : Collator σ) :
    (o.effect env.toBase s).2.table = (o.apply env.toBase s.table).2 := rfl

variable {s : Collator σ}

theorem runRoutine_sound {α : Type} {p : Routine σ α}
    (h : s.table.Sound env.toBase) (hp : p.Along (Operation.effect env.toBase) (Keeps env) s) :
    (p.run (Operation.effect env.toBase) s).2.table.Sound env.toBase :=
  Program.run_invariant (I := fun s => s.table.Sound env.toBase)
    (fun _ _ hs ho => Operation.apply_sound hs ho.1 ho.2.1 ho.2.2) h hp

theorem along_forward {α : Type} {P P' : Collator σ → Operation σ → Prop} {p : Routine σ α}
    (hs : s.table.playDirection = .playForward)
    (hP : ∀ s o, P s o → s.table.playDirection = .playForward → P' s o)
    (h : p.Along (Operation.effect env.toBase) P s) :
    p.Along (Operation.effect env.toBase) P' s := by
  refine Program.Along.of_atMost (Q := fun _ => False) (n := 0)
    (fun s => if s.table.playDirection = .playForward then 0 else 1) 0 (fun _ _ h => h.elim)
    (fun s o _ => ?_) (fun s o ho hsize _ => hP s o ho ?_) (.of_none fun _ => not_false) ?_ h
  · rw [effect_table, Operation.apply_playDirection]
  · by_contra hne
    simp [hne] at hsize
  · simp [hs]

theorem ensureRoom_run (h : (ensureRoom.run (Operation.effect env.toBase) s).1 = .noError) :
    (ensureRoom.run (Operation.effect env.toBase) s).2.table.partitionPointUsedCount + 1 <
      maximumPartitionPoints := by
  have hshort : ∀ t : Collator σ, t.short = false →
      t.table.partitionPointUsedCount + 1 < maximumPartitionPoints := by
    intro t ht
    simp only [Collator.short, Bool.or_eq_false_iff, decide_eq_false_iff_not] at ht
    omega
  revert h
  unfold ensureRoom
  simp only [Program.bind_eq, Program.run_state_bind]
  by_cases hs : s.short = true
  · simp only [hs, if_true, Program.run_op_bind]
    by_cases hstatus : (Operation.effect env.toBase .partitionOutput s).1 = .noError
    · simp only [hstatus, ne_eq, not_true_eq_false, if_false, Program.run_state_bind,
        Program.pure_eq, Program.run_done]
      intro h
      refine hshort _ ?_
      by_contra htrue
      simp [htrue] at h
    · simp only [hstatus, ne_eq, not_false_eq_true, if_true, Program.pure_eq, Program.run_done]
      exact False.elim
  · simp only [if_neg hs, Program.pure_eq, Program.run_done]
    exact fun _ => hshort s (by simpa using hs)

theorem careful_of_room {o : Operation σ} (h : Careful env False s o)
    (hroom : o.Closes → s.table.partitionPointUsedCount < maximumPartitionPoints - 1) :
    Careful env True s o := by
  refine ⟨h.1, fun _ => ?_⟩
  cases o with
  | accumulateOnePartition =>
    intro _
    have := hroom trivial
    omega
  | _ => trivial

theorem along_of_none {α : Type} {p : Routine σ α}
    (hp : AtMost Operation.Closes 0 p)
    (h : p.Along (Operation.effect env.toBase) (Careful env False) s) :
    p.Along (Operation.effect env.toBase) (Careful env True) s :=
  Program.Along.of_atMost (fun _ => 0) 0 (fun _ _ _ => Nat.zero_le _) (fun _ _ _ => le_rfl)
    (fun _ _ ho _ hq => careful_of_room ho fun hc => absurd (hq hc) (lt_irrefl 0)) hp le_rfl h

/-- A routine that closes one partition at most need not see to the size of the table, if there is
room for one. -/
theorem along_of_one {α : Type} {p : Routine σ α}
    (hp : AtMost Operation.Closes 1 p)
    (hroom : s.table.partitionPointUsedCount + 1 < maximumPartitionPoints)
    (h : p.Along (Operation.effect env.toBase) (Careful env False) s) :
    p.Along (Operation.effect env.toBase) (Careful env True) s := by
  refine Program.Along.of_atMost (fun s => s.table.partitionPointUsedCount)
    (maximumPartitionPoints - 1) (fun s o ho => ?_) (fun s o ho => ?_)
    (fun s o ho _ hq => careful_of_room ho hq) hp (by omega) h
  · have hcount : (o.apply env.toBase s.table).2.partitionPointUsedCount ≤
        s.table.partitionPointUsedCount + if o.Closes then 1 else 0 :=
      Operation.apply_partitionPointUsedCount
    rwa [if_pos ho] at hcount
  · have hcount : (o.apply env.toBase s.table).2.partitionPointUsedCount ≤
        s.table.partitionPointUsedCount + if o.Closes then 1 else 0 :=
      Operation.apply_partitionPointUsedCount
    rwa [if_neg ho] at hcount

theorem along_roundForward
    (h : (roundForward env).Along (Operation.effect env.toBase) (Careful env False) s) :
    (roundForward env).Along (Operation.effect env.toBase) (Careful env True) s := by
  unfold roundForward at h ⊢
  simp only [Program.bind_eq, Program.along_bind] at h ⊢
  refine ⟨along_of_none ?_ h.1, ?_⟩
  · refine .bind_right .state fun s => .ite ?_ (.done _ _)
    refine .bind_right (closes_op not_false) fun status => .ite (.done _ _) ?_
    exact .bind_right .state fun s => .done _ _
  · split at h
    next hleave =>
      rw [if_pos hleave]
      exact h.2
    next hroom =>
      rw [if_neg hroom]
      refine along_of_one ?_ (ensureRoom_run (by simpa using hroom)) h.2
      refine .bind_right .state fun s => .ite ?_ (scanForward_closes env)
      refine .bind_left (extendHeader_closes env) fun part => ?_
      cases part with
      | leave status => exact .done _ _
      | next status => exact .done _ _
      | proceed => exact .bind_right .state fun s => .ite (.done _ _) (scanForward_closes env)

variable {rounds : ℕ}

theorem along_processInput_forward {status : Collator2.CollatorStatus}
    (h : (processInput env .playForward rounds status).Along (Operation.effect env.toBase)
      (Careful env False) s) :
    (processInput env .playForward rounds status).Along (Operation.effect env.toBase)
      (Careful env True) s := by
  induction rounds generalizing status s with
  | zero => trivial
  | succ rounds ih =>
    by_cases hend : s.scan.remainingLength = 0
    · change Program.Along _ _ (if s.scan.remainingLength = 0 then _ else _) s
      rw [if_pos hend]
      trivial
    · change Program.Along _ _ (if s.scan.remainingLength = 0 then _ else _) s at h
      change Program.Along _ _ (if s.scan.remainingLength = 0 then _ else _) s
      rw [if_neg hend] at h ⊢
      simp only [Program.bind_eq, Program.along_bind] at h ⊢
      refine ⟨along_roundForward h.1, ?_⟩
      have hrest := h.2
      split at hrest
      · trivial
      · exact ih hrest
      · exact ih hrest

theorem along_input_forward {descriptor : PesTimes} {nonBlocking : Bool}
    {data : List UInt8}
    (h : (input env .playForward rounds descriptor nonBlocking data).Along
      (Operation.effect env.toBase) (Careful env False) s) :
    (input env .playForward rounds descriptor nonBlocking data).Along
      (Operation.effect env.toBase) (Careful env True) s := by
  have hQ := Operation.rare_of_closes (σ := σ)
  unfold input at h ⊢
  simp only [Program.bind_eq, Program.along_bind] at h ⊢
  refine ⟨along_of_none ?_ h.1, ?_⟩
  · refine .bind_right (atMost_annotateNext hQ _) fun _ => ?_
    refine .bind_right (closes_op not_false) fun _ => .bind_right .state fun s => ?_
    exact .ite (closes_op not_false) (.done _ _)
  · obtain ⟨-, hrest⟩ := h
    by_cases hfailed : ((inputEntry (σ := σ) descriptor nonBlocking).run
        (Operation.effect env.toBase) s).1 ≠ .noError
    · rw [if_pos hfailed]
      trivial
    · rw [if_neg hfailed] at hrest ⊢
      simp only [Program.along_bind] at hrest ⊢
      obtain ⟨hdata, hloop, hexit⟩ := hrest
      refine ⟨along_of_none (atMost_note hQ _) hdata, along_processInput_forward hloop,
        along_of_none ?_ hexit⟩
      split
      · refine .bind_right (.bind_right .state fun s => ?_) fun _ => .done _ _
        exact .ite (closes_op not_false) (.done _ _)
      · exact .done _ _

end

/-! ### The calls -/

section
variable {σ : Type} (env : Setting σ)

/-- The size of the table has to be seen to in the call; `Input` in forward play does it. -/
def Call.Unchecked : Call → Prop
  | .input .playForward .. => False
  | _ => True

instance : (c : Call) → Decidable c.Unchecked
  | .input .playForward .. => isFalse not_false
  | .input .playBackward .. | .frameFlush | .inputJump .. | .inputGlitch
  | .discardAccumulatedData => isTrue trivial

/-- A partition that the call gives up in a change of direction has no start codes. -/
def Call.TurnsClear (t : Table) : Call → Prop
  | .input direction .. => t.playDirection ≠ direction → t.directionChangeAccepted = true →
      t.nextPartition.startCodeListIndex = t.nextWriteInStartCodeList
  | _ => True

instance (t : Table) : (c : Call) → Decidable (c.TurnsClear t)
  | .input .. => inferInstanceAs (Decidable (_ → _ → _))
  | .frameFlush | .inputJump .. | .inputGlitch | .discardAccumulatedData => isTrue trivial

/-- **The condition on a call**: it is clear of the slips. -/
def Call.Clear (s : Collator σ) (c : Call) : Prop :=
  c.TurnsClear s.table ∧ ((c.enter s.table).1 = .noError →
    (c.routine env).Along (Operation.effect env.toBase) (Careful env c.Unchecked)
      ⟨(c.enter s.table).2, s.scan⟩)

instance (s : Collator σ) (c : Call) : Decidable (c.Clear env s) :=
  inferInstanceAs (Decidable (_ ∧ (_ → _)))

variable {env}

variable {c : Call}

theorem enter_sound {t : Table} (h : t.Sound env.toBase) (hturn : c.TurnsClear t) :
    (c.enter t).2.Sound env.toBase := by
  cases c with
  | input direction rounds descriptor nonBlocking data => exact Table.switchDirection_sound h hturn
  | _ => exact h

theorem along_keeps {s : Collator σ} (hc : c.Clear env s)
    (henter : (c.enter s.table).1 = .noError) :
    (c.routine env).Along (Operation.effect env.toBase) (Keeps env)
      ⟨(c.enter s.table).2, s.scan⟩ := by
  have halong := hc.2 henter
  by_cases hforward : ∃ rounds descriptor nonBlocking data,
      c = .input .playForward rounds descriptor nonBlocking data
  · obtain ⟨rounds, descriptor, nonBlocking, data, rfl⟩ := hforward
    have hdirection : ((Call.input .playForward rounds descriptor nonBlocking data).enter
        s.table).2.playDirection = .playForward := by
      simp only [Call.enter, Table.switchDirection] at henter ⊢
      split
      next hd => exact hd
      next hd =>
        rw [if_neg hd] at henter
        split
        · rfl
        next hrefused =>
          rw [if_neg hrefused] at henter
          cases henter
    refine along_forward hdirection (fun s o ho hd => ⟨ho.1, ho.2 trivial, ?_⟩)
      (along_input_forward halong)
    cases o with
    | allSafeToOutput => exact hd
    | _ => trivial
  · have hunchecked : c.Unchecked := by
      cases c with
      | input direction rounds descriptor nonBlocking data =>
        cases direction with
        | playForward => exact absurd ⟨rounds, descriptor, nonBlocking, data, rfl⟩ hforward
        | playBackward => trivial
      | _ => trivial
    have hnone := routine_releases env (c := c)
      fun rounds descriptor nonBlocking data h => hforward ⟨rounds, descriptor, nonBlocking, data, h⟩
    refine Program.Along.of_atMost (fun _ => 0) 0 (fun _ _ _ => Nat.zero_le _) (fun _ _ _ => le_rfl)
      (fun s o ho _ hq => ⟨ho.1, ho.2 hunchecked, ?_⟩) hnone le_rfl halong
    cases o with
    | allSafeToOutput => exact absurd (hq trivial) (lt_irrefl 0)
    | _ => trivial

/-- **One call**: it keeps the table in order if it is clear of the slips. -/
theorem step_sound {s s' : Collator σ} (h : s.table.Sound env.toBase)
    (hc : c.Clear env s) (hstep : step env s c = some s') : s'.table.Sound env.toBase := by
  unfold step at hstep
  dsimp only at hstep
  split at hstep
  · cases hstep
    exact h
  next henter =>
    have hrun := runRoutine_sound (s := ⟨(c.enter s.table).2, s.scan⟩) (enter_sound h hc.1)
      (along_keeps hc (not_not.mp henter))
    obtain ⟨result, -, rfl⟩ := Option.map_eq_some_iff.mp hstep
    exact hrun

end

/-- **The partition table**: after every call of a run whose calls are clear of the slips, the
table is in order. -/
theorem run_tablePartitioned {σ : Type} (env : Setting σ) (parser : σ) (memory : ℕ → UInt8)
    (buffer : Span) (hbuffer : buffer.stop < 2 ^ 32) (calls : List Call) (s : Collator σ)
    (hclear : Lts.Along (step env) (fun s c => Call.Clear env s c) (start parser memory buffer) calls)
    (hrun : Lts.run (step env) (start parser memory buffer) calls = some s) :
    s.table.Partitioned :=
  Table.Sound.partitioned (Lts.run_invariant_along (I := fun s => s.table.Sound env.toBase)
    (fun _ _ _ hs hc hstep => step_sound hs hc hstep)
    (Table.start_sound env.toBase memory hbuffer) hclear hrun)

/-! ### Two runs on a concrete setting -/

/-- A pool that always has buffers to spare and never moves one. -/
def amplePool : Pool where
  freeBuffers _ := 4
  largestFreeMemoryBlock _ := 0
  partitionBuffer _ := true
  extendBuffer _ _ b := b
  getBuffer _ _ := none
  extendBuffer_forward _ _ := rfl
  extendBuffer_backward _ _ := rfl
  extendBuffer_size _ _ _ := le_rfl
  extendBuffer_stop _ _ _ h := h
  getBuffer_size _ _ _ h := by cases h
  getBuffer_stop _ _ _ h := by cases h

/-- A setting in which sequence headers begin frames. -/
def sequenceSetting : Setting Unit where
  configuration :=
    { generateStartCodeList := true
      streamIdentifierMask := 0xff
      streamIdentifierCode := 0xe0
      subStreamIdentifierMask := 0
      subStreamIdentifierCode := 0
      ignoreCodesRangeStart := 2
      ignoreCodesRangeEnd := 1
      insertFrameTerminateCode := false
      terminalCode := 0 }
  maximumCodedFrameSize := 4096
  pool := amplePool
  frameParser :=
    { requiredPresentationLength := fun _ => 0
      presentCollatedHeader := fun _ code _ => (⟨code == 0xb3, false, false⟩, ())
      resetCollatedHeaderState := id }
  mapped := 4096 + 32
  outside _ := 0xff

/-- The first coded frame buffer. -/
def firstBuffer : Span := ⟨4096, 65536⟩

/-- A packet with two sequence headers: the second one outputs the frame of the first. -/
def twoSequenceHeaders : Call :=
  .input .playForward 10 ⟨none, none⟩ false
    [0, 0, 1, 0xe0, 0, 0, 0x80, 0, 0, 0, 0, 1, 0xb3, 0, 0, 1, 0xb3, 5]

/-- In forward play the marker is zero when the first frame is output, and wraps. -/
theorem not_run_tablePartitioned_two_sequence_headers :
    ¬ ∀ s, Lts.run (step sequenceSetting) (start () (fun _ => 0) firstBuffer) [twoSequenceHeaders] =
      some s → s.table.Partitioned := by
  intro h
  have hmarker : ∃ s, Lts.run (step sequenceSetting) (start () (fun _ => 0) firstBuffer)
      [twoSequenceHeaders] = some s ∧
      s.table.partitionPointUsedCount < s.table.partitionPointMarkerCount := by
    refine ⟨(Lts.run (step sequenceSetting) (start () (fun _ => 0) firstBuffer)
      [twoSequenceHeaders]).get (by decide +kernel), (Option.some_get _).symm, ?_⟩
    decide +kernel
  obtain ⟨s, hrun, hlt⟩ := hmarker
  exact absurd (h s hrun).marker_le (Nat.not_le.mpr hlt)

/-- A run through both directions of play and all the calls. -/
def bothDirections : List Call :=
  [.input .playForward 10 ⟨none, none⟩ false
      [0, 0, 1, 0xe0, 0, 0, 0x80, 0, 0, 0, 0, 1, 0xb3, 5],
    .frameFlush,
    .input .playForward 10 ⟨none, none⟩ true [0, 0, 1, 0xb3, 6],
    .discardAccumulatedData,
    .input .playBackward 10 ⟨none, none⟩ true [7, 0, 0, 1, 0xb3, 8],
    .input .playBackward 10 ⟨none, none⟩ true [9, 0, 0, 1, 0xb3, 8],
    .inputJump false true,
    .inputGlitch]

theorem run_tablePartitioned_both_directions :
    ∃ s, Lts.run (step sequenceSetting) (start () (fun _ => 0) firstBuffer) bothDirections = some s ∧
      s.table.Partitioned := by
  refine ⟨(Lts.run (step sequenceSetting) (start () (fun _ => 0) firstBuffer) bothDirections).get
    (by decide +kernel), (Option.some_get _).symm, ?_⟩
  exact run_tablePartitioned sequenceSetting () (fun _ => 0) firstBuffer (by decide) bothDirections _
    (by decide +kernel) (Option.some_get _).symm

end Player2.Reversible

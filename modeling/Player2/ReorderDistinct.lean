import Player2.ReorderPlaces

/-! # The indices of the frames

Every index belongs to one frame: to a buffer in the table or behind the reordering loop, or to a frame that
is recorded as not decoded, as long as it is there.  Nothing that the process or its surroundings do changes
that (`Distinct.step`). -/

namespace Player2.DecodeToManifest

namespace StageState

/-! ### Who has an index -/

/-- The buffers whose index may still count: the one behind the loop and the ones in the table. -/
def owners (s : StageState) : List Entry := s.hand ++ s.waiting

/-- How many records have an index. -/
def recorded (s : StageState) (j : ℕ) : ℕ :=
  (s.nonDecodedBuffers.reduceOption.map NonDecodedFrame.displayFrameIndex).count j

/-- The record has a valid index or none, and one when its buffer is released. -/
def RecordSound (r : NonDecodedFrame) : Prop :=
  r.displayFrameIndex ≤ invalidIndex ∧ (r.releasedBuffer = true → r.displayFrameIndex ≠ invalidIndex)

/-- Every record is sound. -/
def RecordsSound (records : List (Option NonDecodedFrame)) : Prop :=
  ∀ r ∈ records.reduceOption, RecordSound r

/-! ### The check of the records -/

/-- No index is recorded more often afterwards, and the one that is found once less. -/
theorem checkRecords_count (discarding : Bool) (desired j : ℕ) (records : List (Option NonDecodedFrame))
    (collapse : ℕ) :
    ((checkRecords discarding desired records collapse).records.reduceOption.map
        NonDecodedFrame.displayFrameIndex).count j +
      (if (checkRecords discarding desired records collapse).found = true ∧ j = desired then 1 else 0) ≤
    (records.reduceOption.map NonDecodedFrame.displayFrameIndex).count j := by
  induction records generalizing collapse with
  | nil =>
    exact Nat.le_of_eq rfl
  | cons slot rest ih =>
    cases slot with
    | none =>
      exact ih collapse
    | some r =>
      have hold : ((some r :: rest).reduceOption.map NonDecodedFrame.displayFrameIndex).count j =
          (rest.reduceOption.map NonDecodedFrame.displayFrameIndex).count j +
            if r.displayFrameIndex == j then 1 else 0 := by
        rw [List.reduceOption_cons_of_some, List.map_cons, List.count_cons]
      rw [hold]
      unfold checkRecords
      split
      next =>
        unfold Check.cons
        rw [List.reduceOption_cons_of_some, List.map_cons, List.count_cons]
        have hrest := ih collapse
        dsimp only at hrest ⊢
        omega
      next =>
        split
        next hfound =>
          rw [List.reduceOption_cons_of_none, hfound]
          by_cases hj : j = desired
          · refine Nat.le_of_eq ?_
            rw [hj, if_pos ⟨rfl, rfl⟩, if_pos (beq_self_eq_true _)]
          · rw [if_neg (fun h => hj h.2)]
            omega
        next =>
          have hrest := ih (collapseAfter discarding r collapse)
          split
          next =>
            unfold Check.cons
            exact Nat.le_trans hrest (Nat.le_add_right _ _)
          next =>
            unfold Check.cons
            rw [List.reduceOption_cons_of_some, List.map_cons, List.count_cons]
            dsimp only at hrest ⊢
            omega

variable {records : List (Option NonDecodedFrame)}

theorem RecordsSound.cons_none (h : RecordsSound records) :
    RecordsSound (none :: records) := by
  unfold RecordsSound
  exact h

variable {r : NonDecodedFrame}

theorem RecordsSound.cons_some
    (h : RecordsSound records) (hr : RecordSound r) : RecordsSound (some r :: records) := by
  unfold RecordsSound
  intro r' hr'
  rcases List.mem_cons.mp hr' with rfl | hmem
  · exact hr
  · exact h r' hmem

theorem RecordsSound.of_cons_none (h : RecordsSound (none :: records)) : RecordsSound records := by
  unfold RecordsSound at h
  exact h

theorem RecordsSound.of_cons_some
    (h : RecordsSound (some r :: records)) : RecordSound r ∧ RecordsSound records := by
  unfold RecordsSound at h
  exact ⟨h r List.mem_cons_self, fun r' hr' => h r' (List.mem_cons_of_mem _ hr')⟩

theorem collapseAfter_lt {collapse : ℕ} (discarding : Bool)
    (hr : r.displayFrameIndex < invalidIndex) (h : collapse < invalidIndex) :
    collapseAfter discarding r collapse < invalidIndex := by
  unfold collapseAfter
  split
  next => exact h
  next =>
    split
    next => exact Nat.max_lt.mpr ⟨h, hr⟩
    next => exact h

/-- What the check finds is a valid index, and what it leaves is sound. -/
structure Check.Sound (c : Check) (desired collapse : ℕ) : Prop where
  records : RecordsSound c.records
  found : c.found = true → desired < invalidIndex
  collapse : collapse < invalidIndex → c.collapse < invalidIndex

theorem checkRecords_sound (discarding : Bool) (desired : ℕ)
    (h : RecordsSound records) (collapse : ℕ) :
    (checkRecords discarding desired records collapse).Sound desired collapse := by
  induction records generalizing collapse with
  | nil =>
    exact ⟨h, fun hfound => (by cases hfound), id⟩
  | cons slot rest ih =>
    cases slot with
    | none =>
      have hrest := ih h.of_cons_none collapse
      exact ⟨hrest.records.cons_none, hrest.found, hrest.collapse⟩
    | some r =>
      obtain ⟨hr, htail⟩ := h.of_cons_some
      unfold checkRecords
      split
      next =>
        have hrest := ih htail collapse
        exact ⟨hrest.records.cons_some hr, hrest.found, hrest.collapse⟩
      next hindex =>
        -- a record that is looked at has an index, whether its buffer was released before or is now
        have hvalid : r.displayFrameIndex < invalidIndex := by
          refine Nat.lt_of_le_of_ne hr.1 fun hinvalid => ?_
          cases hreleased : r.releasedBuffer with
          | true => exact hr.2 hreleased hinvalid
          | false => exact hindex ⟨hreleased, hinvalid⟩
        have hcollapse : collapse < invalidIndex →
            collapseAfter discarding r collapse < invalidIndex := collapseAfter_lt discarding hvalid
        split
        next hdesired => exact ⟨htail.cons_none, fun _ => hdesired ▸ hvalid, hcollapse⟩
        next =>
          have hrest := ih htail (collapseAfter discarding r collapse)
          split
          next =>
            exact ⟨hrest.records.cons_none, hrest.found, hrest.collapse ∘ hcollapse⟩
          next =>
            have hrecord : RecordSound { r with releasedBuffer := true } :=
              ⟨hr.1, fun _ => Nat.ne_of_lt hvalid⟩
            exact ⟨hrest.records.cons_some hrecord, hrest.found, hrest.collapse ∘ hcollapse⟩

theorem check_count (s : StageState) (j : ℕ) :
    (s.check.records.reduceOption.map NonDecodedFrame.displayFrameIndex).count j +
      (if s.check.found = true ∧ j = s.desiredFrameIndex then 1 else 0) ≤ s.recorded j := by
  unfold check
  split
  next => exact Nat.le_of_eq rfl
  next => exact checkRecords_count ..

variable {s : StageState}

theorem check_sound (h : RecordsSound s.nonDecodedBuffers) :
    s.check.Sound s.desiredFrameIndex s.displayIndicesCollapse := by
  unfold check
  split
  next => exact ⟨h, fun hfound => (by cases hfound), id⟩
  next => exact checkRecords_sound _ _ h _

theorem RecordsSound.perm {rest : List NonDecodedFrame}
    (h : ∀ r' ∈ rest, RecordSound r') (hr : RecordSound r)
    (hperm : records.reduceOption.Perm (r :: rest)) : RecordsSound records := by
  intro r' hr'
  rcases List.mem_cons.mp (hperm.mem_iff.mp hr') with rfl | hmem
  · exact hr
  · exact h r' hmem

variable {index : ℕ}

theorem MayGive.le (h : s.MayGive index) : index ≤ invalidIndex := by
  rcases h with hinvalid | ⟨hvalid, -⟩
  · exact Nat.le_of_eq hinvalid
  · exact Nat.le_of_lt hvalid

theorem MayGive.sound (h : s.MayGive index) (collapse : Bool) :
    RecordSound ⟨index != invalidIndex, index, collapse⟩ :=
  ⟨h.le, fun hvalid => bne_iff_ne.mp hvalid⟩

theorem RecordSound.assign (hheld : r.releasedBuffer = false)
    (hvalid : index < invalidIndex) : RecordSound { r with displayFrameIndex := index } := by
  refine ⟨Nat.le_of_lt hvalid, fun hreleased => ?_⟩
  rw [hheld] at hreleased
  cases hreleased
theorem mem_giveOut {index j : ℕ} :
    j ∈ s.giveOut index ↔ j ∈ s.indices ∨ j = index ∧ index ≠ invalidIndex := by
  unfold giveOut
  split
  next hinvalid => exact ⟨.inl, fun h => h.resolve_right fun h => h.2 hinvalid⟩
  next hvalid =>
    rw [List.mem_cons]
    exact ⟨fun h => h.symm.imp_right fun h => ⟨h, hvalid⟩, fun h => (h.imp_right And.left).symm⟩

/-! ### One frame for one index -/

/-- The indices given out are valid, and no two frames have the same one. -/
structure Distinct (s : StageState) : Prop where
  known : ∀ j ∈ s.indices, j < invalidIndex
  nodup : (s.owners.map Entry.buffer).Nodup
  bound : ∀ e ∈ s.owners, e.buffer < s.arrivals.length
  given : ∀ e ∈ s.owners, s.index e = invalidIndex ∨ s.index e ∈ s.indices
  distinct : ∀ e ∈ s.owners, ∀ e' ∈ s.owners, s.index e ≠ invalidIndex → s.index e = s.index e' →
    e.buffer = e'.buffer
  once : ∀ j, j ≠ invalidIndex → s.recorded j ≤ 1
  separate : ∀ j, j ≠ invalidIndex → 0 < s.recorded j → j ∈ s.indices ∧ ∀ e ∈ s.owners, s.index e ≠ j
  sound : RecordsSound s.nonDecodedBuffers

section Distinct

variable {s t : StageState} {e : Entry}

theorem Distinct.le_invalid (h : s.Distinct) (he : e ∈ s.owners) : s.index e ≤ invalidIndex :=
  (h.given e he).elim Nat.le_of_eq fun hmem => Nat.le_of_lt (h.known _ hmem)

theorem Distinct.apart {e' : Entry} (h : s.Distinct) (he : e ∈ s.hand) (he' : e' ∈ s.waiting) :
    e.buffer ≠ e'.buffer := by
  have hnodup := h.nodup
  rw [owners, List.map_append, List.nodup_append] at hnodup
  exact hnodup.2.2 _ (List.mem_map_of_mem he) _ (List.mem_map_of_mem he')

/-- Buffers leave, and records are dropped. -/
theorem Distinct.shrink (h : s.Distinct) {l : List Entry} (howners : (l ++ t.owners).Perm s.owners)
    (hparameters : t.parameters = s.parameters) (hindices : t.indices = s.indices)
    (harrivals : t.arrivals = s.arrivals) (hrecorded : ∀ j, t.recorded j ≤ s.recorded j)
    (hsound : RecordsSound t.nonDecodedBuffers) : t.Distinct := by
  have hindex : t.index = s.index := by
    funext e
    unfold index
    rw [hparameters]
  have hmem : ∀ e ∈ t.owners, e ∈ s.owners := by
    exact fun e he => howners.mem_iff.mp (List.mem_append_right _ he)
  constructor
  case known => rw [hindices]; exact h.known
  case nodup =>
    have hnodup := (howners.map Entry.buffer).nodup_iff.mpr h.nodup
    rw [List.map_append] at hnodup
    exact hnodup.of_append_right
  case bound => rw [harrivals]; exact fun e he => h.bound e (hmem e he)
  case given => rw [hindex, hindices]; exact fun e he => h.given e (hmem e he)
  case distinct => rw [hindex]; exact fun e he e' he' => h.distinct e (hmem e he) e' (hmem e' he')
  case once => exact fun j hj => Nat.le_trans (hrecorded j) (h.once j hj)
  case separate =>
    rw [hindices, hindex]
    intro j hj hpos
    obtain ⟨hgiven, hother⟩ := h.separate j hj (Nat.lt_of_lt_of_le hpos (hrecorded j))
    exact ⟨hgiven, fun e he => hother e (hmem e he)⟩
  case sound => exact hsound

theorem Distinct.frame (h : s.Distinct) (hhand : t.hand = s.hand) (htable : t.table = s.table)
    (hparameters : t.parameters = s.parameters) (hindices : t.indices = s.indices)
    (harrivals : t.arrivals = s.arrivals) (hrecords : t.nonDecodedBuffers = s.nonDecodedBuffers) :
    t.Distinct := by
  refine h.shrink (l := []) ?_ hparameters hindices harrivals ?_ ?_
  · unfold owners waiting
    rw [hhand, htable]
    exact List.Perm.refl _
  · intro j
    unfold recorded
    rw [hrecords]
  · rw [hrecords]
    exact h.sound

/-! ### Arrivals -/

theorem arrive_index (a : Arrival) (he : e.buffer < s.arrivals.length) :
    (s.arrive a).index e = s.index e := by
  change (Function.update s.parameters s.arrivals.length a.parameters e.buffer).displayFrameIndex = _
  rw [Function.update_of_ne (Nat.ne_of_lt he)]
  rfl

theorem arrive_index_self (s : StageState) (a : Arrival) (sequenceNumber : ℕ) :
    (s.arrive a).index ⟨s.arrivals.length, sequenceNumber⟩ = a.parameters.displayFrameIndex := by
  change (Function.update s.parameters s.arrivals.length a.parameters
    s.arrivals.length).displayFrameIndex = _
  rw [Function.update_self]

theorem Distinct.arrive (h : s.Distinct) (a : Arrival) (hindex : s.MayGive a.parameters.displayFrameIndex) :
    (s.arrive a).Distinct := by
  have hold : ∀ e ∈ s.owners, (s.arrive a).index e = s.index e := fun e he => arrive_index a (h.bound e he)
  have hgiven : ∀ j, j ∈ s.indices → j ∈ (s.arrive a).indices := fun j hj => mem_giveOut.mpr (.inl hj)
  constructor
  case known =>
    intro j hj
    rcases mem_giveOut.mp hj with hmem | ⟨rfl, hvalid⟩
    · exact h.known j hmem
    · exact (hindex.resolve_left hvalid).1
  case nodup => exact h.nodup
  case bound =>
    intro e he
    have hlt := h.bound e he
    change e.buffer < (s.arrivals ++ [_]).length
    rw [List.length_append]
    omega
  case given =>
    intro e he
    rw [hold e he]
    exact (h.given e he).imp_right (hgiven _)
  case distinct =>
    intro e he e' he'
    rw [hold e he, hold e' he']
    exact h.distinct e he e' he'
  case once => exact h.once
  case separate =>
    intro j hj hpos
    obtain ⟨hmem, hother⟩ := h.separate j hj hpos
    exact ⟨hgiven j hmem, fun e he => hold e he ▸ hother e he⟩
  case sound => exact h.sound

/-- A buffer that is new to the table and to the hand. -/
structure Newcomer (s : StageState) (e : Entry) : Prop where
  unseen : ∀ e' ∈ s.owners, e'.buffer ≠ e.buffer
  arrived : e.buffer < s.arrivals.length
  given : s.index e = invalidIndex ∨ s.index e ∈ s.indices
  distinct : ∀ e' ∈ s.owners, s.index e ≠ invalidIndex → s.index e ≠ s.index e'
  unrecorded : s.index e ≠ invalidIndex → s.recorded (s.index e) = 0

theorem Distinct.newcomer (h : s.Distinct) (a : Arrival)
    (hindex : s.MayGive a.parameters.displayFrameIndex) :
    (s.arrive a).Newcomer ⟨s.arrivals.length, a.sequenceNumber⟩ := by
  have hself := s.arrive_index_self a a.sequenceNumber
  have hfresh : a.parameters.displayFrameIndex ≠ invalidIndex →
      a.parameters.displayFrameIndex ∉ s.indices := fun hvalid => (hindex.resolve_left hvalid).2
  constructor
  case unseen => exact fun e' he' => Nat.ne_of_lt (h.bound e' he')
  case arrived =>
    change s.arrivals.length < (s.arrivals ++ [_]).length
    rw [List.length_append]
    exact Nat.lt_succ_self _
  case given =>
    rw [hself]
    by_cases hvalid : a.parameters.displayFrameIndex = invalidIndex
    · exact .inl hvalid
    · exact .inr (mem_giveOut.mpr (.inr ⟨rfl, hvalid⟩))
  case distinct =>
    rw [hself]
    intro e' he' hvalid
    rw [arrive_index a (h.bound e' he')]
    rcases h.given e' he' with hinvalid | hmem
    · rw [hinvalid]
      exact hvalid
    · exact fun heq => hfresh hvalid (heq ▸ hmem)
  case unrecorded =>
    rw [hself]
    intro hvalid
    by_contra hpos
    exact hfresh hvalid (h.separate _ hvalid (Nat.pos_of_ne_zero hpos)).1

theorem Distinct.join (h : s.Distinct) (hnew : s.Newcomer e) (howners : t.owners.Perm (e :: s.owners))
    (hparameters : t.parameters = s.parameters) (hindices : t.indices = s.indices)
    (harrivals : t.arrivals = s.arrivals) (hrecords : t.nonDecodedBuffers = s.nonDecodedBuffers) :
    t.Distinct := by
  have hindex : t.index = s.index := by
    funext e'
    unfold index
    rw [hparameters]
  have hrecorded : t.recorded = s.recorded := by
    funext j
    unfold recorded
    rw [hrecords]
  have hcases : ∀ e' ∈ t.owners, e' = e ∨ e' ∈ s.owners := by
    exact fun e' he' => List.mem_cons.mp (howners.mem_iff.mp he')
  constructor
  case known => rw [hindices]; exact h.known
  case nodup =>
    refine ((howners.map Entry.buffer).nodup_iff).mpr ?_
    rw [List.map_cons, List.nodup_cons]
    refine ⟨fun hmem => ?_, h.nodup⟩
    obtain ⟨e', he', heq⟩ := List.mem_map.mp hmem
    exact hnew.unseen e' he' heq
  case bound =>
    rw [harrivals]
    intro e' he'
    rcases hcases e' he' with rfl | hmem
    · exact hnew.arrived
    · exact h.bound e' hmem
  case given =>
    rw [hindex, hindices]
    intro e' he'
    rcases hcases e' he' with rfl | hmem
    · exact hnew.given
    · exact h.given e' hmem
  case distinct =>
    rw [hindex]
    intro e₁ h₁ e₂ h₂ hvalid heq
    rcases hcases e₁ h₁ with rfl | hmem₁ <;> rcases hcases e₂ h₂ with rfl | hmem₂
    · rfl
    · exact absurd heq (hnew.distinct e₂ hmem₂ hvalid)
    · exact absurd heq.symm (hnew.distinct e₁ hmem₁ (heq ▸ hvalid))
    · exact h.distinct e₁ hmem₁ e₂ hmem₂ hvalid heq
  case once => rw [hrecorded]; exact h.once
  case separate =>
    rw [hrecorded, hindices, hindex]
    intro j hj hpos
    obtain ⟨hmem, hother⟩ := h.separate j hj hpos
    refine ⟨hmem, fun e' he' => ?_⟩
    rcases hcases e' he' with rfl | hmem'
    · rintro rfl
      rw [hnew.unrecorded hj] at hpos
      exact Nat.lt_irrefl 0 hpos
    · exact hother e' hmem'
  case sound => rw [hrecords]; exact h.sound

/-! ### The surroundings -/

theorem assign_index (s : StageState) (buffer index : ℕ) (e : Entry) :
    (s.assign buffer index).index e = if e.buffer = buffer then index else s.index e := by
  change (Function.update s.parameters buffer _ e.buffer).displayFrameIndex = _
  rw [Function.update_apply]
  split <;> rfl

theorem Distinct.assign (h : s.Distinct) {buffer index : ℕ} (hvalid : index < invalidIndex)
    (hfresh : index ∉ s.indices) : (s.assign buffer index).Distinct := by
  have hold : ∀ e ∈ s.owners, s.index e ≠ index := by
    intro e he heq
    rcases h.given e he with hinvalid | hmem
    · omega
    · exact hfresh (heq ▸ hmem)
  constructor
  case known =>
    intro j hj
    rcases List.mem_cons.mp hj with rfl | hmem
    · exact hvalid
    · exact h.known j hmem
  case nodup => exact h.nodup
  case bound => exact h.bound
  case given =>
    intro e he
    rw [assign_index]
    split
    next => exact .inr List.mem_cons_self
    next => exact (h.given e he).imp_right (List.mem_cons_of_mem _)
  case distinct =>
    intro e₁ h₁ e₂ h₂
    rw [assign_index, assign_index]
    split
    next hsame₁ =>
      split
      next hsame₂ => exact fun _ _ => hsame₁.trans hsame₂.symm
      next => exact fun _ heq => absurd heq.symm (hold e₂ h₂)
    next =>
      split
      next => exact fun _ heq => absurd heq (hold e₁ h₁)
      next => exact h.distinct e₁ h₁ e₂ h₂
  case once => exact h.once
  case separate =>
    intro j hj hpos
    obtain ⟨hmem, hother⟩ := h.separate j hj hpos
    refine ⟨List.mem_cons_of_mem _ hmem, fun e he => ?_⟩
    rw [assign_index]
    split
    next => exact fun heq => hfresh (heq ▸ hmem)
    next => exact hother e he
  case sound => exact h.sound

variable {index slot : ℕ}

theorem Distinct.recordIndex (h : s.Distinct) (hindex : s.MayGive index)
    (hrecorded : ∀ j, j ≠ invalidIndex → t.recorded j ≤ s.recorded j + if j = index then 1 else 0)
    (hsound : RecordsSound t.nonDecodedBuffers) (hindices : t.indices = s.giveOut index)
    (hhand : t.hand = s.hand) (htable : t.table = s.table) (hparameters : t.parameters = s.parameters)
    (harrivals : t.arrivals = s.arrivals) : t.Distinct := by
  have howners : t.owners = s.owners := by
    unfold owners waiting
    rw [hhand, htable]
  have hsame : t.index = s.index := by
    funext e
    unfold StageState.index
    rw [hparameters]
  have hgiven : ∀ j ∈ s.indices, j ∈ t.indices := by
    intro j hj
    rw [hindices, mem_giveOut]
    exact .inl hj
  constructor
  case known =>
    intro j hj
    rw [hindices, mem_giveOut] at hj
    rcases hj with hmem | ⟨rfl, hvalid⟩
    · exact h.known j hmem
    · exact (hindex.resolve_left hvalid).1
  case nodup => rw [howners]; exact h.nodup
  case bound => rw [howners, harrivals]; exact h.bound
  case given =>
    rw [howners, hsame]
    exact fun e he => (h.given e he).imp_right (hgiven _)
  case distinct => rw [howners, hsame]; exact h.distinct
  case once =>
    intro j hj
    have hle := hrecorded j hj
    by_cases heq : j = index
    · -- an index that is fresh was not recorded before
      obtain ⟨-, hfresh⟩ := hindex.resolve_left (heq ▸ hj)
      have hzero : s.recorded j = 0 := by
        by_contra hpos
        exact hfresh (heq ▸ (h.separate j hj (Nat.pos_of_ne_zero hpos)).1)
      rw [if_pos heq] at hle
      omega
    · rw [if_neg heq] at hle
      exact Nat.le_trans hle (h.once j hj)
  case separate =>
    rw [howners, hsame]
    intro j hj hpos
    have hle := hrecorded j hj
    by_cases heq : j = index
    · obtain ⟨hvalid, hfresh⟩ := hindex.resolve_left (heq ▸ hj)
      subst heq
      refine ⟨by rw [hindices, mem_giveOut]; exact .inr ⟨rfl, hj⟩, ?_⟩
      intro e he hsame
      rcases h.given e he with hinvalid | hmem
      · exact hj (hsame.symm.trans hinvalid)
      · exact hfresh (hsame ▸ hmem)
    · rw [if_neg heq] at hle
      obtain ⟨hmem, hother⟩ := h.separate j hj (by omega)
      exact ⟨hgiven j hmem, hother⟩
  case sound => exact hsound

/-- Recording a frame adds at most one record with its index. -/
theorem record_recorded (s : StageState) (index : ℕ) (collapse : Bool) (j : ℕ) :
    (recordNonDecodedFrame { s with indices := s.giveOut index } index collapse).recorded j ≤
      s.recorded j + if j = index then 1 else 0 := by
  unfold recordNonDecodedFrame
  dsimp only
  split
  next => exact Nat.le_add_right _ _
  next records hinsert =>
    have hcount := ((Slots.insert_perm hinsert).map NonDecodedFrame.displayFrameIndex).count_eq j
    rw [List.map_cons, List.count_cons] at hcount
    change (records.reduceOption.map NonDecodedFrame.displayFrameIndex).count j ≤ _
    rw [hcount]
    refine Nat.add_le_add_left ?_ _
    simp only [beq_iff_eq, eq_comm (a := j)]
    exact Nat.le_refl _

theorem RecordsSound.record (h : RecordsSound s.nonDecodedBuffers) (hindex : s.MayGive index)
    (collapse : Bool) :
    RecordsSound
      (recordNonDecodedFrame { s with indices := s.giveOut index } index collapse).nonDecodedBuffers := by
  unfold recordNonDecodedFrame
  dsimp only
  split
  next => exact h
  next records hinsert => exact RecordsSound.perm h (hindex.sound collapse) (Slots.insert_perm hinsert)

variable {r : NonDecodedFrame}

/-- A record that gets its index has it afterwards. -/
theorem set_recorded (indices : List ℕ)
    (hslot : s.nonDecodedBuffers[slot]? = some (some r)) (j : ℕ) :
    recorded { s with
      nonDecodedBuffers := s.nonDecodedBuffers.set slot (some { r with displayFrameIndex := index })
      indices := indices } j ≤ s.recorded j + if j = index then 1 else 0 := by
  have hold := Slots.set_none_perm hslot
  have hnew := Slots.set_some_perm (b := { r with displayFrameIndex := index }) hslot
  have hcount := (hold.map NonDecodedFrame.displayFrameIndex).count_eq j
  have hcount' := (hnew.map NonDecodedFrame.displayFrameIndex).count_eq j
  rw [List.map_cons, List.count_cons] at hcount hcount'
  change ((s.nonDecodedBuffers.set slot _).reduceOption.map NonDecodedFrame.displayFrameIndex).count j ≤
    (s.nonDecodedBuffers.reduceOption.map NonDecodedFrame.displayFrameIndex).count j + _
  rw [hcount', hcount]
  simp only [beq_iff_eq, eq_comm (a := j)]
  omega

theorem RecordsSound.set (h : RecordsSound s.nonDecodedBuffers)
    (hslot : s.nonDecodedBuffers[slot]? = some (some r)) (hheld : r.releasedBuffer = false)
    (hvalid : index < invalidIndex) :
    RecordsSound (s.nonDecodedBuffers.set slot (some { r with displayFrameIndex := index })) := by
  have hold := Slots.set_none_perm hslot
  have hnew := Slots.set_some_perm (b := { r with displayFrameIndex := index }) hslot
  refine RecordsSound.perm (fun r' hr' => h r' ?_) (RecordSound.assign hheld hvalid) hnew
  exact hold.mem_iff.mpr (List.mem_cons_of_mem _ hr')

/-! ### Steps -/

theorem flush_recorded (s : StageState) (j : ℕ) :
    s.flushNonDecodedFrameList.recorded j ≤ s.recorded j ∧
      (RecordsSound s.nonDecodedBuffers → RecordsSound s.flushNonDecodedFrameList.nonDecodedBuffers) := by
  unfold flushNonDecodedFrameList
  split
  next => exact ⟨Nat.le_refl _, id⟩
  next =>
    have hclear := Slots.clear_reduceOption (fun r : NonDecodedFrame => !r.releasedBuffer)
      s.nonDecodedBuffers
    constructor
    · unfold recorded
      rw [hclear]
      exact (List.filter_sublist.map _).count_le j
    · exact fun h r hr => h r (List.mem_of_mem_filter (hclear ▸ hr))

theorem Distinct.scan (h : s.Distinct) (hphase : s.phase = .scan) : s.scan.Distinct := by
  have hhand : s.hand = [] := hand_in_loop (.inl hphase)
  unfold StageState.scan
  split
  next =>
    unfold cleanUp
    have hended : Distinct
        { s with
          phase := .terminated
          passedOn := if s.occupancy = 0 then s.passedOn else s.passedOn ++ s.waiting } :=
      h.frame hhand.symm rfl rfl rfl rfl rfl
    have hflush := flush_recorded
      { s with
        phase := .terminated
        passedOn := if s.occupancy = 0 then s.passedOn else s.passedOn ++ s.waiting }
    obtain ⟨records, removals, heq⟩ := flushNonDecodedFrameList_eq
      { s with
        phase := .terminated
        passedOn := if s.occupancy = 0 then s.passedOn else s.passedOn ++ s.waiting }
    refine hended.shrink (l := []) ?_ ?_ ?_ ?_ (fun j => (hflush j).1) ((hflush 0).2 hended.sound)
    all_goals rw [heq]
    exact List.Perm.refl _
  next =>
    split
    next => exact h.frame hhand.symm rfl rfl rfl rfl rfl
    next =>
      split
      next => exact h.frame hhand.symm rfl rfl rfl rfl rfl
      next slot e hlowest =>
        split
        next =>
          refine h.shrink (l := []) ?_ rfl rfl rfl (fun j => Nat.le_refl _) h.sound
          unfold owners
          rw [hhand]
          exact (Slots.set_none_perm (lowest_some hlowest).1).symm
        next => exact h.frame hhand.symm rfl rfl rfl rfl rfl

theorem Distinct.skip (h : s.Distinct) (hphase : s.phase = .skip) : s.skip.Distinct := by
  have hhand : s.hand = [] := hand_in_loop (.inr (.inl hphase))
  have hsound := check_sound h.sound
  have hcount : ∀ j, (s.check.records.reduceOption.map NonDecodedFrame.displayFrameIndex).count j ≤
      s.recorded j := fun j => Nat.le_trans (Nat.le_add_right _ _) (s.check_count j)
  have howners : ([] ++ ([] ++ s.waiting)).Perm s.owners := by
    unfold owners
    rw [hhand]
    exact List.Perm.refl _
  unfold StageState.skip
  split
  next => exact h.shrink (l := []) (List.Perm.refl _) rfl rfl rfl hcount hsound.records
  next => exact h.shrink howners rfl rfl rfl hcount hsound.records

theorem Distinct.place (h : s.Distinct) (a : Arrival) (hnew : s.Newcomer e) (hhand : s.hand = []) :
    (s.place a e).Distinct := by
  have howners : s.owners = s.waiting := by
    unfold owners
    rw [hhand, List.nil_append]
  unfold StageState.place
  split
  next => exact h.frame hhand.symm rfl rfl rfl rfl rfl
  next =>
    dsimp only
    split
    next => exact h.frame hhand.symm rfl rfl rfl rfl rfl
    next =>
      split
      next => exact h.frame hhand.symm rfl rfl rfl rfl rfl
      next =>
        split
        next =>
          refine h.join hnew ?_ rfl rfl rfl rfl
          rw [howners]
          exact List.Perm.refl _
        next =>
          split
          next table hinsert =>
            refine h.join hnew ?_ rfl rfl rfl rfl
            rw [howners]
            exact Slots.insert_perm hinsert
          next =>
            refine h.join hnew ?_ rfl rfl rfl rfl
            rw [howners]
            exact List.Perm.refl _

theorem Distinct.step {label : Label} (h : s.Distinct) (hstep : s.Steps label t) : t.Distinct := by
  cases hstep with
  | scan hphase => exact h.scan hphase
  | skip hphase => exact h.skip hphase
  | passMarker e hphase hmarker | nothing hphase hmarker =>
    exact h.frame (hand_in_loop (.inr (.inr hphase))).symm rfl rfl rfl rfl rfl
  | control m hphase hmarker =>
    have hhand := (hand_in_loop (.inr (.inr hphase))).symm
    unfold extract
    dsimp only
    split <;> exact h.frame hhand rfl rfl rfl rfl rfl
  | decoded a hphase hmarker hindex hnumber =>
    have hhand := hand_in_loop (.inr (.inr hphase))
    have harrive := h.arrive a hindex
    unfold extract
    dsimp only
    split
    next => exact harrive.frame hhand.symm rfl rfl rfl rfl rfl
    next => exact harrive.place a (h.newcomer a hindex) hhand
  | output e outcome hphase =>
    have howners : ([e] ++ ([] ++ s.waiting)).Perm s.owners := by
      unfold owners hand
      rw [hphase]
      exact List.Perm.refl _
    unfold StageState.output
    split <;> exact h.shrink howners rfl rfl rfl (fun j => Nat.le_refl _) h.sound
  | assign buffer index hnone hvalid hfresh => exact h.assign hvalid hfresh
  | assignNonDecoded slot index r hslot hheld hnone hvalid hfresh =>
    refine h.recordIndex (.inr ⟨hvalid, hfresh⟩) (fun j _ => set_recorded _ hslot j)
      (h.sound.set hslot hheld hvalid) ?_ rfl rfl rfl rfl
    unfold giveOut
    rw [if_neg (Nat.ne_of_lt hvalid)]
  | record index collapse hindex =>
    obtain ⟨records, insertions, collapse', heq⟩ :=
      recordNonDecodedFrame_eq { s with indices := s.giveOut index } index collapse
    refine h.recordIndex hindex (fun j _ => s.record_recorded index collapse j)
      (h.sound.record hindex collapse) ?_ ?_ ?_ ?_ ?_
    all_goals rw [heq]
    rfl
  | _ => exact h.frame rfl rfl rfl rfl rfl rfl

theorem start_owners (n : ℕ) : (start n).owners = [] := by
  change [] ++ (List.replicate n (none : Option Entry)).reduceOption = []
  rw [List.reduceOption_replicate_none]
  rfl

theorem start_recorded (n j : ℕ) : (start n).recorded j = 0 := by
  have hrecords : (start n).nonDecodedBuffers.reduceOption = [] := List.reduceOption_replicate_none
  unfold recorded
  rfl

theorem start_recordsSound (n : ℕ) : RecordsSound (start n).nonDecodedBuffers := by
  have hrecords : (start n).nonDecodedBuffers.reduceOption = [] := List.reduceOption_replicate_none
  unfold RecordsSound
  exact fun r hr => absurd hr List.not_mem_nil

theorem start_distinct (n : ℕ) : (start n).Distinct := by
  have howners := start_owners n
  constructor
  case known => exact fun j hj => absurd hj List.not_mem_nil
  case nodup => rw [howners]; exact List.nodup_nil
  case bound => rw [howners]; exact fun e he => absurd he List.not_mem_nil
  case given => rw [howners]; exact fun e he => absurd he List.not_mem_nil
  case distinct => rw [howners]; exact fun e he => absurd he List.not_mem_nil
  case once => exact fun j _ => by rw [start_recorded]; exact Nat.zero_le 1
  case separate => exact fun j _ hpos => by rw [start_recorded] at hpos; exact absurd hpos (Nat.lt_irrefl 0)
  case sound => exact start_recordsSound n

end Distinct

end StageState
end Player2.DecodeToManifest

import Player2.ReorderOrder

/-! # Buffers whose index is due

A scan takes the lowest buffer of the table when its index is the expected one.  A buffer whose index has
been passed by then stays in the table until there is another reason to take it.  An index is passed while
its buffer waits when holes are collapsed over it, or when it is given out too late; `Ahead` is what holds
as long as neither happens. -/

namespace Player2.DecodeToManifest

/-- The buffer takes part in the reordering. -/
def Arrival.reordered (a : Arrival) : Bool := a.attached && !a.markerFrame && a.parametersFound

namespace StageState

/-! ### Where an index is passed -/

theorem reordered_of_not {a : Arrival} (hattached : ¬ (!a.attached) = true) (hmarker : ¬ a.markerFrame = true)
    (hfound : ¬ (!a.parametersFound) = true) : a.reordered = true := by
  unfold Arrival.reordered
  rw [Bool.and_eq_true, Bool.and_eq_true]
  exact ⟨⟨by simpa using hattached, by simpa using hmarker⟩, by simpa using hfound⟩

/-- No buffer in the table has an index below the given one. -/
def NoneBelow (s : StageState) (j : ℕ) : Prop :=
  ∀ e ∈ s.waiting, s.index e ≠ invalidIndex → j ≤ s.index e

instance (s : StageState) (j : ℕ) : Decidable (s.NoneBelow j) :=
  inferInstanceAs (Decidable (∀ e ∈ s.waiting, _ → _))

/-- The index that is expected when the buffer has left. -/
def indexBehind (s : StageState) (e : Entry) : ℕ := (s.index e + 1) % 2 ^ 32

/-- `CheckForNonDecodedFrame` collapses the holes up to the index of this record. -/
def Collapses (s : StageState) (r : NonDecodedFrame) : Prop :=
  r.releasedBuffer = false ∧ r.displayFrameIndex ≠ invalidIndex ∧
    (s.discardingUntilMarkerFrameDtoM = true ∨ r.collapseHolesInDisplayIndices = true)

instance (s : StageState) (r : NonDecodedFrame) : Decidable (s.Collapses r) :=
  inferInstanceAs (Decidable (_ ∧ _ ∧ _))

/-- The step passes no index of a buffer that waits: holes are collapsed only up to the indices in the
table, a buffer that is put into it finds a free slot and has an index beyond the holes, and an index that a
buffer gets while it waits is beyond them too, not below the expected one, and behind the index of the
buffer that is leaving. -/
def KeepsAhead (s : StageState) : Label → Prop
  | .skip => ∀ r ∈ s.nonDecodedBuffers.reduceOption, s.Collapses r → s.NoneBelow r.displayFrameIndex
  | .extract (.decoded a) =>
    a.reordered = true → s.desiredFrameIndex < a.parameters.displayFrameIndex →
      s.waiting.length < s.table.length ∧ s.displayIndicesCollapse ≤ a.parameters.displayFrameIndex
  | .assign buffer index =>
    (∀ e ∈ s.waiting, e.buffer = buffer → s.desiredFrameIndex ≤ index ∧
      s.displayIndicesCollapse ≤ index ∧ ∀ e' ∈ s.hand, s.indexBehind e' ≤ index) ∧
    ∀ e ∈ s.hand, e.buffer = buffer → s.NoneBelow (index + 1)
  | .recordNonDecodedFrame index collapse =>
    index ≠ invalidIndex → s.discardingUntilMarkerFramePtoD = true ∨ collapse = true → s.NoneBelow index
  | _ => True

instance (s : StageState) (label : Label) : Decidable (s.KeepsAhead label) :=
  match label with
  | .skip => inferInstanceAs (Decidable (∀ r ∈ s.nonDecodedBuffers.reduceOption, _ → _))
  | .extract (.decoded _) => inferInstanceAs (Decidable (_ → _ → _ ∧ _))
  | .assign buffer index =>
    inferInstanceAs (Decidable ((∀ e ∈ s.waiting, e.buffer = buffer → _ ∧ _ ∧
      ∀ e' ∈ s.hand, s.indexBehind e' ≤ index) ∧ ∀ e ∈ s.hand, e.buffer = buffer → _))
  | .recordNonDecodedFrame _ _ => inferInstanceAs (Decidable (_ → _ ∨ _ → _))
  | .scan | .extract .nothing | .extract (.control _) | .passMarker | .output _ | .assignNonDecoded _ _
  | .direction _ | .decodeBufferCount _ | .discardPtoD _ | .discardDtoM | .terminate => isTrue trivial

/-! ### The check of the records -/

/-- The check collapses holes further, but only up to the records that say so. -/
theorem checkRecords_collapse (discarding : Bool) (desired : ℕ) (records : List (Option NonDecodedFrame))
    (collapse : ℕ) :
    collapse ≤ (checkRecords discarding desired records collapse).collapse ∧
      ∀ bound, collapse ≤ bound →
        (∀ r ∈ records.reduceOption, r.releasedBuffer = false → r.displayFrameIndex ≠ invalidIndex →
          discarding = true ∨ r.collapseHolesInDisplayIndices = true → r.displayFrameIndex ≤ bound) →
        (checkRecords discarding desired records collapse).collapse ≤ bound := by
  induction records generalizing collapse with
  | nil =>
    exact ⟨Nat.le_refl _, fun bound hle _ => hle⟩
  | cons slot rest ih =>
    cases slot with
    | none =>
      exact ⟨(ih collapse).1, fun bound hle hrecords => (ih collapse).2 bound hle hrecords⟩
    | some r =>
      have hrest : ∀ {bound : ℕ},
          (∀ r' ∈ (some r :: rest).reduceOption, r'.releasedBuffer = false →
            r'.displayFrameIndex ≠ invalidIndex →
            discarding = true ∨ r'.collapseHolesInDisplayIndices = true → r'.displayFrameIndex ≤ bound) →
          ∀ r' ∈ rest.reduceOption, r'.releasedBuffer = false → r'.displayFrameIndex ≠ invalidIndex →
            discarding = true ∨ r'.collapseHolesInDisplayIndices = true → r'.displayFrameIndex ≤ bound := by
        intro bound hall r' hr'
        exact hall r' (List.reduceOption_cons_of_some r rest ▸ List.mem_cons_of_mem _ hr')
      unfold checkRecords
      split
      next =>
        exact ⟨(ih collapse).1, fun bound hle hall => (ih collapse).2 bound hle (hrest hall)⟩
      next hlooked =>
        have hup : collapse ≤ collapseAfter discarding r collapse := by
          unfold collapseAfter
          repeat' split
          all_goals omega
        have hbound : ∀ bound, collapse ≤ bound →
            (∀ r' ∈ (some r :: rest).reduceOption, r'.releasedBuffer = false →
              r'.displayFrameIndex ≠ invalidIndex →
              discarding = true ∨ r'.collapseHolesInDisplayIndices = true →
              r'.displayFrameIndex ≤ bound) →
            collapseAfter discarding r collapse ≤ bound := by
          intro bound hle hall
          unfold collapseAfter
          split
          next => exact hle
          next hheld =>
            have hheld := Bool.eq_false_iff.mpr hheld
            split
            next hcollapses =>
              refine Nat.max_le.mpr ⟨hle, hall r ?_ hheld (fun h => hlooked ⟨hheld, h⟩) ?_⟩
              · exact List.reduceOption_cons_of_some r rest ▸ List.mem_cons_self
              · exact (Bool.or_eq_true _ _).mp hcollapses
            next => exact hle
        have htail := ih (collapseAfter discarding r collapse)
        split
        next => exact ⟨hup, hbound⟩
        next =>
          split <;> unfold Check.cons <;> exact ⟨Nat.le_trans hup htail.1, fun bound hle hall =>
            htail.2 bound (hbound bound hle hall) (hrest hall)⟩

theorem le_check_collapse (s : StageState) : s.displayIndicesCollapse ≤ s.check.collapse := by
  unfold check
  split
  next => exact Nat.le_refl _
  next => exact (checkRecords_collapse ..).1

theorem check_collapse_le {s : StageState} {bound : ℕ} (hle : s.displayIndicesCollapse ≤ bound)
    (hrecords : ∀ r ∈ s.nonDecodedBuffers.reduceOption, s.Collapses r → r.displayFrameIndex ≤ bound) :
    s.check.collapse ≤ bound := by
  unfold check
  split
  next => exact hle
  next =>
    exact (checkRecords_collapse ..).2 bound hle fun r hr hheld hvalid hcollapses =>
      hrecords r hr ⟨hheld, hvalid, hcollapses⟩

/-! ### The table -/

section Ahead

variable {s t : StageState} {e : Entry} {j : ℕ}

theorem NoneBelow.shrink (h : s.NoneBelow j) (hwaiting : ∀ e ∈ t.waiting, e ∈ s.waiting)
    (hparameters : t.parameters = s.parameters) : t.NoneBelow j := by
  intro e he
  unfold index
  rw [hparameters]
  exact h e (hwaiting e he)

theorem NoneBelow.join (h : s.NoneBelow j) (hwaiting : t.waiting.Perm (e :: s.waiting))
    (hparameters : t.parameters = s.parameters) (hle : s.index e ≠ invalidIndex → j ≤ s.index e) :
    t.NoneBelow j := by
  intro e' he'
  unfold index
  rw [hparameters]
  rcases List.mem_cons.mp (hwaiting.mem_iff.mp he') with rfl | hmem
  · exact hle
  · exact h e' hmem

theorem NoneBelow.arrive (h : s.NoneBelow j) (hd : s.Distinct) (a : Arrival) : (s.arrive a).NoneBelow j := by
  intro e he
  rw [arrive_index a (hd.bound e (List.mem_append_right _ he))]
  exact h e he

theorem NoneBelow.assign (h : s.NoneBelow j) {buffer index : ℕ}
    (hle : ∀ e ∈ s.waiting, e.buffer = buffer → j ≤ index) : (s.assign buffer index).NoneBelow j := by
  intro e he
  rw [assign_index]
  split
  next hbuffer => exact fun _ => hle e he hbuffer
  next => exact h e he

/-- No index of a buffer in the table has been passed, and none will be by what is leaving or by the holes
that are collapsed. -/
structure Ahead (s : StageState) : Prop where
  desired : s.NoneBelow s.desiredFrameIndex
  collapse : s.NoneBelow s.displayIndicesCollapse
  hand : ∀ e ∈ s.hand, s.NoneBelow (s.indexBehind e)

theorem Ahead.frame (h : s.Ahead) (hhand : ∀ e ∈ t.hand, e ∈ s.hand) (htable : t.table = s.table)
    (hparameters : t.parameters = s.parameters) (hdesired : t.desiredFrameIndex = s.desiredFrameIndex)
    (hcollapse : t.displayIndicesCollapse = s.displayIndicesCollapse) : t.Ahead := by
  have hwaiting : ∀ e ∈ t.waiting, e ∈ s.waiting := by
    unfold waiting
    rw [htable]
    exact fun e he => he
  refine ⟨hdesired ▸ h.desired.shrink hwaiting hparameters, hcollapse ▸ h.collapse.shrink hwaiting hparameters,
    ?_⟩
  intro e he
  unfold indexBehind index
  rw [hparameters]
  exact (h.hand e (hhand e he)).shrink hwaiting hparameters

/-! ### The steps -/

/-- The lowest buffer leaves the table, and the others are behind it. -/
theorem Ahead.take (h : s.Ahead) (hd : s.Distinct) (hhand : s.hand = []) {slot : ℕ}
    (hlowest : s.lowest = some (slot, e)) : (s.take slot e).Ahead := by
  obtain ⟨hslot, hvalid, hleast⟩ := lowest_some hlowest
  have hperm : s.waiting.Perm (e :: (s.take slot e).waiting) := Slots.set_none_perm hslot
  have howners : s.owners = s.waiting := by
    unfold owners
    rw [hhand, List.nil_append]
  have hwaiting : ∀ e' ∈ (s.take slot e).waiting, e' ∈ s.waiting := by
    exact fun e' he' => hperm.mem_iff.mpr (List.mem_cons_of_mem _ he')
  refine ⟨h.desired.shrink hwaiting rfl, h.collapse.shrink hwaiting rfl, ?_⟩
  intro e₀ he₀ e' he' hvalid'
  obtain rfl : e₀ = e := List.mem_singleton.mp he₀
  have hnodup := (hperm.map Entry.buffer).nodup_iff.mp (howners ▸ hd.nodup)
  rw [List.map_cons, List.nodup_cons] at hnodup
  have hne : s.index e₀ ≠ s.index e' := by
    intro heq
    have hmem : e₀ ∈ s.owners := howners ▸ hperm.mem_iff.mpr List.mem_cons_self
    have hsame := hd.distinct e₀ hmem e' (howners ▸ hwaiting e' he') hvalid heq
    exact hnodup.1 (List.mem_map.mpr ⟨e', he', hsame.symm⟩)
  have hle := hleast e' (hwaiting e' he') hvalid'
  calc
    (s.index e₀ + 1) % 2 ^ 32 ≤ s.index e₀ + 1 := Nat.mod_le _ _
    _ ≤ s.index e' := by omega

theorem Ahead.scan (h : s.Ahead) (hd : s.Distinct) (hphase : s.phase = .scan) : s.scan.Ahead := by
  have hhand : s.hand = [] := hand_in_loop (.inl hphase)
  unfold StageState.scan
  split
  next =>
    obtain ⟨records, removals, heq⟩ := s.cleanUp_eq
    rw [heq]
    exact h.frame (fun e he => absurd he List.not_mem_nil) rfl rfl rfl rfl
  next =>
    split
    next => exact h.frame (fun e he => absurd he List.not_mem_nil) rfl rfl rfl rfl
    next =>
      split
      next => exact h.frame (fun e he => absurd he List.not_mem_nil) rfl rfl rfl rfl
      next slot e hlowest =>
        split
        next => exact (h.take hd hhand hlowest).frame (fun e he => he) rfl rfl rfl rfl
        next => exact h.frame (fun e he => absurd he List.not_mem_nil) rfl rfl rfl rfl

/-- The expected index that is found belongs to a record, and holes are only collapsed before the indices in
the table. -/
theorem Ahead.skip (h : s.Ahead) (hd : s.Distinct) (hphase : s.phase = .skip)
    (hahead : s.KeepsAhead .skip) : s.skip.Ahead := by
  have hhand : s.hand = [] := hand_in_loop (.inr (.inl hphase))
  have hcollapse : s.NoneBelow s.check.collapse := by
    intro e he hvalid
    exact check_collapse_le (h.collapse e he hvalid) fun r hr hr' => hahead r hr hr' e he hvalid
  have hnext : s.check.found || s.collapsed → s.NoneBelow ((s.desiredFrameIndex + 1) % 2 ^ 32) := by
    intro hskip e he hvalid
    have hle := h.desired e he hvalid
    have hlt : s.desiredFrameIndex < s.index e := by
      rcases (Bool.or_eq_true _ _).mp hskip with hfound | hcollapsed
      · have hone := s.check_count s.desiredFrameIndex
        rw [if_pos ⟨hfound, rfl⟩] at hone
        have hindex := (check_sound hd.sound).found hfound
        have hne := (hd.separate s.desiredFrameIndex (Nat.ne_of_lt hindex) (by omega)).2 e
          (List.mem_append_right _ he)
        omega
      · have hbelow : s.desiredFrameIndex < s.check.collapse :=
          of_decide_eq_true (Bool.and_eq_true_iff.mp hcollapsed).2
        exact Nat.lt_of_lt_of_le hbelow (hcollapse e he hvalid)
    exact Nat.le_trans (Nat.mod_le _ _) hlt
  unfold StageState.skip
  split
  next hskip =>
    refine ⟨hnext hskip, hcollapse, fun e he => ?_⟩
    have hmem : e ∈ s.hand := he
    rw [hhand] at hmem
    cases hmem
  next => exact ⟨h.desired, hcollapse, fun e he => absurd he List.not_mem_nil⟩

theorem Ahead.place (h : s.Ahead) {a : Arrival} (hnew : s.Newcomer e)
    (hindex : s.index e = a.parameters.displayFrameIndex)
    (hahead : a.reordered = true → s.desiredFrameIndex < a.parameters.displayFrameIndex →
      s.waiting.length < s.table.length ∧ s.displayIndicesCollapse ≤ a.parameters.displayFrameIndex) :
    (s.place a e).Ahead := by
  unfold StageState.place
  split
  next => exact h.frame (fun e' he' => absurd he' List.not_mem_nil) rfl rfl rfl rfl
  next hattached =>
    dsimp only
    split
    next => exact h.frame (fun e' he' => absurd he' List.not_mem_nil) rfl rfl rfl rfl
    next hmarker =>
      split
      next => exact h.frame (fun e' he' => absurd he' List.not_mem_nil) rfl rfl rfl rfl
      next hfound =>
        have hreordered := reordered_of_not hattached hmarker hfound
        split
        next hle =>
          refine ⟨h.desired, h.collapse, ?_⟩
          intro e₀ he₀ e' he' hvalid
          obtain rfl : e₀ = e := List.mem_singleton.mp he₀
          have hdesired := h.desired e' he' hvalid
          change (s.index e₀ + 1) % 2 ^ 32 ≤ s.index e'
          by_cases hinvalid : s.index e₀ = invalidIndex
          · rw [hinvalid]
            exact Nat.zero_le _
          · have hne := hnew.distinct e' (List.mem_append_right _ he') hinvalid
            exact Nat.le_trans (Nat.mod_le _ _) (by omega)
        next hgt =>
          have hlt : s.desiredFrameIndex < a.parameters.displayFrameIndex := Nat.lt_of_not_le hgt
          obtain ⟨hroom, hcollapse⟩ := hahead hreordered hlt
          split
          next table hinsert =>
            have hperm := Slots.insert_perm hinsert
            refine ⟨h.desired.join hperm rfl fun _ => ?_, h.collapse.join hperm rfl fun _ => ?_,
              fun e' he' => absurd he' List.not_mem_nil⟩
            · exact hindex ▸ Nat.le_of_lt hlt
            · exact hindex ▸ hcollapse
          next hfull =>
            have hlength : s.waiting.length = s.table.length := Slots.insert_eq_none_iff.mp hfull
            omega

theorem Ahead.arrive (h : s.Ahead) (hd : s.Distinct) (a : Arrival) : (s.arrive a).Ahead where
  desired := h.desired.arrive hd a
  collapse := h.collapse.arrive hd a
  hand e he := by
    have hindex := arrive_index a (hd.bound e (List.mem_append_left _ he))
    unfold indexBehind
    rw [hindex]
    exact (h.hand e he).arrive hd a

theorem Ahead.assign (h : s.Ahead) (hd : s.Distinct) {buffer index : ℕ}
    (hahead : s.KeepsAhead (.assign buffer index)) : (s.assign buffer index).Ahead where
  desired := h.desired.assign fun e he hbuffer => (hahead.1 e he hbuffer).1
  collapse := h.collapse.assign fun e he hbuffer => (hahead.1 e he hbuffer).2.1
  hand e he := by
    unfold indexBehind
    rw [assign_index]
    split
    next hbuffer =>
      have hbelow := hahead.2 e he hbuffer
      refine NoneBelow.assign ?_ fun e' he' hbuffer' => ?_
      · exact fun e' he' hvalid => Nat.le_trans (Nat.mod_le _ _) (hbelow e' he' hvalid)
      · exact absurd (hbuffer.trans hbuffer'.symm) (hd.apart he he')
    next => exact (h.hand e he).assign fun e' he' hbuffer => (hahead.1 e' he' hbuffer).2.2 e he

theorem Ahead.record (h : s.Ahead) {index : ℕ} {collapse : Bool}
    (hahead : s.KeepsAhead (.recordNonDecodedFrame index collapse)) :
    (recordNonDecodedFrame { s with indices := s.giveOut index } index collapse).Ahead := by
  unfold recordNonDecodedFrame
  dsimp only
  split
  next => exact h.frame (fun e he => he) rfl rfl rfl rfl
  next =>
    refine ⟨h.desired, ?_, h.hand⟩
    split
    next hcollapses =>
      rw [Bool.and_eq_true, bne_iff_ne, Bool.or_eq_true] at hcollapses
      intro e he hvalid
      exact Nat.max_le.mpr ⟨h.collapse e he hvalid, hahead hcollapses.1 hcollapses.2 e he hvalid⟩
    next => exact h.collapse

theorem Ahead.step {label : Label} (h : s.Ahead) (hd : s.Distinct) (hahead : s.KeepsAhead label)
    (hstep : s.Steps label t) : t.Ahead := by
  cases hstep with
  | scan hphase => exact h.scan hd hphase
  | skip hphase => exact h.skip hd hphase hahead
  | passMarker e hphase hmarker | nothing hphase hmarker =>
    exact h.frame (fun e he => absurd he List.not_mem_nil) rfl rfl rfl rfl
  | control m hphase hmarker =>
    unfold extract
    dsimp only
    split <;> exact h.frame (fun e he => absurd he List.not_mem_nil) rfl rfl rfl rfl
  | decoded a hphase hmarker hindex hnumber =>
    have harrive := h.arrive hd a
    unfold extract
    dsimp only
    split
    next => exact harrive.frame (fun e he => absurd he List.not_mem_nil) rfl rfl rfl rfl
    next =>
      exact harrive.place (hd.newcomer a hindex) (s.arrive_index_self a a.sequenceNumber) hahead
  | output e outcome hphase =>
    have hmem : e ∈ s.hand := by
      unfold StageState.hand
      rw [hphase]
      exact List.mem_singleton_self e
    unfold StageState.output
    split
    next => exact h.frame (fun e' he' => absurd he' List.not_mem_nil) rfl rfl rfl rfl
    next => exact ⟨h.hand e hmem, h.collapse, fun e' he' => absurd he' List.not_mem_nil⟩
  | assign buffer index hnone hvalid hfresh => exact h.assign hd hahead
  | record index collapse hindex => exact h.record hahead
  | _ => exact h.frame (fun e he => he) rfl rfl rfl rfl

/-! ### Scans -/

/-- A scan that leaves the lowest buffer in the table finds no index that is due. -/
theorem Ahead.leave_overlooked (h : s.Ahead)
    (hwaits : ∀ e ∈ s.waiting, s.index e ≠ invalidIndex → s.index e ≠ s.desiredFrameIndex) :
    s.leave.overlooked = s.overlooked := by
  change s.overlooked ++ s.waiting.filter s.isDue = s.overlooked
  rw [List.append_right_eq_self, List.filter_eq_nil_iff]
  intro e he hdue
  unfold isDue at hdue
  rw [Bool.and_eq_true, bne_iff_ne, decide_eq_true_eq] at hdue
  exact hwaits e he hdue.1 (Nat.le_antisymm hdue.2 (h.desired e he hdue.1))

theorem Ahead.scan_overlooked (h : s.Ahead) (hs : s.Occupied) : s.scan.overlooked = s.overlooked := by
  unfold StageState.scan
  split
  next => exact s.cleanUp_table.2.2
  next =>
    split
    next hzero =>
      have hempty : s.waiting = [] := List.eq_nil_of_length_eq_zero (hs.symm.trans hzero)
      exact h.leave_overlooked fun e he => absurd (hempty ▸ he) List.not_mem_nil
    next =>
      split
      next hlowest =>
        exact h.leave_overlooked fun e he hvalid => absurd (lowest_none hlowest e he) hvalid
      next slot e hlowest =>
        split
        next => rfl
        next hstays =>
          -- the lowest index is not the expected one, so none is
          obtain ⟨hslot, hvalid, hleast⟩ := lowest_some hlowest
          have hmem : e ∈ s.waiting := (Slots.set_none_perm hslot).mem_iff.mpr List.mem_cons_self
          have hne : s.index e ≠ s.desiredFrameIndex := by
            intro heq
            refine hstays ?_
            unfold releases
            rw [beq_iff_eq.mpr heq]
            rfl
          refine h.leave_overlooked fun e' he' hvalid' heq => hne ?_
          exact Nat.le_antisymm (heq ▸ hleast e' he' hvalid') (h.desired e hmem hvalid)

/-- As long as no index of a waiting buffer is passed, none is overlooked. -/
theorem Ahead.step_overlooked {label : Label} (h : s.Ahead) (hs : s.Occupied) (hstep : s.Steps label t) :
    t.overlooked = s.overlooked := by
  cases hstep with
  | scan hphase => exact h.scan_overlooked hs
  | skip hphase =>
    unfold StageState.skip
    split <;> rfl
  | control m hphase hmarker =>
    unfold StageState.extract
    dsimp only
    split <;> rfl
  | decoded a hphase hmarker hindex hnumber =>
    unfold StageState.extract
    dsimp only
    split
    next => rfl
    next =>
      unfold StageState.place
      dsimp only
      repeat' split
      all_goals rfl
  | output e outcome hphase =>
    unfold StageState.output
    split <;> rfl
  | record index collapse hindex =>
    obtain ⟨records, insertions, collapse', heq⟩ :=
      recordNonDecodedFrame_eq { s with indices := s.giveOut index } index collapse
    rw [heq]
  | _ => rfl

theorem start_ahead (n : ℕ) : (start n).Ahead := by
  have hwaiting : (start n).waiting = [] := List.reduceOption_replicate_none
  have hnone : ∀ j, (start n).NoneBelow j := by
    intro j e he
    rw [hwaiting] at he
    cases he
  exact ⟨hnone _, hnone _, fun e he => absurd he List.not_mem_nil⟩

end Ahead

/-! ### Runs -/

/-- No scan has left a buffer in the table whose index was due. -/
def NoneOverlooked (s : StageState) : Prop := s.overlooked = []

theorem run_noneOverlooked {n : ℕ} {labels : List Label}
    (hlabels : Lts.Along step KeepsAhead (start n) labels) :
    Lts.Throughout step NoneOverlooked (start n) labels := by
  refine Lts.throughout_of_along (P := KeepsAhead)
    (J := fun s => s.NoneOverlooked ∧ s.Ahead ∧ s.Distinct ∧ s.Occupied) ?_ (fun s hs => hs.1)
    ⟨rfl, start_ahead n, start_distinct n, start_occupied n⟩ hlabels
  rintro s label t ⟨hnone, hahead, hd, hs⟩ hlabel hstep
  have hsteps := steps_of_step hstep
  exact ⟨(hahead.step_overlooked hs hsteps).trans hnone, hahead.step hd hlabel hsteps, hd.step hsteps,
    hs.step hsteps⟩

/-- **Decode buffers leave once and in display order**: in a run, no buffer is lost or in two places exactly
when no step loses one; none is overlooked when no step passes the index of a buffer that waits; and an
undisturbed run passes the buffers on in strictly increasing order. -/
theorem run_reorders {n : ℕ} {labels : List Label} {s : StageState}
    (h : Lts.run step (start n) labels = some s) :
    (Lts.Throughout step Accounted (start n) labels ↔ Lts.Along step KeepsBuffers (start n) labels) ∧
      (Lts.Along step KeepsAhead (start n) labels → Lts.Throughout step NoneOverlooked (start n) labels) ∧
      (Lts.Along step Undisturbed (start n) labels →
        (s.departures.map Departure.displayFrameIndex).Pairwise (· < ·)) :=
  ⟨run_accounted_iff h, run_noneOverlooked, fun hlabels => (run_inOrder hlabels h).1⟩

/-- Two buffers arrive the wrong way round; a third one gets its index while it waits, behind a frame that is
not decoded. -/
def oneAssignedLate : List Label :=
  [.scan, .skip, .extract (bufferItem 0 1), .scan, .skip, .extract (bufferItem 1 0), .output .queued,
    .scan, .output .queued, .scan, .skip, .extract (bufferItem 2 invalidIndex),
    .recordNonDecodedFrame 2 true, .assign 2 3, .scan, .skip, .skip, .extract .nothing, .scan,
    .output .queued]

/-- `run_reorders` over the three buffers. -/
theorem run_reorders_oneAssignedLate :
    ∃ s, Lts.run step (start 8) oneAssignedLate = some s ∧
      s.departures.map Departure.displayFrameIndex = [0, 1, 3] ∧
      Lts.Along step Undisturbed (start 8) oneAssignedLate ∧
      Lts.Throughout step Accounted (start 8) oneAssignedLate ∧
      Lts.Throughout step NoneOverlooked (start 8) oneAssignedLate := by
  have hundisturbed : Lts.Along step Undisturbed (start 8) oneAssignedLate := by decide +kernel
  have hkeeps : Lts.Along step KeepsBuffers (start 8) oneAssignedLate := by decide +kernel
  have hahead : Lts.Along step KeepsAhead (start 8) oneAssignedLate := by decide +kernel
  obtain ⟨s, hrun, horder⟩ : ∃ s, Lts.run step (start 8) oneAssignedLate = some s ∧
      s.departures.map Departure.displayFrameIndex = [0, 1, 3] := ⟨_, rfl, by decide +kernel⟩
  obtain ⟨haccounted, hnone, -⟩ := run_reorders hrun
  exact ⟨s, hrun, horder, hundisturbed, haccounted.mpr hkeeps, hnone hahead⟩

/-- A buffer waits for the expected index; then a frame behind it, which is not decoded, has the indices
before it skipped. -/
def collapsedBehindOne : List Label :=
  [.scan, .skip, .extract (bufferItem 0 1), .recordNonDecodedFrame 3 true, .scan, .skip, .skip, .skip, .skip,
    .skip, .extract .nothing, .scan]

/-- The buffer stays in the table although its index has been passed. -/
theorem not_run_reorders_collapsedBehindOne :
    ¬ ∀ (n : ℕ) (labels : List Label) (s : StageState), Lts.run step (start n) labels = some s →
      Lts.Throughout step Accounted (start n) labels ∧ Lts.Throughout step NoneOverlooked (start n) labels ∧
        (Lts.Along step Undisturbed (start n) labels →
          (s.departures.map Departure.displayFrameIndex).Pairwise (· < ·)) := by
  intro hall
  have hkept := (hall 8 collapsedBehindOne _ rfl).2.1
  obtain ⟨s, hrun, hlost⟩ : ∃ s, Lts.run step (start 8) collapsedBehindOne = some s ∧
      s.overlooked ≠ [] := ⟨_, rfl, by decide +kernel⟩
  exact hlost (hkept.last hrun)

end StageState
end Player2.DecodeToManifest

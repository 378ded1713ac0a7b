import Player2.ReorderDue

/-! # The index that is expected

`DesiredFrameIndex` moves on when an index is skipped, and is set behind the buffer that leaves the loop.
A skip never takes it over the largest number, because only an index that some frame has is skipped.  A
buffer that comes, or gets its index, when a later one has left takes it back; `run_advances` says that
nothing else does, as long as holes are only collapsed where no buffer waits. -/

namespace Player2.DecodeToManifest

namespace StageState

/-! ### The condition -/

/-- A step does not take the expected index back. -/
def Advances (s : StageState) (label : Label) : Prop :=
  ∀ t, s.step label = some t → s.desiredFrameIndex ≤ t.desiredFrameIndex

instance (s : StageState) (label : Label) : Decidable (s.Advances label) :=
  inferInstanceAs (Decidable (∀ t ∈ s.step label, s.desiredFrameIndex ≤ t.desiredFrameIndex))

/-- A buffer with a higher index has left the loop, or holes are collapsed beyond the index. -/
def Passed (s : StageState) (j : ℕ) : Prop :=
  (∃ d ∈ s.departures, j < d.displayFrameIndex) ∨ j < s.displayIndicesCollapse

instance (s : StageState) (j : ℕ) : Decidable (s.Passed j) :=
  inferInstanceAs (Decidable ((∃ d ∈ s.departures, _) ∨ _))

/-- A buffer comes in time: the table has a free slot, and the index of the buffer has not been passed; if
it has none yet, the last valid index is still to be given out. -/
def ArrivesInTime (s : StageState) (index : ℕ) : Prop :=
  s.waiting.length < s.table.length ∧ ¬ s.Passed index ∧
    (index = invalidIndex → invalidIndex - 1 ∉ s.indices)

instance (s : StageState) (index : ℕ) : Decidable (s.ArrivesInTime index) :=
  inferInstanceAs (Decidable (_ ∧ _ ∧ (_ → _)))

/-- Buffers come in time, the indices that they get while they wait have not been passed and are behind the
buffer that is leaving, and holes are collapsed only up to the indices in the table. -/
def GivesInTime (s : StageState) : Label → Prop
  | .skip => s.KeepsAhead .skip
  | .extract (.decoded a) => a.reordered = true → s.ArrivesInTime a.parameters.displayFrameIndex
  | .assign buffer index =>
    ∀ e ∈ s.waiting, e.buffer = buffer → ¬ s.Passed index ∧ ∀ e' ∈ s.hand, s.index e' < index
  | .recordNonDecodedFrame index collapse => s.KeepsAhead (.recordNonDecodedFrame index collapse)
  | _ => True

instance (s : StageState) (label : Label) : Decidable (s.GivesInTime label) :=
  match label with
  | .skip => inferInstanceAs (Decidable (s.KeepsAhead .skip))
  | .extract (.decoded _) => inferInstanceAs (Decidable (_ → _))
  | .assign buffer index =>
    inferInstanceAs (Decidable (∀ e ∈ s.waiting, e.buffer = buffer → ¬ s.Passed index ∧
      ∀ e' ∈ s.hand, s.index e' < index))
  | .recordNonDecodedFrame index collapse =>
    inferInstanceAs (Decidable (s.KeepsAhead (.recordNonDecodedFrame index collapse)))
  | .scan | .extract .nothing | .extract (.control _) | .passMarker | .output _ | .assignNonDecoded _ _
  | .direction _ | .decodeBufferCount _ | .discardPtoD _ | .discardDtoM | .terminate => isTrue trivial

/-! ### The invariant -/

/-- What is before the expected index belongs to a frame or has been passed; the buffer that is leaving is
not before it. -/
structure Advancing (s : StageState) : Prop where
  ahead : s.Ahead
  distinct : s.Distinct
  collapse : s.displayIndicesCollapse < invalidIndex
  left : ∀ d ∈ s.departures, d.displayFrameIndex < invalidIndex
  passed : ∀ j < s.desiredFrameIndex, j ∈ s.indices ∨ s.Passed j
  hand : ∀ e ∈ s.hand, s.index e < invalidIndex ∧ s.desiredFrameIndex ≤ s.index e

section Advancing

variable {s t : StageState} {e : Entry} {label : Label}

/-- The expected index is not above one that is fresh and has not been passed. -/
theorem Advancing.desired_le (h : s.Advancing) {j : ℕ} (hfresh : j ∉ s.indices) (hpassed : ¬ s.Passed j) :
    s.desiredFrameIndex ≤ j := by
  by_contra hlt
  exact (h.passed j (by omega)).elim hfresh hpassed

theorem Advancing.not_passed (h : s.Advancing) {j : ℕ} (hj : invalidIndex - 1 ≤ j) : ¬ s.Passed j := by
  rintro (⟨d, hd, hlt⟩ | hlt)
  · have hleft := h.left d hd
    omega
  · have hcollapse := h.collapse
    omega

/-- A buffer that comes in time and goes out at once has the expected index. -/
theorem Advancing.desired_le_arrival (h : s.Advancing) {j : ℕ} (hindex : s.MayGive j)
    (harrives : s.ArrivesInTime j) (hle : j ≤ s.desiredFrameIndex) :
    j < invalidIndex ∧ s.desiredFrameIndex ≤ j := by
  obtain ⟨-, hpassed, hlast⟩ := harrives
  rcases hindex with rfl | ⟨hvalid, hfresh⟩
  · have hgone : s.desiredFrameIndex ≤ invalidIndex - 1 :=
      h.desired_le (hlast rfl) (h.not_passed (Nat.le_refl _))
    have hconstant : invalidIndex = 0xffffffff := rfl
    omega
  · exact ⟨hvalid, h.desired_le hfresh hpassed⟩

theorem Advancing.keepsAhead (h : s.Advancing) (hlabel : s.GivesInTime label) (hstep : s.Steps label t) :
    s.KeepsAhead label := by
  cases hstep with
  | skip hphase | record index collapse hindex => exact hlabel
  | decoded a hphase hmarker hindex hnumber =>
    intro hreordered hlt
    obtain ⟨hroom, hpassed, -⟩ := hlabel hreordered
    exact ⟨hroom, Nat.le_of_not_lt fun hcollapse => hpassed (.inr hcollapse)⟩
  | assign buffer index hnone hvalid hfresh =>
    constructor
    · intro e he hbuffer
      obtain ⟨hpassed, hhand⟩ := hlabel e he hbuffer
      refine ⟨h.desired_le hfresh hpassed, Nat.le_of_not_lt fun hcollapse => hpassed (.inr hcollapse), ?_⟩
      exact fun e' he' => Nat.le_trans (Nat.mod_le _ _) (hhand e' he')
    · intro e he hbuffer
      have hvalid' := (h.hand e he).1
      unfold StageState.index at hvalid'
      rw [hbuffer, hnone] at hvalid'
      exact absurd hvalid' (Nat.lt_irrefl _)
  | _ => exact trivial

/-! ### The steps -/

/-- What was passed still is. -/
theorem Passed.mono {j : ℕ} (h : s.Passed j) (hdepartures : ∀ d ∈ s.departures, d ∈ t.departures)
    (hcollapse : s.displayIndicesCollapse ≤ t.displayIndicesCollapse) : t.Passed j :=
  h.imp (fun ⟨d, hd, hlt⟩ => ⟨d, hdepartures d hd, hlt⟩) fun hlt => Nat.lt_of_lt_of_le hlt hcollapse

/-- The expected index and the departures stay. -/
structure Stays (s t : StageState) : Prop where
  desired : t.desiredFrameIndex = s.desiredFrameIndex
  departures : t.departures = s.departures
  indices : ∀ j ∈ s.indices, j ∈ t.indices
  collapse : s.displayIndicesCollapse ≤ t.displayIndicesCollapse

theorem Stays.of_eq (hdesired : t.desiredFrameIndex = s.desiredFrameIndex)
    (hdepartures : t.departures = s.departures) (hindices : t.indices = s.indices)
    (hcollapse : t.displayIndicesCollapse = s.displayIndicesCollapse) : s.Stays t :=
  ⟨hdesired, hdepartures, fun _ hj => hindices ▸ hj, Nat.le_of_eq hcollapse.symm⟩

theorem Advancing.stay (h : s.Advancing) (hstays : s.Stays t) (hahead : t.Ahead) (hd : t.Distinct)
    (hcollapse : t.displayIndicesCollapse < invalidIndex)
    (hhand : ∀ e ∈ t.hand, t.index e < invalidIndex ∧ s.desiredFrameIndex ≤ t.index e) : t.Advancing where
  ahead := hahead
  distinct := hd
  collapse := hcollapse
  left := hstays.departures ▸ h.left
  passed := by
    rw [hstays.desired]
    intro j hj
    exact (h.passed j hj).imp (hstays.indices j) fun hpassed =>
      hpassed.mono (fun d hd => hstays.departures ▸ hd) hstays.collapse
  hand := hstays.desired ▸ hhand

theorem cleanUp_stays (s : StageState) : s.Stays s.cleanUp ∧ s.cleanUp.hand = [] ∧
    s.cleanUp.displayIndicesCollapse = s.displayIndicesCollapse := by
  obtain ⟨records, removals, heq⟩ := s.cleanUp_eq
  rw [heq]
  exact ⟨.of_eq rfl rfl rfl rfl, rfl, rfl⟩

/-- A scan takes a buffer that has an index, and leaves the rest alone. -/
theorem scan_stays (s : StageState) : s.Stays s.scan ∧
    s.scan.displayIndicesCollapse = s.displayIndicesCollapse ∧
    ∀ e ∈ s.scan.hand, s.scan.index e = s.index e ∧ e ∈ s.waiting ∧ s.index e ≠ invalidIndex := by
  unfold scan
  split
  next =>
    obtain ⟨hstays, hhand, hcollapse⟩ := s.cleanUp_stays
    refine ⟨hstays, hcollapse, fun e he => ?_⟩
    rw [hhand] at he
    cases he
  next =>
    split
    next => exact ⟨.of_eq rfl rfl rfl rfl, rfl, fun e he => absurd he List.not_mem_nil⟩
    next =>
      split
      next => exact ⟨.of_eq rfl rfl rfl rfl, rfl, fun e he => absurd he List.not_mem_nil⟩
      next slot e hlowest =>
        split
        next =>
          refine ⟨.of_eq rfl rfl rfl rfl, rfl, fun e' he' => ?_⟩
          obtain rfl : e' = e := List.mem_singleton.mp he'
          obtain ⟨hslot, hvalid, -⟩ := lowest_some hlowest
          exact ⟨rfl, (Slots.set_none_perm hslot).mem_iff.mpr List.mem_cons_self, hvalid⟩
        next => exact ⟨.of_eq rfl rfl rfl rfl, rfl, fun e he => absurd he List.not_mem_nil⟩

/-- A buffer that has arrived goes out at once only when its index is not above the expected one, or the
table is full. -/
theorem place_stays (s : StageState) (a : Arrival) (e : Entry) : s.Stays (s.place a e) ∧
    (s.place a e).displayIndicesCollapse = s.displayIndicesCollapse ∧
    ∀ e' ∈ (s.place a e).hand, (s.place a e).index e' = s.index e' ∧ e' = e ∧ a.reordered = true ∧
      (a.parameters.displayFrameIndex ≤ s.desiredFrameIndex ∨ s.waiting.length = s.table.length) := by
  unfold place
  split
  next => exact ⟨.of_eq rfl rfl rfl rfl, rfl, fun e he => absurd he List.not_mem_nil⟩
  next hattached =>
    dsimp only
    split
    next => exact ⟨.of_eq rfl rfl rfl rfl, rfl, fun e he => absurd he List.not_mem_nil⟩
    next hmarker =>
      split
      next => exact ⟨.of_eq rfl rfl rfl rfl, rfl, fun e he => absurd he List.not_mem_nil⟩
      next hfound =>
        have hreordered := reordered_of_not hattached hmarker hfound
        split
        next hle =>
          exact ⟨.of_eq rfl rfl rfl rfl, rfl, fun e' he' =>
            ⟨rfl, List.mem_singleton.mp he', hreordered, .inl hle⟩⟩
        next =>
          split
          next => exact ⟨.of_eq rfl rfl rfl rfl, rfl, fun e he => absurd he List.not_mem_nil⟩
          next hfull =>
            exact ⟨.of_eq rfl rfl rfl rfl, rfl, fun e' he' =>
              ⟨rfl, List.mem_singleton.mp he', hreordered, .inr (Slots.insert_eq_none_iff.mp hfull)⟩⟩

/-- What is skipped is found in a record, or holes are collapsed beyond it. -/
theorem Advancing.skip (h : s.Advancing) (hphase : s.phase = .skip) (hahead : s.skip.Ahead)
    (hd : s.skip.Distinct) : s.skip.Advancing ∧ s.desiredFrameIndex ≤ s.skip.desiredFrameIndex := by
  have hhand : s.hand = [] := hand_in_loop (.inr (.inl hphase))
  have hsound := check_sound h.distinct.sound
  have hconstant : invalidIndex + 1 = 2 ^ 32 := rfl
  have hpassed : ∀ j, s.Passed j → s.skip.Passed j := by
    intro j hj
    refine hj.mono ?_ ?_
    · unfold StageState.skip
      split <;> exact fun d hd => hd
    · unfold StageState.skip
      split <;> exact s.le_check_collapse
  unfold StageState.skip at hahead hd hpassed ⊢
  split at hahead
  next hskip =>
    rw [if_pos hskip] at hd hpassed ⊢
    have hdesired : s.desiredFrameIndex < invalidIndex ∧
        (s.desiredFrameIndex ∈ s.indices ∨ s.desiredFrameIndex < s.check.collapse) := by
      rcases (Bool.or_eq_true _ _).mp hskip with hfound | hcollapsed
      · have hlt := hsound.found hfound
        have hone := s.check_count s.desiredFrameIndex
        rw [if_pos ⟨hfound, rfl⟩] at hone
        exact ⟨hlt, .inl (h.distinct.separate _ (Nat.ne_of_lt hlt) (by omega)).1⟩
      · have hlt : s.desiredFrameIndex < s.check.collapse :=
          of_decide_eq_true (Bool.and_eq_true_iff.mp hcollapsed).2
        exact ⟨Nat.lt_trans hlt (hsound.collapse h.collapse), .inr hlt⟩
    have hmod : (s.desiredFrameIndex + 1) % 2 ^ 32 = s.desiredFrameIndex + 1 :=
      Nat.mod_eq_of_lt (by omega)
    refine ⟨⟨hahead, hd, hsound.collapse h.collapse, h.left, ?_, ?_⟩, ?_⟩
    · intro j hj
      rw [hmod] at hj
      rcases Nat.lt_succ_iff_lt_or_eq.mp hj with hlt | rfl
      · exact (h.passed j hlt).imp_right (hpassed j)
      · exact hdesired.2.imp_right .inr
    · intro e he
      have hmem : e ∈ s.hand := he
      rw [hhand] at hmem
      cases hmem
    · rw [hmod]
      exact Nat.le_succ _
  next hskip =>
    rw [if_neg hskip] at hd hpassed ⊢
    exact ⟨⟨hahead, hd, hsound.collapse h.collapse, h.left,
      fun j hj => (h.passed j hj).imp_right (hpassed j), fun e he => absurd he List.not_mem_nil⟩, Nat.le_refl _⟩

/-- The expected index is behind the buffer that leaves, and what is before it has been passed. -/
theorem Advancing.output (h : s.Advancing) (outcome : Outcome) (hphase : s.phase = .output e)
    (hahead : (s.output e outcome).Ahead) (hd : (s.output e outcome).Distinct) :
    (s.output e outcome).Advancing ∧ s.desiredFrameIndex ≤ (s.output e outcome).desiredFrameIndex := by
  have hmem : e ∈ s.hand := by
    unfold StageState.hand
    rw [hphase]
    exact List.mem_singleton_self e
  obtain ⟨hvalid, hle⟩ := h.hand e hmem
  unfold StageState.output at hahead hd ⊢
  split at hahead
  next hend =>
    rw [if_pos hend] at hd ⊢
    exact ⟨h.stay (.of_eq rfl rfl rfl rfl) hahead hd h.collapse fun e' he' => absurd he' List.not_mem_nil,
      Nat.le_refl _⟩
  next hrunning =>
    rw [if_neg hrunning] at hd ⊢
    have hconstant : invalidIndex + 1 = 2 ^ 32 := rfl
    have hmod : (s.index e + 1) % 2 ^ 32 = s.index e + 1 := Nat.mod_eq_of_lt (by omega)
    refine ⟨⟨hahead, hd, h.collapse, ?_, ?_, fun e' he' => absurd he' List.not_mem_nil⟩, ?_⟩
    · intro d hd
      rcases List.mem_append.mp hd with hold | hlast
      · exact h.left d hold
      · obtain rfl := List.mem_singleton.mp hlast
        exact hvalid
    · intro j hj
      rw [hmod] at hj
      rcases Nat.lt_succ_iff_lt_or_eq.mp hj with hlt | rfl
      · exact .inr (.inl ⟨s.departure e, List.mem_append_right _ (List.mem_singleton_self _), hlt⟩)
      · have hgiven := h.distinct.given e (List.mem_append_left _ hmem)
        exact .inl (hgiven.resolve_left (Nat.ne_of_lt hvalid))
    · dsimp only
      omega

theorem record_stays {index : ℕ} (hindex : s.MayGive index) (collapse : Bool)
    (h : s.displayIndicesCollapse < invalidIndex) :
    s.Stays (recordNonDecodedFrame { s with indices := s.giveOut index } index collapse) ∧
      (recordNonDecodedFrame { s with indices := s.giveOut index } index collapse).displayIndicesCollapse <
        invalidIndex := by
  have hindices : ∀ j ∈ s.indices, j ∈ s.giveOut index := fun j hj => mem_giveOut.mpr (.inl hj)
  unfold recordNonDecodedFrame
  dsimp only
  split
  next => exact ⟨⟨rfl, rfl, hindices, Nat.le_refl _⟩, h⟩
  next =>
    split
    next hreleased =>
      have hvalid : index ≠ invalidIndex := bne_iff_ne.mp (Bool.and_eq_true_iff.mp hreleased).1
      have hlt : index < invalidIndex := (hindex.resolve_left hvalid).1
      exact ⟨⟨rfl, rfl, hindices, Nat.le_max_left _ _⟩, Nat.max_lt.mpr ⟨h, hlt⟩⟩
    next => exact ⟨⟨rfl, rfl, hindices, Nat.le_refl _⟩, h⟩

theorem Advancing.step (h : s.Advancing) (hlabel : s.GivesInTime label) (hstep : s.Steps label t) :
    t.Advancing ∧ s.desiredFrameIndex ≤ t.desiredFrameIndex := by
  have hahead := h.ahead.step h.distinct (h.keepsAhead hlabel hstep) hstep
  have hd := h.distinct.step hstep
  cases hstep with
  | scan hphase =>
    obtain ⟨hstays, hcollapse, hhand⟩ := s.scan_stays
    refine ⟨h.stay hstays hahead hd (hcollapse ▸ h.collapse) fun e he => ?_, Nat.le_of_eq hstays.desired.symm⟩
    obtain ⟨heq, hmem, hvalid⟩ := hhand e he
    rw [heq]
    have hle := h.distinct.le_invalid (List.mem_append_right _ hmem)
    exact ⟨Nat.lt_of_le_of_ne hle hvalid, h.ahead.desired e hmem hvalid⟩
  | skip hphase => exact h.skip hphase hahead hd
  | decoded a hphase hmarker hindex hnumber =>
    have harrive : ∀ j ∈ s.indices, j ∈ s.giveOut a.parameters.displayFrameIndex :=
      fun j hj => mem_giveOut.mpr (.inl hj)
    unfold extract at hahead hd ⊢
    dsimp only at hahead hd ⊢
    split at hahead
    next hend =>
      rw [if_pos hend] at hd ⊢
      exact ⟨h.stay ⟨rfl, rfl, harrive, Nat.le_refl _⟩ hahead hd h.collapse fun e he =>
        absurd he List.not_mem_nil, Nat.le_refl _⟩
    next hrunning =>
      rw [if_neg hrunning] at hd ⊢
      obtain ⟨hstays, hcollapse, hhand⟩ :=
        (s.arrive a).place_stays a ⟨s.arrivals.length, a.sequenceNumber⟩
      refine ⟨h.stay ?_ hahead hd (hcollapse ▸ h.collapse) fun e he => ?_, Nat.le_of_eq hstays.desired.symm⟩
      · exact ⟨hstays.desired, hstays.departures, fun j hj => hstays.indices j (harrive j hj),
          hstays.collapse⟩
      · obtain ⟨heq, rfl, hreordered, hplace⟩ := hhand e he
        have htime := hlabel hreordered
        rw [heq, arrive_index_self]
        refine h.desired_le_arrival hindex htime (hplace.resolve_right fun hfull => ?_)
        exact Nat.ne_of_lt htime.1 hfull
  | output e outcome hphase => exact h.output outcome hphase hahead hd
  | assign buffer index hnone hvalid hfresh =>
    refine ⟨h.stay ⟨rfl, rfl, fun j hj => List.mem_cons_of_mem _ hj, Nat.le_refl _⟩ hahead hd h.collapse
      fun e he => ?_, Nat.le_refl _⟩
    obtain ⟨hlt, hle⟩ := h.hand e he
    rw [assign_index, if_neg]
    · exact ⟨hlt, hle⟩
    · intro hbuffer
      unfold StageState.index at hlt
      rw [hbuffer, hnone] at hlt
      exact Nat.lt_irrefl _ hlt
  | assignNonDecoded slot index r hslot hheld hnone hvalid hfresh =>
    exact ⟨h.stay ⟨rfl, rfl, fun j hj => List.mem_cons_of_mem _ hj, Nat.le_refl _⟩ hahead hd h.collapse h.hand,
      Nat.le_refl _⟩
  | record index collapse hindex =>
    obtain ⟨hstays, hcollapse⟩ := record_stays hindex collapse h.collapse
    obtain ⟨records, insertions, collapse', heq⟩ :=
      recordNonDecodedFrame_eq { s with indices := s.giveOut index } index collapse
    refine ⟨h.stay hstays hahead hd hcollapse ?_, Nat.le_of_eq hstays.desired.symm⟩
    rw [heq]
    exact h.hand
  | passMarker e hphase hmarker | nothing hphase hmarker =>
    exact ⟨h.stay (.of_eq rfl rfl rfl rfl) hahead hd h.collapse fun e he => absurd he List.not_mem_nil,
      Nat.le_refl _⟩
  | control m hphase hmarker =>
    unfold extract at hahead hd ⊢
    dsimp only at hahead hd ⊢
    split at hahead
    next hend =>
      rw [if_pos hend] at hd ⊢
      exact ⟨h.stay (.of_eq rfl rfl rfl rfl) hahead hd h.collapse fun e he => absurd he List.not_mem_nil,
        Nat.le_refl _⟩
    next hrunning =>
      rw [if_neg hrunning] at hd ⊢
      exact ⟨h.stay (.of_eq rfl rfl rfl rfl) hahead hd h.collapse fun e he => absurd he List.not_mem_nil,
        Nat.le_refl _⟩
  | _ => exact ⟨h.stay (.of_eq rfl rfl rfl rfl) hahead hd h.collapse h.hand, Nat.le_refl _⟩

theorem start_advancing (n : ℕ) : (start n).Advancing where
  ahead := start_ahead n
  distinct := start_distinct n
  collapse := (by decide : 0 < invalidIndex)
  left d hd := absurd hd List.not_mem_nil
  passed j hj := absurd hj (Nat.not_lt_zero j)
  hand e he := absurd he List.not_mem_nil

end Advancing

/-! ### Runs -/

/-- **The expected index never decreases** in a run in which buffers come, and get their indices, in time,
and holes are collapsed only where no buffer waits. -/
theorem run_advances {n : ℕ} {labels : List Label} (hlabels : Lts.Along step GivesInTime (start n) labels) :
    Lts.Along step Advances (start n) labels :=
  Lts.along_of_along (J := Advancing) (fun _ _ _ hs hlabel hstep => (hs.step hlabel (steps_of_step hstep)).1)
    (fun _ _ hs hlabel _ hstep => (hs.step hlabel (steps_of_step hstep)).2) (start_advancing n) hlabels

/-- The buffers arrive the wrong way round, but for one that is missing; the table is not filled up. -/
def threeReordered : List Label :=
  [.scan, .skip, .extract (bufferItem 0 1), .scan, .skip, .extract (bufferItem 1 0), .output .queued, .scan,
    .output .queued, .recordNonDecodedFrame 2 false, .scan, .skip, .skip, .extract (bufferItem 2 3),
    .output .queued]

/-- `run_advances` over the buffers. -/
theorem run_advances_threeReordered :
    (Lts.run step (start 8) threeReordered).map desiredFrameIndex = some 4 ∧
      Lts.Along step Advances (start 8) threeReordered := by
  have hlabels : Lts.Along step GivesInTime (start 8) threeReordered := by decide +kernel
  exact ⟨by decide +kernel, run_advances hlabels⟩

/-- The table fills up to the limit before the first buffer comes. -/
def firstComesLate : List Label :=
  [.scan, .skip, .extract (bufferItem 0 1), .scan, .skip, .extract (bufferItem 1 2), .scan, .skip,
    .extract (bufferItem 2 3), .scan, .output .queued, .scan, .output .queued, .scan, .output .queued, .scan,
    .skip, .extract (bufferItem 3 0), .output .queued]

/-- The late buffer takes the expected index back from 4 to 1. -/
theorem not_run_advances_firstComesLate :
    ¬ ∀ (n : ℕ) (labels : List Label), (Lts.run step (start n) labels).isSome = true →
      Lts.Along step Advances (start n) labels := by
  intro hall
  have hnot : ¬ Lts.Along step Advances (start 6) firstComesLate := by decide +kernel
  exact hnot (hall 6 firstComesLate (by decide +kernel))

end StageState
end Player2.DecodeToManifest

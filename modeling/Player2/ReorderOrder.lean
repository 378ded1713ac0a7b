import Player2.ReorderDistinct

/-! # The order in which the decode buffers leave

As long as a forward run is not disturbed (the table does not fill up to `MaxDecodesOutOfOrder`, no marker
frame comes, no hole in the indices is collapsed), the process knows the indices up to the expected one: each
of them belonged to a buffer that has left or to a frame that was recorded.  `Ordered` says so, and that
whatever has an index still has a higher one.  The expected index is a 32-bit number; the frontier that it
stands for is not. -/

namespace Player2.DecodeToManifest

namespace StageState

/-! ### Undisturbed runs -/

/-- The lowest buffer is not taken over a hole because its parameters say so. -/
def NoHole (s : StageState) : Option (ℕ × Entry) → Prop
  | none => True
  | some l => (s.parameters l.2.buffer).collapseHolesInDisplayIndices = true →
      s.index l.2 ≤ s.desiredFrameIndex

instance (s : StageState) : (low : Option (ℕ × Entry)) → Decidable (s.NoHole low)
  | none => isTrue trivial
  | some _ => inferInstanceAs (Decidable (_ → _))

/-- The number of buffers that wait is below the limit, in forward play. -/
def BelowLimit (s : StageState) : Prop := s.playForward = true ∧ s.occupancy < s.maxDecodesOutOfOrder

instance (s : StageState) : Decidable s.BelowLimit := inferInstanceAs (Decidable (_ ∧ _))

/-- A step of a forward run that is not disturbed. -/
def Undisturbed (s : StageState) : Label → Prop
  | .scan => s.terminating = false → s.BelowLimit ∧ s.NoHole s.lowest
  | .skip => s.collapsed = false
  | .extract (.decoded a) => a.markerFrame = false ∧ s.BelowLimit
  | _ => True

instance (s : StageState) (label : Label) : Decidable (s.Undisturbed label) :=
  match label with
  | .scan => inferInstanceAs (Decidable (_ → _ ∧ _))
  | .skip => inferInstanceAs (Decidable (_ = _))
  | .extract (.decoded _) => inferInstanceAs (Decidable (_ ∧ _))
  | .extract .nothing | .extract (.control _) | .passMarker | .output _ | .assign _ _
  | .assignNonDecoded _ _ | .recordNonDecodedFrame _ _ | .direction _ | .decodeBufferCount _
  | .discardPtoD _ | .discardDtoM | .terminate => isTrue trivial

/-! ### The invariant -/

/-- The order before the frontier `f`, which the expected index stands for. -/
structure Ordered (f : ℕ) (s : StageState) : Prop where
  frontier : f ≤ 2 ^ 32 ∧ s.desiredFrameIndex = f % 2 ^ 32
  covered : ∀ j, j < f → j < invalidIndex → j ∈ s.indices
  above : ∀ e ∈ s.owners, s.index e = invalidIndex ∨ f ≤ s.index e
  inHand : ∀ e ∈ s.hand, s.index e = f
  ahead : ∀ j, j ≠ invalidIndex → 0 < s.recorded j → f ≤ j
  noMarker : s.markerFrameBuffer = none
  capacity : s.possibleDecodeBuffers ≤ s.table.length
  increasing : (s.departures.map Departure.displayFrameIndex).Pairwise (· < ·)
  behind : ∀ d ∈ s.departures, d.displayFrameIndex < f

variable {f : ℕ} {s t : StageState}

theorem Ordered.le_of_fresh (h : s.Ordered f) {j : ℕ} (hvalid : j < invalidIndex)
    (hfresh : j ∉ s.indices) : f ≤ j := by
  by_contra hlt
  exact hfresh (h.covered j (by omega) hvalid)

theorem Ordered.desired_le (h : s.Ordered f) : s.desiredFrameIndex ≤ f := by
  rw [h.frontier.2]
  exact Nat.mod_le f _

theorem BelowLimit.lt_length (h : s.BelowLimit)
    (hcapacity : s.possibleDecodeBuffers ≤ s.table.length) : s.occupancy < s.table.length := by
  obtain ⟨hforward, hlt⟩ := h
  have hle : s.maxDecodesOutOfOrder ≤ s.possibleDecodeBuffers / 2 := by
    unfold maxDecodesOutOfOrder
    simp only [hforward, if_true]
    exact Nat.le_trans (Nat.min_le_right _ _) (Nat.min_le_right _ _)
  omega

/-! ### The steps -/

section Ordered

variable {f : ℕ} {s t : StageState} {e : Entry}

theorem Ordered.frame (h : s.Ordered f) (hhand : t.hand = s.hand) (htable : t.table = s.table)
    (hparameters : t.parameters = s.parameters) (hdesired : t.desiredFrameIndex = s.desiredFrameIndex)
    (hindices : t.indices = s.indices) (hrecords : t.nonDecodedBuffers = s.nonDecodedBuffers)
    (hmarker : t.markerFrameBuffer = s.markerFrameBuffer)
    (hpossible : t.possibleDecodeBuffers ≤ t.table.length) (hdepartures : t.departures = s.departures) :
    t.Ordered f := by
  have howners : t.owners = s.owners := by
    unfold owners waiting
    rw [hhand, htable]
  have hindex : t.index = s.index := by
    funext e
    unfold index
    rw [hparameters]
  have hrecorded : t.recorded = s.recorded := by
    funext j
    unfold recorded
    rw [hrecords]
  constructor
  case frontier => rw [hdesired]; exact h.frontier
  case covered => rw [hindices]; exact h.covered
  case above => rw [howners, hindex]; exact h.above
  case inHand => rw [hhand, hindex]; exact h.inHand
  case ahead => rw [hrecorded]; exact h.ahead
  case noMarker => rw [hmarker]; exact h.noMarker
  case capacity => exact hpossible
  case increasing => rw [hdepartures]; exact h.increasing
  case behind => rw [hdepartures]; exact h.behind

variable {slot : ℕ}

theorem Ordered.take (h : s.Ordered f) (hhand : s.hand = [])
    (hslot : s.table[slot]? = some (some e)) (hindex : s.index e = f) : (s.take slot e).Ordered f := by
  have hperm : (s.take slot e).owners.Perm s.owners := by
    unfold owners
    rw [hhand, List.nil_append]
    exact (Slots.set_none_perm hslot).symm
  constructor
  case frontier => exact h.frontier
  case covered => exact h.covered
  case above => exact fun e' he' => h.above e' (hperm.mem_iff.mp he')
  case inHand =>
    intro e' he'
    obtain rfl : e' = e := List.mem_singleton.mp he'
    exact hindex
  case ahead => exact h.ahead
  case noMarker => exact h.noMarker
  case capacity =>
    change _ ≤ (s.table.set slot none).length
    rw [List.length_set]
    exact h.capacity
  case increasing => exact h.increasing
  case behind => exact h.behind

/-! ### Scans and skips -/

theorem Ordered.index_of_releases (h : s.Ordered f) (hlowest : s.lowest = some (slot, e))
    (hbelow : s.BelowLimit) (hole : s.NoHole s.lowest) (hreleases : s.releases e = true) :
    s.index e = f := by
  obtain ⟨hslot, hvalid, -⟩ := lowest_some hlowest
  have hmem : e ∈ s.owners := by
    exact List.mem_append_right _ ((Slots.set_none_perm hslot).mem_iff.mpr (List.mem_cons_self ..))
  have hdesired : s.index e ≤ s.desiredFrameIndex := by
    unfold releases at hreleases
    rw [h.noMarker, Option.isSome_none, Bool.or_false, Bool.or_eq_true, Bool.or_eq_true, beq_iff_eq,
      decide_eq_true_eq] at hreleases
    rw [hlowest] at hole
    rcases hreleases with (heq | hfull) | hcollapse
    · exact Nat.le_of_eq heq
    · have hlt := hbelow.2
      omega
    · exact hole hcollapse
  have hle := h.desired_le
  have hge := (h.above e hmem).resolve_left hvalid
  omega

theorem Ordered.scan (h : s.Ordered f) (hphase : s.phase = .scan) (hundisturbed : s.Undisturbed .scan) :
    s.scan.phase = .terminated ∧ s.scan.departures = s.departures ∨ s.scan.Ordered f := by
  have hhand : s.hand = [] := hand_in_loop (.inl hphase)
  unfold StageState.scan
  split
  next =>
    left
    obtain ⟨records, removals, heq⟩ := s.cleanUp_eq
    rw [heq]
    exact ⟨rfl, rfl⟩
  next hrunning =>
    right
    obtain ⟨hbelow, hole⟩ := hundisturbed (Bool.eq_false_iff.mpr hrunning)
    split
    next => exact h.frame hhand.symm rfl rfl rfl rfl rfl rfl h.capacity rfl
    next =>
      split
      next => exact h.frame hhand.symm rfl rfl rfl rfl rfl rfl h.capacity rfl
      next slot e hlowest =>
        split
        next hreleases =>
          refine Ordered.take ?_ hhand (lowest_some hlowest).1
            (h.index_of_releases hlowest hbelow hole hreleases)
          exact h.frame rfl rfl rfl rfl rfl rfl rfl h.capacity rfl
        next => exact h.frame hhand.symm rfl rfl rfl rfl rfl rfl h.capacity rfl

/-- The records are checked; if the index of the frontier was found, the frontier moves. -/
theorem Ordered.skip (h : s.Ordered f) (hd : s.Distinct) (hphase : s.phase = .skip)
    (hundisturbed : s.collapsed = false) : ∃ f', s.skip.Ordered f' := by
  have hhand : s.hand = [] := hand_in_loop (.inr (.inl hphase))
  have hsound := check_sound hd.sound
  have hcount : ∀ j, (s.check.records.reduceOption.map NonDecodedFrame.displayFrameIndex).count j ≤
      s.recorded j := fun j => Nat.le_trans (Nat.le_add_right _ _) (s.check_count j)
  have hahead : ∀ j, j ≠ invalidIndex →
      0 < (s.check.records.reduceOption.map NonDecodedFrame.displayFrameIndex).count j → f ≤ j :=
    fun j hj hpos => h.ahead j hj (Nat.lt_of_lt_of_le hpos (hcount j))
  have howners : s.owners = s.waiting := by
    unfold owners
    rw [hhand, List.nil_append]
  unfold StageState.skip
  rw [hundisturbed, Bool.or_false]
  split
  next hcheck =>
    -- the index that was found is not below the frontier, and it is the expected one
    have hone := s.check_count s.desiredFrameIndex
    rw [if_pos ⟨hcheck, rfl⟩] at hone
    have hlt := hsound.found hcheck
    have hge := h.ahead s.desiredFrameIndex (Nat.ne_of_lt hlt) (by omega)
    obtain ⟨hgiven, hother⟩ := hd.separate s.desiredFrameIndex (Nat.ne_of_lt hlt) (by omega)
    have hdesired : s.desiredFrameIndex = f := Nat.le_antisymm h.desired_le hge
    have hbound : invalidIndex < 2 ^ 32 := by decide
    have hgone := s.check_count f
    rw [if_pos ⟨hcheck, hdesired.symm⟩] at hgone
    have honce := hd.once f (by omega)
    refine ⟨f + 1, ?_⟩
    constructor
    case frontier =>
      refine ⟨by omega, ?_⟩
      rw [hdesired]
    case covered =>
      intro j hj hjvalid
      rcases Nat.lt_succ_iff_lt_or_eq.mp hj with hlt | heq
      · exact h.covered j hlt hjvalid
      · rw [heq, ← hdesired]
        exact hgiven
    case above =>
      intro e he
      have hne : s.index e ≠ s.desiredFrameIndex := hother e he
      refine (h.above e he).imp_right fun hle => ?_
      change f + 1 ≤ s.index e
      omega
    case inHand =>
      intro e he
      have hmem : e ∈ s.hand := he
      rw [hhand] at hmem
      cases hmem
    case ahead =>
      intro j hj hpos
      have hle := hahead j hj hpos
      have hposition : 0 < (s.check.records.reduceOption.map NonDecodedFrame.displayFrameIndex).count j :=
        hpos
      have hne : j ≠ f := by
        rintro rfl
        omega
      omega
    case noMarker => exact h.noMarker
    case capacity => exact h.capacity
    case increasing => exact h.increasing
    case behind => exact fun d hd => Nat.lt_succ_of_lt (h.behind d hd)
  next =>
    refine ⟨f, h.frontier, h.covered, ?_, fun e he => absurd he List.not_mem_nil, hahead, h.noMarker,
      h.capacity, h.increasing, h.behind⟩
    exact fun e he => h.above e (howners ▸ he)

/-! ### Arrivals -/

theorem Ordered.arrive (h : s.Ordered f) (hd : s.Distinct) (a : Arrival) : (s.arrive a).Ordered f := by
  have hold : ∀ e ∈ s.owners, (s.arrive a).index e = s.index e := fun e he => arrive_index a (hd.bound e he)
  constructor
  case frontier => exact h.frontier
  case covered => exact fun j hj hvalid => mem_giveOut.mpr (.inl (h.covered j hj hvalid))
  case above =>
    intro e he
    rw [hold e he]
    exact h.above e he
  case inHand =>
    intro e he
    rw [hold e (List.mem_append_left _ he)]
    exact h.inHand e he
  case ahead => exact h.ahead
  case noMarker => exact h.noMarker
  case capacity => exact h.capacity
  case increasing => exact h.increasing
  case behind => exact h.behind

theorem Ordered.join (h : s.Ordered f) (hnew : s.index e = invalidIndex ∨ f ≤ s.index e)
    (howners : t.owners.Perm (e :: s.owners)) (hinHand : ∀ e' ∈ t.hand, t.index e' = f)
    (hparameters : t.parameters = s.parameters) (hdesired : t.desiredFrameIndex = s.desiredFrameIndex)
    (hindices : t.indices = s.indices) (hrecords : t.nonDecodedBuffers = s.nonDecodedBuffers)
    (hmarker : t.markerFrameBuffer = s.markerFrameBuffer)
    (hpossible : t.possibleDecodeBuffers ≤ t.table.length) (hdepartures : t.departures = s.departures) :
    t.Ordered f := by
  have hrecorded : t.recorded = s.recorded := by
    funext j
    unfold recorded
    rw [hrecords]
  constructor
  case frontier => rw [hdesired]; exact h.frontier
  case covered => rw [hindices]; exact h.covered
  case above =>
    intro e' he'
    unfold index
    rw [hparameters]
    rcases List.mem_cons.mp (howners.mem_iff.mp he') with rfl | hmem
    · exact hnew
    · exact h.above e' hmem
  case inHand => exact hinHand
  case ahead => rw [hrecorded]; exact h.ahead
  case noMarker => rw [hmarker]; exact h.noMarker
  case capacity => exact hpossible
  case increasing => rw [hdepartures]; exact h.increasing
  case behind => rw [hdepartures]; exact h.behind

theorem Ordered.index_of_le (h : s.Ordered f) {j : ℕ} (hindex : s.MayGive j)
    (hle : j ≤ s.desiredFrameIndex) : j = f := by
  have hdesired := h.desired_le
  rcases hindex with hinvalid | ⟨hvalid, hfresh⟩
  · -- the expected index is at most the invalid one, so the frontier has reached it
    obtain ⟨hbound, heq⟩ := h.frontier
    have hconstant : invalidIndex + 1 = 2 ^ 32 := rfl
    by_cases hlast : f = 2 ^ 32
    · omega
    · omega
  · have hge := h.le_of_fresh hvalid hfresh
    omega

theorem Ordered.decoded (h : s.Ordered f) (hd : s.Distinct) (hs : s.Occupied) (a : Arrival)
    (hphase : s.phase = .get) (hindex : s.MayGive a.parameters.displayFrameIndex)
    (hundisturbed : s.Undisturbed (.extract (.decoded a))) : (s.extract (.decoded a)).Ordered f := by
  obtain ⟨hnotMarker, hbelow⟩ := hundisturbed
  have hhand : s.hand = [] := hand_in_loop (.inr (.inr hphase))
  have harrive := h.arrive hd a
  have hself := s.arrive_index_self a a.sequenceNumber
  have hnew : (s.arrive a).index ⟨s.arrivals.length, a.sequenceNumber⟩ = invalidIndex ∨
      f ≤ (s.arrive a).index ⟨s.arrivals.length, a.sequenceNumber⟩ := by
    rw [hself]
    exact hindex.imp_right fun hgive => h.le_of_fresh hgive.1 hgive.2
  have howners : (s.arrive a).owners = s.waiting := by
    change s.hand ++ s.waiting = s.waiting
    rw [hhand, List.nil_append]
  have hscan : ∀ t : StageState, t.hand = [] → t.table = s.table → t.parameters = (s.arrive a).parameters →
      t.desiredFrameIndex = s.desiredFrameIndex → t.indices = (s.arrive a).indices →
      t.nonDecodedBuffers = s.nonDecodedBuffers → t.markerFrameBuffer = s.markerFrameBuffer →
      t.possibleDecodeBuffers ≤ t.table.length → t.departures = s.departures → t.Ordered f := by
    intro t hhand' htable hparameters hdesired hindices hrecords hmarker hpossible
    exact harrive.frame (hhand'.trans hhand.symm) htable hparameters hdesired hindices hrecords hmarker
      hpossible
  unfold StageState.extract
  dsimp only
  split
  next => exact hscan _ rfl rfl rfl rfl rfl rfl rfl h.capacity rfl
  next =>
    unfold StageState.place
    split
    next => exact hscan _ rfl rfl rfl rfl rfl rfl rfl h.capacity rfl
    next =>
      rw [hnotMarker, if_neg Bool.false_ne_true]
      split
      next => exact hscan _ rfl rfl rfl rfl rfl rfl rfl h.capacity rfl
      next =>
        split
        next hle =>
          refine harrive.join hnew ?_ ?_ rfl rfl rfl rfl rfl h.capacity rfl
          · rw [howners]
            exact List.Perm.refl _
          · intro e' he'
            obtain rfl := List.mem_singleton.mp he'
            exact hself.trans (h.index_of_le hindex hle)
        next =>
          split
          next table hinsert =>
            have hinsert' : Slots.insert s.table ⟨s.arrivals.length, a.sequenceNumber⟩ =
                some table := hinsert
            refine harrive.join hnew ?_ ?_ rfl rfl rfl rfl rfl ?_ rfl
            · rw [howners]
              exact Slots.insert_perm hinsert'
            · exact fun e' he' => absurd he' List.not_mem_nil
            · rw [Slots.insert_length hinsert']
              exact h.capacity
          next hfull =>
            -- below the limit the table has a free slot
            have hlt := hbelow.lt_length h.capacity
            have hcount : s.occupancy = s.table.reduceOption.length := hs
            have hall : s.table.reduceOption.length = s.table.length :=
              Slots.insert_eq_none_iff.mp hfull
            omega

/-! ### Departures -/

/-- The buffer behind the loop leaves, and the frontier moves. -/
theorem Ordered.output (h : s.Ordered f) (hd : s.Distinct) (outcome : Outcome)
    (hphase : s.phase = .output e) : ∃ f', (s.output e outcome).Ordered f' := by
  have hhand : s.hand = [e] := by
    unfold hand
    rw [hphase]
  have howners : s.owners = e :: s.waiting := by
    unfold owners
    rw [hhand]
    rfl
  have hmem : e ∈ s.owners := howners ▸ List.mem_cons_self
  have hkeep : ∀ e' ∈ s.waiting, e' ∈ s.owners := by
    exact fun e' he' => howners ▸ List.mem_cons_of_mem _ he'
  have hnodup := hd.nodup
  rw [howners, List.map_cons, List.nodup_cons] at hnodup
  have hindex : s.index e = f := h.inHand e (hhand ▸ List.mem_cons_self)
  unfold StageState.output
  split
  next =>
    exact ⟨f, h.frontier, h.covered, fun e' he' => h.above e' (hkeep e' he'),
      fun e' he' => absurd he' List.not_mem_nil, h.ahead, h.noMarker, h.capacity, h.increasing, h.behind⟩
  next =>
    have hconstant : invalidIndex + 1 = 2 ^ 32 := rfl
    have hlast : f ≤ invalidIndex := hindex ▸ hd.le_invalid hmem
    refine ⟨f + 1, ?_⟩
    constructor
    case frontier =>
      refine ⟨by omega, ?_⟩
      rw [hindex]
    case covered =>
      intro j hj hvalid
      rcases Nat.lt_succ_iff_lt_or_eq.mp hj with hlt | rfl
      · exact h.covered j hlt hvalid
      · rcases hd.given e hmem with hinvalid | hgiven
        · omega
        · exact hindex ▸ hgiven
    case above =>
      intro e' he'
      by_cases hinvalid : s.index e' = invalidIndex
      · exact .inl hinvalid
      · have hle := (h.above e' (hkeep e' he')).resolve_left hinvalid
        have hne : s.index e' ≠ f := by
          intro heq
          have hsame := hd.distinct e' (hkeep e' he') e hmem hinvalid (heq.trans hindex.symm)
          exact hnodup.1 (List.mem_map.mpr ⟨e', he', hsame⟩)
        right
        change f + 1 ≤ s.index e'
        omega
    case inHand => exact fun e' he' => absurd he' List.not_mem_nil
    case ahead =>
      intro j hj hpos
      have hle := h.ahead j hj hpos
      have hne : s.index e ≠ j := (hd.separate j hj hpos).2 e hmem
      omega
    case noMarker => exact h.noMarker
    case capacity => exact h.capacity
    case increasing =>
      rw [List.map_append, List.pairwise_append]
      refine ⟨h.increasing, List.pairwise_singleton _ _, ?_⟩
      intro i hi j hj
      obtain ⟨d, hd, rfl⟩ := List.mem_map.mp hi
      obtain rfl := List.mem_singleton.mp hj
      change d.displayFrameIndex < s.index e
      rw [hindex]
      exact h.behind d hd
    case behind =>
      intro d hd
      rcases List.mem_append.mp hd with hold | hlast
      · exact Nat.lt_succ_of_lt (h.behind d hold)
      · obtain rfl := List.mem_singleton.mp hlast
        change s.index e < f + 1
        omega

/-! ### The surroundings -/

theorem Ordered.assign (h : s.Ordered f) {buffer index : ℕ}
    (hnone : (s.parameters buffer).displayFrameIndex = invalidIndex) (hvalid : index < invalidIndex)
    (hfresh : index ∉ s.indices) : (s.assign buffer index).Ordered f := by
  have hge := h.le_of_fresh hvalid hfresh
  constructor
  case frontier => exact h.frontier
  case covered => exact fun j hj hjvalid => List.mem_cons_of_mem _ (h.covered j hj hjvalid)
  case above =>
    intro e he
    rw [assign_index]
    split
    next => exact .inr hge
    next => exact h.above e he
  case inHand =>
    intro e he
    have hfrontier : s.index e = f := h.inHand e he
    rw [assign_index]
    split
    next hsame =>
      have hinvalid : s.index e = invalidIndex := by
        unfold StageState.index
        rw [hsame]
        exact hnone
      omega
    next => exact hfrontier
  case ahead => exact h.ahead
  case noMarker => exact h.noMarker
  case capacity => exact h.capacity
  case increasing => exact h.increasing
  case behind => exact h.behind

theorem Ordered.recordIndex (h : s.Ordered f) {index : ℕ} (hindex : s.MayGive index)
    (hrecorded : ∀ j, t.recorded j ≤ s.recorded j + if j = index then 1 else 0)
    (hindices : t.indices = s.giveOut index) (hhand : t.hand = s.hand) (htable : t.table = s.table)
    (hparameters : t.parameters = s.parameters) (hdesired : t.desiredFrameIndex = s.desiredFrameIndex)
    (hmarker : t.markerFrameBuffer = s.markerFrameBuffer)
    (hpossible : t.possibleDecodeBuffers = s.possibleDecodeBuffers)
    (hdepartures : t.departures = s.departures) : t.Ordered f := by
  have howners : t.owners = s.owners := by
    unfold owners waiting
    rw [hhand, htable]
  have hsame : t.index = s.index := by
    funext e
    unfold StageState.index
    rw [hparameters]
  constructor
  case frontier => rw [hdesired]; exact h.frontier
  case covered =>
    intro j hj hvalid
    rw [hindices, mem_giveOut]
    exact .inl (h.covered j hj hvalid)
  case above => rw [howners, hsame]; exact h.above
  case inHand => rw [hhand, hsame]; exact h.inHand
  case ahead =>
    intro j hj hpos
    have hle := hrecorded j
    by_cases heq : j = index
    · obtain ⟨hvalid, hfresh⟩ := hindex.resolve_left (heq ▸ hj)
      exact heq ▸ h.le_of_fresh hvalid hfresh
    · rw [if_neg heq] at hle
      exact h.ahead j hj (by omega)
  case noMarker => rw [hmarker]; exact h.noMarker
  case capacity => rw [hpossible, htable]; exact h.capacity
  case increasing => rw [hdepartures]; exact h.increasing
  case behind => rw [hdepartures]; exact h.behind

end Ordered

/-! ### Runs -/

/-- The departures are in display order, and unless the process has ended the frontier is known. -/
def InOrder (s : StageState) : Prop :=
  (s.departures.map Departure.displayFrameIndex).Pairwise (· < ·) ∧
    (s.phase = .terminated ∨ ∃ f, s.Ordered f)

theorem Ordered.inOrder (h : s.Ordered f) : s.InOrder :=
  ⟨h.increasing, .inr ⟨f, h⟩⟩

variable {label : Label}

theorem Ordered.step (h : s.Ordered f) (hd : s.Distinct)
    (hs : s.Occupied) (hundisturbed : s.Undisturbed label) (hstep : s.Steps label t) : t.InOrder := by
  cases hstep with
  | scan hphase =>
    rcases h.scan hphase hundisturbed with ⟨hend, hdepartures⟩ | hordered
    · exact ⟨hdepartures ▸ h.increasing, .inl hend⟩
    · exact hordered.inOrder
  | skip hphase =>
    obtain ⟨f', hordered⟩ := h.skip hd hphase hundisturbed
    exact hordered.inOrder
  | passMarker e hphase hmarker =>
    rw [h.noMarker] at hmarker
    cases hmarker
  | nothing hphase hmarker =>
    refine Ordered.inOrder (f := f) ?_
    exact h.frame (hand_in_loop (.inr (.inr hphase))).symm rfl rfl rfl rfl rfl rfl h.capacity rfl
  | control m hphase hmarker =>
    have hhand := (hand_in_loop (.inr (.inr hphase))).symm
    refine Ordered.inOrder (f := f) ?_
    unfold extract
    dsimp only
    split
    next => exact h.frame hhand rfl rfl rfl rfl rfl rfl h.capacity rfl
    next => exact h.frame hhand rfl rfl rfl rfl rfl rfl h.capacity rfl
  | decoded a hphase hmarker hindex hnumber =>
    exact (h.decoded hd hs a hphase hindex hundisturbed).inOrder
  | output e outcome hphase =>
    obtain ⟨f', hordered⟩ := h.output hd outcome hphase
    exact hordered.inOrder
  | assign buffer index hnone hvalid hfresh => exact (h.assign hnone hvalid hfresh).inOrder
  | assignNonDecoded slot index r hslot hheld hnone hvalid hfresh =>
    refine Ordered.inOrder (f := f) ?_
    refine h.recordIndex (.inr ⟨hvalid, hfresh⟩) (set_recorded _ hslot) ?_ rfl rfl rfl rfl rfl rfl rfl
    unfold giveOut
    rw [if_neg (Nat.ne_of_lt hvalid)]
  | record index collapse hindex =>
    obtain ⟨records, insertions, collapse', heq⟩ :=
      recordNonDecodedFrame_eq { s with indices := s.giveOut index } index collapse
    refine Ordered.inOrder (f := f) ?_
    refine h.recordIndex hindex (s.record_recorded index collapse) ?_ ?_ ?_ ?_ ?_ ?_ ?_ ?_
    all_goals rw [heq]
    rfl
  | decodeBufferCount count hcount =>
    refine Ordered.inOrder (f := f) ?_
    exact h.frame rfl rfl rfl rfl rfl rfl rfl hcount rfl
  | direction _ | discardPtoD _ | discardDtoM | terminate =>
    refine Ordered.inOrder (f := f) ?_
    exact h.frame rfl rfl rfl rfl rfl rfl rfl h.capacity rfl

theorem terminated_step (hend : s.phase = .terminated)
    (hstep : s.Steps label t) : t.phase = .terminated ∧ t.departures = s.departures := by
  cases hstep with
  | scan hphase | skip hphase | passMarker _ hphase _ | nothing hphase _ | control _ hphase _
  | decoded _ hphase _ _ _ | output _ _ hphase =>
    rw [hend] at hphase
    cases hphase
  | record index collapse hindex =>
    obtain ⟨records, insertions, collapse', heq⟩ :=
      recordNonDecodedFrame_eq { s with indices := s.giveOut index } index collapse
    rw [heq]
    exact ⟨hend, rfl⟩
  | _ => exact ⟨hend, rfl⟩

theorem InOrder.step (h : s.InOrder) (hd : s.Distinct) (hs : s.Occupied)
    (hundisturbed : s.Undisturbed label) (hstep : s.Steps label t) : t.InOrder := by
  obtain ⟨hincreasing, hend | ⟨f, hordered⟩⟩ := h
  · obtain ⟨hend', hdepartures⟩ := terminated_step hend hstep
    exact ⟨hdepartures ▸ hincreasing, .inl hend'⟩
  · exact hordered.step hd hs hundisturbed hstep

theorem start_ordered (n : ℕ) : (start n).Ordered 0 := by
  constructor
  case frontier => exact ⟨Nat.zero_le _, rfl⟩
  case covered => exact fun j hj => absurd hj (Nat.not_lt_zero j)
  case above => rw [start_owners]; exact fun e he => absurd he List.not_mem_nil
  case inHand => exact fun e he => absurd he List.not_mem_nil
  case ahead => exact fun j _ hpos => by rw [start_recorded] at hpos; exact absurd hpos (Nat.lt_irrefl 0)
  case noMarker => rfl
  case capacity =>
    exact Nat.le_of_eq (List.length_replicate (n := n) (a := (none : Option Entry))).symm
  case increasing => exact List.Pairwise.nil
  case behind => exact fun d hd => absurd hd List.not_mem_nil

/-- An undisturbed run passes the buffers on in display order. -/
theorem run_inOrder {n : ℕ} {labels : List Label}
    (hlabels : Lts.Along step Undisturbed (start n) labels) (h : Lts.run step (start n) labels = some s) :
    s.InOrder :=
  (Lts.run_invariant_along (I := fun s => s.InOrder ∧ s.Distinct ∧ s.Occupied)
    (fun _ _ _ hs hundisturbed hstep =>
      have hsteps := steps_of_step hstep
      ⟨hs.1.step hs.2.1 hs.2.2 hundisturbed hsteps, hs.2.1.step hsteps, hs.2.2.step hsteps⟩)
    ⟨(start_ordered n).inOrder, start_distinct n, start_occupied n⟩ hlabels h).1

end StageState
end Player2.DecodeToManifest

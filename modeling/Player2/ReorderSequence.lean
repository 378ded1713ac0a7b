import Player2.ReorderPlaces
import Mathlib.Order.Bounds.Basic

/-! # The sequence numbers behind the reordering loop

A buffer that leaves the reordering loop is given a sequence number of its own, which says how far the
stream is complete.  It is the smaller of the largest sequence number seen so far and of the smallest one
that the last scan found in the table.  That scan still counted the buffer itself, if it comes from there.

So the number is never more than the buffer's own: `Sequenced.adjusted_iff`.  It does not decrease, but at
the end of a group that was reordered it stays behind: of the numbers 0, 2, 3, 1 it makes 0, 1, 1, 1. -/

namespace Player2.DecodeToManifest

open InSequence (ControlStructure)

/-! ### Departures -/

/-- The sequence numbers of the buffers that have arrived. -/
def Departure.values (d : Departure) : List ℕ := d.arrived.map Entry.sequenceNumber

/-- Every buffer that has arrived up to the number has been passed on. -/
def Departure.CompleteUpTo (d : Departure) (n : ℕ) : Prop :=
  ∀ a ∈ d.arrived, a.sequenceNumber ≤ n → a ∈ d.released

/-- The number is the largest one up to which the stream is complete, and the requests for after a frame
that has arrived are performed when it is complete up to that. -/
structure Departure.Complete (d : Departure) : Prop where
  number : IsGreatest {n | n ∈ d.values ∧ d.CompleteUpTo n} d.sequenceNumber
  requests : ∀ m ∈ d.requests, m.sequenceType = .afterSequenceNumber → m.sequenceValue ∈ d.values →
    (m ∈ d.performed ↔ d.CompleteUpTo m.sequenceValue)

/-- The number is the largest one, not above all that has been passed on, below which the stream is
complete. -/
def Departure.CompleteBelow (d : Departure) : Prop :=
  IsGreatest {n | (∃ r ∈ d.released, n ≤ r.sequenceNumber) ∧
    ∀ a ∈ d.arrived, a.sequenceNumber < n → a ∈ d.released} d.sequenceNumber

namespace StageState

/-! ### Increasing sequence numbers -/

/-- A buffer that arrives has a larger sequence number than the ones before. -/
def Increasing (s : StageState) : Label → Prop
  | .extract (.decoded a) => ∀ a' ∈ s.arrivals, a'.sequenceNumber < a.sequenceNumber
  | _ => True

instance (s : StageState) : (label : Label) → Decidable (s.Increasing label)
  | .extract (.decoded a) =>
    inferInstanceAs (Decidable (∀ a' ∈ s.arrivals, a'.sequenceNumber < a.sequenceNumber))
  | .extract .nothing | .extract (.control _) | .scan | .skip | .passMarker | .output _ | .assign _ _
  | .assignNonDecoded _ _ | .recordNonDecodedFrame _ _ | .direction _ | .decodeBufferCount _
  | .discardPtoD _ | .discardDtoM | .terminate => isTrue trivial

theorem le_foldl_min (l : List Entry) (b n : ℕ) :
    n ≤ (l.map Entry.sequenceNumber).foldl min b ↔ n ≤ b ∧ ∀ e ∈ l, n ≤ e.sequenceNumber := by
  induction l generalizing b with
  | nil => exact ⟨fun h => ⟨h, fun e he => absurd he List.not_mem_nil⟩, And.left⟩
  | cons e l ih =>
    rw [List.map_cons, List.foldl_cons, ih, Nat.le_min, List.forall_mem_cons, and_assoc]

/-- The sequence numbers of the buffers, and of what is known of them. -/
structure Sequenced (s : StageState) : Prop where
  increasing : (s.arrivals.map Entry.sequenceNumber).Pairwise (· < ·)
  limit : ∀ a ∈ s.arrivals, a.sequenceNumber ≤ largestSequenceNumber
  arrived : ∀ e ∈ s.hand ++ s.waiting, e ∈ s.arrivals
  seen : ∀ n, (∀ a ∈ s.arrivals, a.sequenceNumber ≤ n) → s.calls.maximumActualSequenceNumberSeen ≤ n
  scanned : s.phase = .skip ∨ s.phase = .get → ∀ n, n ≤ s.minimumSequenceNumberAccumulated ↔
    n ≤ largestSequenceNumber ∧ ∀ h ∈ s.waiting, n ≤ h.sequenceNumber
  picked : ∀ e ∈ s.hand, ∀ n, n ≤ s.adjusted e ↔
    n ≤ e.sequenceNumber ∧ ∀ h ∈ s.waiting, n ≤ h.sequenceNumber
  marker : ∀ m ∈ s.markerFrameBuffer, m ∈ s.arrivals ∧
    ∀ a ∈ s.arrivals, a.sequenceNumber ≤ m.sequenceNumber
  counted : s.calls.after.Counted
  ordered : (s.departures.map Departure.sequenceNumber).Pairwise (· ≤ ·)
  low : ∀ d ∈ s.departures, ∀ e ∈ s.hand ++ s.waiting, d.sequenceNumber ≤ e.sequenceNumber
  past : ∀ d ∈ s.departures, ∃ a ∈ s.arrivals, d.sequenceNumber ≤ a.sequenceNumber

/-! ### Steps -/

/-- No buffer has a larger sequence number than the last one that has arrived. -/
def IsLast (s : StageState) (e : Entry) : Prop :=
  e ∈ s.arrivals ∧ ∀ a ∈ s.arrivals, a.sequenceNumber ≤ e.sequenceNumber

variable {s t : StageState}

theorem Sequenced.move (h : s.Sequenced) (harrivals : t.arrivals = s.arrivals)
    (hdepartures : t.departures = s.departures) (hcounted : t.calls.after.Counted)
    (hseen : t.calls.maximumActualSequenceNumberSeen = s.calls.maximumActualSequenceNumberSeen)
    (howners : ∀ e ∈ t.hand ++ t.waiting, e ∈ s.hand ++ s.waiting ∨ s.IsLast e)
    (hscanned : t.phase = .skip ∨ t.phase = .get → ∀ n, n ≤ t.minimumSequenceNumberAccumulated ↔
      n ≤ largestSequenceNumber ∧ ∀ h ∈ t.waiting, n ≤ h.sequenceNumber)
    (hpicked : ∀ e ∈ t.hand, ∀ n, n ≤ t.adjusted e ↔
      n ≤ e.sequenceNumber ∧ ∀ h ∈ t.waiting, n ≤ h.sequenceNumber)
    (hmarker : ∀ m ∈ t.markerFrameBuffer, s.IsLast m) : t.Sequenced := by
  constructor
  case increasing => rw [harrivals]; exact h.increasing
  case limit => rw [harrivals]; exact h.limit
  case arrived =>
    rw [harrivals]
    intro e he
    rcases howners e he with hold | hlast
    · exact h.arrived e hold
    · exact hlast.1
  case seen => rw [harrivals, hseen]; exact h.seen
  case scanned => exact hscanned
  case picked => exact hpicked
  case marker => rw [harrivals]; exact hmarker
  case counted => exact hcounted
  case ordered => rw [hdepartures]; exact h.ordered
  case low =>
    rw [hdepartures]
    intro d hd e he
    rcases howners e he with hold | hlast
    · exact h.low d hd e hold
    · obtain ⟨a, ha, hle⟩ := h.past d hd
      exact Nat.le_trans hle (hlast.2 a ha)
  case past => rw [hdepartures, harrivals]; exact h.past

theorem Sequenced.frame (h : s.Sequenced) (hhand : t.hand = s.hand)
    (htable : t.table = s.table) (harrivals : t.arrivals = s.arrivals)
    (hseen : t.calls.maximumActualSequenceNumberSeen = s.calls.maximumActualSequenceNumberSeen)
    (hcounted : t.calls.after.Counted)
    (hphase : t.phase = .skip ∨ t.phase = .get → s.phase = .skip ∨ s.phase = .get)
    (hminimum : t.minimumSequenceNumberAccumulated = s.minimumSequenceNumberAccumulated)
    (hmarker : t.markerFrameBuffer = s.markerFrameBuffer) (hdepartures : t.departures = s.departures) :
    t.Sequenced := by
  have hwaiting : t.waiting = s.waiting := by
    unfold waiting
    rw [htable]
  have hadjusted : t.adjusted = s.adjusted := by
    funext e
    unfold adjusted
    rw [hseen, hminimum]
  refine h.move harrivals hdepartures hcounted hseen ?_ ?_ ?_ ?_
  · rw [hhand, hwaiting]
    exact fun e he => .inl he
  · rw [hminimum, hwaiting]
    exact fun hp => h.scanned (hphase hp)
  · rw [hhand, hadjusted, hwaiting]
    exact h.picked
  · rw [hmarker]
    exact h.marker

theorem Occupied.le_largest (hs : s.Occupied) (hzero : s.occupancy = 0) (n : ℕ) :
    n ≤ largestSequenceNumber ↔ n ≤ largestSequenceNumber ∧ ∀ h ∈ s.waiting, n ≤ h.sequenceNumber := by
  have hempty : s.waiting = [] := List.eq_nil_of_length_eq_zero (hs.symm.trans hzero)
  rw [hempty]
  exact ⟨fun h => ⟨h, fun e he => absurd he List.not_mem_nil⟩, And.left⟩

variable {e : Entry}

theorem Sequenced.take (h : s.Sequenced) {slot : ℕ} (hhand : s.hand = [])
    (hslot : s.table[slot]? = some (some e))
    (hminimum : ∀ n, n ≤ s.minimumSequenceNumberAccumulated ↔
      n ≤ largestSequenceNumber ∧ ∀ h ∈ s.waiting, n ≤ h.sequenceNumber) :
    (s.take slot e).Sequenced := by
  have hperm := Slots.set_none_perm hslot
  have hmem : e ∈ s.waiting := hperm.mem_iff.mpr List.mem_cons_self
  refine h.move rfl rfl h.counted rfl ?_ ?_ ?_ h.marker
  · intro e' he'
    left
    rw [hhand]
    exact hperm.mem_iff.mpr he'
  · rintro (hphase | hphase) <;> cases hphase
  · intro e' he' n
    obtain rfl : e' = e := List.mem_singleton.mp he'
    have hlimit := h.limit e' (h.arrived e' (List.mem_append_right _ hmem))
    change n ≤ min (max e'.sequenceNumber _) s.minimumSequenceNumberAccumulated ↔ _
    rw [Nat.le_min, hminimum]
    constructor
    · rintro ⟨-, -, hall⟩
      exact ⟨hall e' hmem, fun e'' he'' => hall e'' (hperm.mem_iff.mpr (List.mem_cons_of_mem _ he''))⟩
    · rintro ⟨hle, hall⟩
      refine ⟨Nat.le_trans hle (Nat.le_max_left _ _), Nat.le_trans hle hlimit, fun e'' he'' => ?_⟩
      rcases List.mem_cons.mp (hperm.mem_iff.mp he'') with rfl | hrest
      · exact hle
      · exact hall e'' hrest

theorem Sequenced.leave (h : s.Sequenced)
    (hminimum : ∀ n, n ≤ s.minimumSequenceNumberAccumulated ↔
      n ≤ largestSequenceNumber ∧ ∀ h ∈ s.waiting, n ≤ h.sequenceNumber) : s.leave.Sequenced := by
  refine h.move rfl rfl h.counted rfl (fun e he => .inl ?_) (fun _ => hminimum) ?_ h.marker
  · exact List.mem_append_right _ he
  · exact fun e he => absurd he List.not_mem_nil

theorem Sequenced.setMinimum (h : s.Sequenced) (hphase : s.phase = .scan) (m : ℕ) :
    ({ s with minimumSequenceNumberAccumulated := m } : StageState).Sequenced := by
  refine h.move rfl rfl h.counted rfl (fun e he => .inl he) ?_ ?_ h.marker
  · intro hloop
    have hloop : s.phase = .skip ∨ s.phase = .get := hloop
    rw [hphase] at hloop
    rcases hloop with hloop | hloop <;> cases hloop
  · intro e he
    have hmem : e ∈ s.hand := he
    rw [hand_in_loop (.inl hphase)] at hmem
    cases hmem

theorem Sequenced.scan (h : s.Sequenced) (hs : s.Occupied) (hphase : s.phase = .scan) :
    s.scan.Sequenced := by
  have hhand : s.hand = [] := hand_in_loop (.inl hphase)
  have hminimum : ∀ n, n ≤ s.minimumAccumulated ↔
      n ≤ largestSequenceNumber ∧ ∀ h ∈ s.waiting, n ≤ h.sequenceNumber := fun n => le_foldl_min _ _ n
  unfold StageState.scan
  split
  next =>
    obtain ⟨records, removals, heq⟩ := s.cleanUp_eq
    rw [heq]
    refine h.frame hhand.symm rfl rfl rfl h.counted ?_ rfl rfl rfl
    rintro (hphase | hphase) <;> cases hphase
  next =>
    split
    next hzero => exact (h.setMinimum hphase _).leave (hs.le_largest hzero)
    next =>
      split
      next => exact (h.setMinimum hphase _).leave hminimum
      next slot e hlowest =>
        split
        next => exact (h.setMinimum hphase _).take hhand (lowest_some hlowest).1 hminimum
        next => exact (h.setMinimum hphase _).leave hminimum

variable {c : InSequence.ProcessState}

theorem control_counted (h : c.after.Counted) (m : ControlStructure) :
    (c.control .decodeToManifest m).maximumActualSequenceNumberSeen = c.maximumActualSequenceNumberSeen ∧
      (c.control .decodeToManifest m).after.Counted := by
  unfold InSequence.ProcessState.control InSequence.ProcessState.accumulate
  split
  next => exact ⟨rfl, h⟩
  next =>
    split
    next => split <;> exact ⟨rfl, h⟩
    next =>
      split
      next after haccumulate => exact ⟨rfl, h.accumulate haccumulate⟩
      next => exact ⟨rfl, h⟩

theorem frame_counted (h : c.after.Counted) (f : InSequence.Frame) :
    (c.frame .decodeToManifest f).after.Counted := by
  exact h.process.2.2

theorem Sequenced.arrive (h : s.Sequenced) (a : Arrival)
    (hnumber : a.sequenceNumber ≤ largestSequenceNumber) (hmarker : s.markerFrameBuffer = none)
    (hincreasing : ∀ a' ∈ s.arrivals, a'.sequenceNumber < a.sequenceNumber) :
    (s.arrive a).Sequenced ∧ (s.arrive a).IsLast ⟨s.arrivals.length, a.sequenceNumber⟩ := by
  have hkeep : ∀ e ∈ s.arrivals, e ∈ (s.arrive a).arrivals := fun e he => List.mem_append_left _ he
  have hcases : ∀ e ∈ (s.arrive a).arrivals,
      e ∈ s.arrivals ∨ e = ⟨s.arrivals.length, a.sequenceNumber⟩ := by
    intro e he
    rcases List.mem_append.mp he with hold | hnew
    · exact .inl hold
    · exact .inr (List.mem_singleton.mp hnew)
  constructor
  · constructor
    case increasing =>
      change ((s.arrivals ++ [_]).map Entry.sequenceNumber).Pairwise (· < ·)
      rw [List.map_append, List.pairwise_append]
      refine ⟨h.increasing, List.pairwise_singleton _ _, ?_⟩
      intro i hi j hj
      obtain ⟨a', ha', rfl⟩ := List.mem_map.mp hi
      obtain rfl := List.mem_singleton.mp hj
      exact hincreasing a' ha'
    case limit =>
      intro e he
      rcases hcases e he with hold | rfl
      · exact h.limit e hold
      · exact hnumber
    case arrived => exact fun e he => hkeep e (h.arrived e he)
    case seen => exact fun n hn => h.seen n fun e he => hn e (hkeep e he)
    case scanned => exact h.scanned
    case picked => exact h.picked
    case marker =>
      intro m hm
      have hsome : s.markerFrameBuffer = some m := hm
      rw [hmarker] at hsome
      cases hsome
    case counted => exact h.counted
    case ordered => exact h.ordered
    case low => exact h.low
    case past =>
      intro d hd
      obtain ⟨e, he, hle⟩ := h.past d hd
      exact ⟨e, hkeep e he, hle⟩
  · refine ⟨List.mem_append_right _ (List.mem_singleton.mpr rfl), fun e he => ?_⟩
    rcases hcases e he with hold | rfl
    · exact Nat.le_of_lt (hincreasing e hold)
    · exact Nat.le_refl _

theorem Sequenced.place (h : s.Sequenced) (a : Arrival)
    (hlast : s.IsLast e) (hphase : s.phase = .get) : (s.place a e).Sequenced := by
  have hhand : s.hand = [] := hand_in_loop (.inr (.inr hphase))
  have hnone : ∀ m ∈ s.markerFrameBuffer, s.IsLast m := h.marker
  have hrest : ∀ t : StageState, t.hand = [] → t.table = s.table → t.arrivals = s.arrivals →
      t.calls.maximumActualSequenceNumberSeen = s.calls.maximumActualSequenceNumberSeen →
      t.calls.after.Counted → t.phase = .scan →
      t.minimumSequenceNumberAccumulated = s.minimumSequenceNumberAccumulated →
      t.markerFrameBuffer = s.markerFrameBuffer → t.departures = s.departures → t.Sequenced := by
    intro t hhand' htable harrivals hseen hcounted hscan hminimum hmarker' hdepartures
    refine h.frame (hhand'.trans hhand.symm) htable harrivals hseen hcounted ?_ hminimum hmarker' hdepartures
    rw [hscan]
    rintro (hloop | hloop) <;> cases hloop
  -- a buffer that goes out at once has the largest sequence number, and the scan has not counted it
  have hout : ({ s with
      calls := s.calls.keep ⟨e.sequenceNumber, e.sequenceNumber, a.markerFrame,
        a.parameters.nativePlaybackTime⟩, phase := .output e } : StageState).Sequenced := by
    refine h.move rfl rfl h.counted rfl ?_ ?_ ?_ hnone
    · intro e' he'
      rcases List.mem_append.mp he' with hnew | hold
      · obtain rfl := List.mem_singleton.mp hnew
        exact .inr hlast
      · exact .inl (List.mem_append_right _ hold)
    · rintro (hloop | hloop) <;> cases hloop
    · intro e' he' n
      obtain rfl := List.mem_singleton.mp he'
      have hseen := h.seen e'.sequenceNumber hlast.2
      have hlimit := h.limit e' hlast.1
      change n ≤ min (max e'.sequenceNumber s.calls.maximumActualSequenceNumberSeen)
        s.minimumSequenceNumberAccumulated ↔ _
      rw [Nat.le_min, Nat.max_eq_left hseen, h.scanned (.inr hphase)]
      exact ⟨fun h => ⟨h.1, h.2.2⟩, fun h => ⟨h.1, Nat.le_trans h.1 hlimit, h.2⟩⟩
  unfold StageState.place
  split
  next => exact hrest _ rfl rfl rfl rfl h.counted rfl rfl rfl rfl
  next =>
    dsimp only
    split
    next =>
      refine h.move rfl rfl h.counted rfl (fun e' he' => .inl ?_) ?_ ?_ ?_
      · exact List.mem_append_right _ he'
      · rintro (hloop | hloop) <;> cases hloop
      · exact fun e' he' => absurd he' List.not_mem_nil
      · intro m hm
        obtain rfl := Option.some.inj hm
        exact hlast
    next =>
      split
      next => exact hrest _ rfl rfl rfl rfl h.counted rfl rfl rfl rfl
      next =>
        split
        next => exact hout
        next =>
          split
          next table hinsert =>
            have hperm := Slots.insert_perm hinsert
            refine h.move rfl rfl h.counted rfl ?_ ?_ ?_ hnone
            · intro e' he'
              rcases List.mem_cons.mp (hperm.mem_iff.mp he') with rfl | hold
              · exact .inr hlast
              · exact .inl (List.mem_append_right _ hold)
            · rintro (hloop | hloop) <;> cases hloop
            · exact fun e' he' => absurd he' List.not_mem_nil
          next => exact hout

theorem Sequenced.passMarker (h : s.Sequenced) (hmarker : s.markerFrameBuffer = some e) :
    (s.passMarker e).Sequenced := by
  have hlast := h.marker e hmarker
  constructor
  case increasing => exact h.increasing
  case limit => exact h.limit
  case arrived => exact fun e' he' => h.arrived e' (List.mem_append_right _ he')
  case seen =>
    intro n hn
    exact Nat.max_le.mpr ⟨hn e hlast.1, h.seen n hn⟩
  case scanned => rintro (hloop | hloop) <;> cases hloop
  case picked => exact fun e' he' => absurd he' List.not_mem_nil
  case marker => exact fun m hm => by cases hm
  case counted => exact frame_counted h.counted _
  case ordered => exact h.ordered
  case low => exact fun d hd e' he' => h.low d hd e' (List.mem_append_right _ he')
  case past => exact h.past

/-- The buffer behind the loop leaves with its number, which none of those that wait falls below. -/
theorem Sequenced.output (h : s.Sequenced) (outcome : Outcome)
    (hphase : s.phase = .output e) : (s.output e outcome).Sequenced := by
  have hhand : s.hand = [e] := by
    unfold hand
    rw [hphase]
  have hmem : e ∈ s.hand ++ s.waiting := by
    rw [hhand]
    exact List.mem_cons_self
  have hadjusted := (h.picked e (hhand ▸ List.mem_cons_self) (s.adjusted e)).mp (Nat.le_refl _)
  unfold StageState.output
  split
  next =>
    refine h.move rfl rfl h.counted rfl (fun e' he' => .inl ?_) ?_ ?_ h.marker
    · exact List.mem_append_right _ he'
    · rintro (hloop | hloop) <;> cases hloop
    · exact fun e' he' => absurd he' List.not_mem_nil
  next =>
    constructor
    case increasing => exact h.increasing
    case limit => exact h.limit
    case arrived => exact fun e' he' => h.arrived e' (List.mem_append_right _ he')
    case seen =>
      intro n hn
      exact Nat.max_le.mpr ⟨hn e (h.arrived e hmem), h.seen n hn⟩
    case scanned => rintro (hloop | hloop) <;> cases hloop
    case picked => exact fun e' he' => absurd he' List.not_mem_nil
    case marker => exact h.marker
    case counted => exact frame_counted h.counted _
    case ordered =>
      rw [List.map_append, List.pairwise_append]
      refine ⟨h.ordered, List.pairwise_singleton _ _, ?_⟩
      intro i hi j hj
      obtain ⟨d, hd, rfl⟩ := List.mem_map.mp hi
      obtain rfl := List.mem_singleton.mp hj
      refine (h.picked e (hhand ▸ List.mem_cons_self) _).mpr ⟨h.low d hd e hmem, fun e' he' => ?_⟩
      exact h.low d hd e' (List.mem_append_right _ he')
    case low =>
      intro d hd e' he'
      rcases List.mem_append.mp hd with hold | hnew
      · exact h.low d hold e' (List.mem_append_right _ he')
      · obtain rfl := List.mem_singleton.mp hnew
        exact hadjusted.2 e' he'
    case past =>
      intro d hd
      rcases List.mem_append.mp hd with hold | hnew
      · exact h.past d hold
      · obtain rfl := List.mem_singleton.mp hnew
        exact ⟨e, h.arrived e hmem, hadjusted.1⟩

variable {label : Label}

theorem Sequenced.step (h : s.Sequenced) (hs : s.Occupied)
    (hincreasing : s.Increasing label) (hstep : s.Steps label t) : t.Sequenced := by
  cases hstep with
  | scan hphase => exact h.scan hs hphase
  | skip hphase =>
    have hhand := (hand_in_loop (.inr (.inl hphase))).symm
    unfold StageState.skip
    split
    next => exact h.frame rfl rfl rfl rfl h.counted id rfl rfl rfl
    next => exact h.frame hhand rfl rfl rfl h.counted (fun _ => .inl hphase) rfl rfl rfl
  | passMarker e hphase hmarker => exact h.passMarker hmarker
  | nothing hphase hmarker =>
    refine h.frame (hand_in_loop (.inr (.inr hphase))).symm rfl rfl rfl h.counted ?_ rfl rfl rfl
    rintro (hloop | hloop) <;> cases hloop
  | control m hphase hmarker =>
    have hhand := (hand_in_loop (.inr (.inr hphase))).symm
    obtain ⟨hseen, hcounted⟩ := control_counted h.counted m
    unfold extract
    dsimp only
    split
    next =>
      refine h.frame hhand rfl rfl rfl h.counted ?_ rfl rfl rfl
      rintro (hloop | hloop) <;> cases hloop
    next =>
      refine h.frame hhand rfl rfl hseen hcounted ?_ rfl rfl rfl
      rintro (hloop | hloop) <;> cases hloop
  | decoded a hphase hmarker hindex hnumber =>
    have hhand := (hand_in_loop (.inr (.inr hphase))).symm
    obtain ⟨harrive, hlast⟩ := h.arrive a hnumber hmarker hincreasing
    unfold extract
    dsimp only
    split
    next =>
      refine harrive.frame hhand rfl rfl rfl h.counted ?_ rfl rfl rfl
      rintro (hloop | hloop) <;> cases hloop
    next => exact harrive.place a hlast hphase
  | output e outcome hphase => exact h.output outcome hphase
  | record index collapse hindex =>
    obtain ⟨records, insertions, collapse', heq⟩ :=
      recordNonDecodedFrame_eq { s with indices := s.giveOut index } index collapse
    rw [heq]
    exact h.frame rfl rfl rfl rfl h.counted id rfl rfl rfl
  | _ => exact h.frame rfl rfl rfl rfl h.counted id rfl rfl rfl

/-! ### A buffer leaves -/

/-- The buffers that have been passed on with this one, the ones that wait and the marker frame are all that
have arrived, and none of them is in two places. -/
structure Located (s : StageState) (e : Entry) : Prop where
  arrived : e ∈ s.arrivals
  cases : ∀ a ∈ s.arrivals, a ∈ s.passedOn ++ [e] ∨ a ∈ s.waiting ∨ a ∈ s.markerFrameBuffer
  passed : ∀ r ∈ s.passedOn, r ∈ s.arrivals
  waits : ∀ h ∈ s.waiting, h ∈ s.arrivals ∧ h ∉ s.passedOn ++ [e]
  distinct : ∀ a ∈ s.arrivals, ∀ b ∈ s.arrivals, a.sequenceNumber = b.sequenceNumber → a = b

theorem Sequenced.distinct (h : s.Sequenced) : ∀ a ∈ s.arrivals, ∀ b ∈ s.arrivals,
    a.sequenceNumber = b.sequenceNumber → a = b := by
  have hnodup : (s.arrivals.map Entry.sequenceNumber).Nodup := h.increasing.imp Nat.ne_of_lt
  exact fun a ha b hb heq => List.inj_on_of_nodup_map hnodup ha hb heq

theorem Sequenced.located (h : s.Sequenced) (hlost : s.LostAtEnd)
    (hphase : s.phase = .output e) : s.Located e := by
  have hacc : s.Accounted := by
    rcases hlost with hacc | ⟨-, hend⟩
    · exact hacc
    · rw [hphase] at hend
      rcases hend with hend | hend <;> cases hend
  obtain ⟨hnodup, hperm⟩ := hacc
  rw [places, held_in_hand hphase] at hnodup hperm
  have hmem : ∀ a, a ∈ s.arrivals ↔
      a ∈ s.passedOn ++ [e] ∨ a ∈ s.waiting ∨ a ∈ s.markerFrameBuffer := by
    intro a
    rw [← hperm.mem_iff, List.append_cons, List.mem_append (s := s.passedOn ++ [e]),
      List.mem_append (s := s.waiting), Option.mem_toList]
    exact Iff.rfl
  rw [List.append_cons, List.nodup_append'] at hnodup
  constructor
  case arrived => exact (hmem e).mpr (.inl (List.mem_append_right _ List.mem_cons_self))
  case cases => exact fun a ha => (hmem a).mp ha
  case passed => exact fun r hr => (hmem r).mpr (.inl (List.mem_append_left _ hr))
  case waits =>
    intro w hw
    refine ⟨(hmem w).mpr (.inr (.inl hw)), fun hpassed => ?_⟩
    exact hnodup.2.2 hpassed (List.mem_append_left _ hw)
  case distinct => exact h.distinct

/-- The buffer is before all that wait, and what has been passed on behind it is behind one of those. -/
def Foremost (s : StageState) (e : Entry) : Prop :=
  (∀ h ∈ s.waiting, e.sequenceNumber < h.sequenceNumber) ∧
    ∀ r ∈ s.passedOn, e.sequenceNumber < r.sequenceNumber →
      ∃ h ∈ s.waiting, h.sequenceNumber < r.sequenceNumber

instance (s : StageState) (e : Entry) : Decidable (s.Foremost e) := inferInstanceAs (Decidable (_ ∧ _))

/-- What has been passed on is before the buffer, or something before it waits. -/
def NotBehind (s : StageState) (e : Entry) : Prop :=
  (∀ r ∈ s.passedOn, r.sequenceNumber ≤ e.sequenceNumber) ∨
    ∃ h ∈ s.waiting, h.sequenceNumber < e.sequenceNumber

instance (s : StageState) (e : Entry) : Decidable (s.NotBehind e) := inferInstanceAs (Decidable (_ ∨ _))

theorem adjusted_cases
    (hpicked : ∀ n, n ≤ s.adjusted e ↔ n ≤ e.sequenceNumber ∧ ∀ h ∈ s.waiting, n ≤ h.sequenceNumber) :
    s.adjusted e = e.sequenceNumber ∨ ∃ h ∈ s.waiting, s.adjusted e = h.sequenceNumber := by
  obtain ⟨hle, hall⟩ := (hpicked (s.adjusted e)).mp (Nat.le_refl _)
  by_contra hnone
  rw [not_or, not_exists] at hnone
  have hnext : s.adjusted e + 1 ≤ s.adjusted e := by
    refine (hpicked _).mpr ⟨by omega, fun h hh => ?_⟩
    have hne : s.adjusted e ≠ h.sequenceNumber := fun heq => hnone.2 h ⟨hh, heq⟩
    have hle' := hall h hh
    omega
  omega

/-- The number says how far the stream is complete exactly when the buffer is the foremost one. -/
theorem Sequenced.number_iff (h : s.Sequenced) (hl : s.Located e)
    (hhand : e ∈ s.hand) :
    IsGreatest {n | n ∈ (s.departure e).values ∧ (s.departure e).CompleteUpTo n} (s.adjusted e) ↔
      s.Foremost e := by
  have hpicked := h.picked e hhand
  obtain ⟨hle, hall⟩ := (hpicked (s.adjusted e)).mp (Nat.le_refl _)
  have hvalue : ∀ a ∈ s.arrivals, a.sequenceNumber ∈ (s.departure e).values :=
    fun a ha => List.mem_map_of_mem ha
  constructor
  · rintro ⟨⟨-, hcomplete⟩, hgreatest⟩
    have hfirst : ∀ w ∈ s.waiting, e.sequenceNumber < w.sequenceNumber := by
      intro w hw
      by_contra hlt
      obtain ⟨harrived, hnot⟩ := hl.waits w hw
      have hne : w.sequenceNumber ≠ e.sequenceNumber := by
        intro heq
        obtain rfl := hl.distinct w harrived e hl.arrived heq
        exact hnot (List.mem_append_right _ List.mem_cons_self)
      -- the number would be that of a buffer that still waits
      have hbelow := hall w hw
      rcases adjusted_cases hpicked with hown | ⟨w', hw', heq⟩
      · omega
      · obtain ⟨harrived', hnot'⟩ := hl.waits w' hw'
        exact hnot' (hcomplete w' harrived' (Nat.le_of_eq heq.symm))
    refine ⟨hfirst, fun r hr hlt => ?_⟩
    by_contra hnone
    -- otherwise the stream would be complete up to the number of that buffer
    have hupto : (s.departure e).CompleteUpTo r.sequenceNumber := by
      intro a ha hale
      rcases hl.cases a ha with hpassed | hwaits | hmarker
      · exact hpassed
      · refine absurd ⟨a, hwaits, Nat.lt_of_le_of_ne hale fun heq => ?_⟩ hnone
        obtain rfl := hl.distinct a ha r (hl.passed r hr) heq
        exact (hl.waits a hwaits).2 (List.mem_append_left _ hr)
      · have hge := (h.marker a hmarker).2 r (hl.passed r hr)
        obtain rfl := hl.distinct a ha r (hl.passed r hr) (Nat.le_antisymm hale hge)
        exact List.mem_append_left _ hr
    have hmax := hgreatest ⟨hvalue r (hl.passed r hr), hupto⟩
    omega
  · rintro ⟨hfirst, hbehind⟩
    have hown : s.adjusted e = e.sequenceNumber := by
      refine Nat.le_antisymm hle ((hpicked _).mpr ⟨Nat.le_refl _, fun w hw => ?_⟩)
      exact Nat.le_of_lt (hfirst w hw)
    rw [hown]
    refine ⟨⟨hvalue e hl.arrived, fun a ha hale => ?_⟩, ?_⟩
    · rcases hl.cases a ha with hpassed | hwaits | hmarker
      · exact hpassed
      · have hlt := hfirst a hwaits
        omega
      · have hge := (h.marker a hmarker).2 e hl.arrived
        obtain rfl := hl.distinct a ha e hl.arrived (Nat.le_antisymm hale hge)
        exact List.mem_append_right _ List.mem_cons_self
    · rintro n ⟨hn, hcomplete⟩
      by_contra hlt
      obtain ⟨r, hr, rfl⟩ := List.mem_map.mp hn
      rcases List.mem_append.mp (hcomplete r hr (Nat.le_refl _)) with hpassed | hself
      · obtain ⟨w, hw, hbelow⟩ := hbehind r hpassed (by omega)
        obtain ⟨harrived, hnot⟩ := hl.waits w hw
        exact hnot (hcomplete w harrived (Nat.le_of_lt hbelow))
      · obtain rfl := List.mem_singleton.mp hself
        omega

/-- The number says below what the stream is complete exactly when the buffer is not behind what has been
passed on, or something else is before it. -/
theorem Sequenced.below_iff (h : s.Sequenced) (hl : s.Located e)
    (hhand : e ∈ s.hand) : (s.departure e).CompleteBelow ↔ s.NotBehind e := by
  have hpicked := h.picked e hhand
  obtain ⟨hle, hall⟩ := (hpicked (s.adjusted e)).mp (Nat.le_refl _)
  constructor
  · rintro ⟨-, hgreatest⟩
    by_contra hbehind
    unfold NotBehind at hbehind
    push Not at hbehind
    obtain ⟨⟨r, hr, hlt⟩, hfirst⟩ := hbehind
    have hnext : e.sequenceNumber + 1 ≤ s.adjusted e := by
      refine hgreatest ⟨⟨r, List.mem_append_left _ hr, hlt⟩, fun a ha hale => ?_⟩
      rcases hl.cases a ha with hpassed | hwaits | hmarker
      · exact hpassed
      · have hge := hfirst a hwaits
        obtain rfl := hl.distinct a ha e hl.arrived (by omega)
        exact List.mem_append_right _ List.mem_cons_self
      · have hge := (h.marker a hmarker).2 r (hl.passed r hr)
        omega
    omega
  · intro hmeant
    refine ⟨⟨⟨e, List.mem_append_right _ List.mem_cons_self, hle⟩, fun a ha hlt => ?_⟩, ?_⟩
    · have hlt : a.sequenceNumber < s.adjusted e := hlt
      rcases hl.cases a ha with hpassed | hwaits | hmarker
      · exact hpassed
      · have hge := hall a hwaits
        omega
      · have hge := (h.marker a hmarker).2 e hl.arrived
        omega
    · rintro n ⟨⟨r, hr, hnr⟩, hcomplete⟩
      have hwaits : ∀ w ∈ s.waiting, n ≤ w.sequenceNumber := by
        intro w hw
        by_contra hlt
        obtain ⟨harrived, hnot⟩ := hl.waits w hw
        exact hnot (hcomplete w harrived (by omega))
      refine (hpicked n).mpr ⟨?_, hwaits⟩
      rcases hmeant with hpassed | ⟨w, hw, hlt⟩
      · rcases List.mem_append.mp hr with hold | hself
        · exact Nat.le_trans hnr (hpassed r hold)
        · obtain rfl := List.mem_singleton.mp hself
          exact hnr
      · have hn := hwaits w hw
        omega

/-! ### Requests for after a frame -/

/-- Requests whose number is that of a buffer that has arrived. -/
def Awaited (s : StageState) (m : ControlStructure) : Prop :=
  m.sequenceType = .afterSequenceNumber ∧ m.sequenceValue ∈ s.arrivals.map Entry.sequenceNumber

instance (s : StageState) (m : ControlStructure) : Decidable (s.Awaited m) :=
  inferInstanceAs (Decidable (_ ∧ _))

/-- The invalid sequence number performs nothing, so nothing may wait for it. -/
def NoneAtInvalid (s : StageState) (e : Entry) : Prop :=
  e.sequenceNumber = InSequence.invalidSequenceValue →
    ∀ m ∈ s.calls.after.messages, s.Awaited m → e.sequenceNumber < m.sequenceValue

instance (s : StageState) (e : Entry) : Decidable (s.NoneAtInvalid e) :=
  inferInstanceAs (Decidable (_ → _))

theorem mem_performed {t : InSequence.MessageTable} (ht : t.Counted) {m : ControlStructure}
    (hm : m ∈ t.messages) (htype : m.sequenceType = .afterSequenceNumber) (n time : ℕ) :
    m ∈ (t.process n time).2 ↔ n ≠ InSequence.invalidSequenceValue ∧ m.sequenceValue ≤ n := by
  rw [ht.process.2.1, List.mem_filter, and_iff_right hm]
  have hnumber : m.sequenceType.isSequenceNumber = true := by
    rw [htype]
    rfl
  unfold ControlStructure.due
  rw [if_pos hnumber, Bool.and_eq_true, bne_iff_ne, decide_eq_true_eq]

theorem Sequenced.complete_iff (h : s.Sequenced) (hl : s.Located e)
    (hhand : e ∈ s.hand) : (s.departure e).Complete ↔ s.Foremost e ∧ s.NoneAtInvalid e := by
  have hnumber := h.number_iff hl hhand
  have hown : s.Foremost e → s.adjusted e = e.sequenceNumber := by
    intro hfirst
    have hpicked := h.picked e hhand
    refine Nat.le_antisymm ((hpicked _).mp (Nat.le_refl _)).1 ((hpicked _).mpr ⟨Nat.le_refl _, ?_⟩)
    exact fun w hw => Nat.le_of_lt (hfirst.1 w hw)
  constructor
  · intro hcomplete
    have hfirst := hnumber.mp hcomplete.number
    refine ⟨hfirst, fun hinvalid m hm hawaited => ?_⟩
    by_contra hlt
    have hupto : (s.departure e).CompleteUpTo m.sequenceValue := by
      intro a ha hle
      refine hcomplete.number.1.2 a ha ?_
      change a.sequenceNumber ≤ s.adjusted e
      rw [hown hfirst]
      omega
    have hperformed := (hcomplete.requests m hm hawaited.1 hawaited.2).mpr hupto
    have hvalid := ((mem_performed h.counted hm hawaited.1 _ _).mp hperformed).1
    exact hvalid ((hown hfirst).trans hinvalid)
  · rintro ⟨hfirst, hvalid⟩
    have hgreatest := hnumber.mpr hfirst
    refine ⟨hgreatest, fun m hm htype hvalue => ?_⟩
    refine (mem_performed h.counted hm htype _ _).trans ?_
    constructor
    · rintro ⟨-, hle⟩ a ha hale
      exact hgreatest.1.2 a ha (Nat.le_trans hale hle)
    · intro hupto
      have hle : m.sequenceValue ≤ s.adjusted e := hgreatest.2 ⟨hvalue, hupto⟩
      refine ⟨fun hinvalid => ?_, hle⟩
      rw [hown hfirst] at hinvalid hle
      have hlt := hvalid hinvalid m hm ⟨htype, hvalue⟩
      omega

/-- The marker frame performs requests for buffers that have been passed on. -/
def MarkerCompletes (s : StageState) : Label → Prop
  | .passMarker => ∀ e ∈ s.markerFrameBuffer,
      ∀ m ∈ (s.calls.after.process e.sequenceNumber s.calls.time).2, s.Awaited m →
        ∀ a ∈ s.arrivals, a.sequenceNumber ≤ m.sequenceValue → a ∈ s.passedOn ++ [e]
  | _ => True

/-- No request for a buffer that waits is left when the marker frame is passed on. -/
def MarkerMeant (s : StageState) : Option Entry → Prop
  | none => True
  | some e => e.sequenceNumber ≠ InSequence.invalidSequenceValue → ∀ m ∈ s.calls.after.messages,
      s.Awaited m → ∀ h ∈ s.waiting, m.sequenceValue < h.sequenceNumber

instance (s : StageState) : (marker : Option Entry) → Decidable (s.MarkerMeant marker)
  | none => isTrue trivial
  | some _ => inferInstanceAs (Decidable (_ → _))

theorem Sequenced.marker_iff (h : s.Sequenced) (hacc : s.Accounted)
    (hphase : s.phase = .get) (hmarker : s.markerFrameBuffer = some e) :
    s.MarkerCompletes .passMarker ↔ s.MarkerMeant s.markerFrameBuffer := by
  obtain ⟨hnodup, hperm⟩ := hacc
  rw [places, held_in_loop (.inr (.inr hphase)), hmarker] at hnodup hperm
  have hmem : ∀ a, a ∈ s.arrivals ↔ a ∈ s.passedOn ∨ a ∈ s.waiting ∨ a = e := by
    intro a
    rw [← hperm.mem_iff, List.mem_append, List.mem_append, Option.mem_toList, Option.some_inj,
      eq_comm (a := e)]
  rw [List.nodup_append', List.nodup_append'] at hnodup
  have hlast := (h.marker e hmarker).2
  unfold MarkerCompletes MarkerMeant
  rw [hmarker]
  constructor
  · intro hcompletes hvalid m hm hawaited w hw
    by_contra hlt
    obtain ⟨a, ha, hvalue⟩ := List.mem_map.mp hawaited.2
    have hperformed : m ∈ (s.calls.after.process e.sequenceNumber s.calls.time).2 := by
      refine (mem_performed h.counted hm hawaited.1 _ _).mpr ⟨hvalid, ?_⟩
      rw [← hvalue]
      exact hlast a ha
    have hpassed := hcompletes e rfl m hperformed hawaited w ((hmem w).mpr (.inr (.inl hw))) (by omega)
    rcases List.mem_append.mp hpassed with hpassed | hself
    · exact hnodup.2.2 hpassed (List.mem_append_left _ hw)
    · obtain rfl := List.mem_singleton.mp hself
      exact hnodup.2.1.2.2 hw (Option.mem_toList.mpr rfl)
  · intro hmeant e' he' m hperformed hawaited a ha hle
    obtain rfl : e = e' := Option.some.inj he'
    have hm : m ∈ s.calls.after.messages := by
      have hmem := hperformed
      rw [h.counted.process.2.1] at hmem
      exact List.mem_of_mem_filter hmem
    have hvalid := ((mem_performed h.counted hm hawaited.1 _ _).mp hperformed).1
    rcases (hmem a).mp ha with hpassed | hwaits | rfl
    · exact List.mem_append_left _ hpassed
    · have hlt := hmeant hvalid m hm hawaited a hwaits
      omega
    · exact List.mem_append_right _ List.mem_cons_self

/-! ### Runs -/

/-- What departs in a step. -/
def departing (s : StageState) : Label → List Departure
  | .output _ => if s.terminating then [] else s.hand.map s.departure
  | _ => []

theorem step_departures (h : s.Steps label t) :
    t.departures = s.departures ++ s.departing label := by
  cases h with
  | scan hphase =>
    refine Eq.trans ?_ (List.append_nil _).symm
    unfold StageState.scan
    split
    next =>
      obtain ⟨records, removals, heq⟩ := s.cleanUp_eq
      rw [heq]
    next =>
      repeat' split
      all_goals rfl
  | skip hphase =>
    refine Eq.trans ?_ (List.append_nil _).symm
    unfold StageState.skip
    split <;> rfl
  | control m hphase hmarker =>
    refine Eq.trans ?_ (List.append_nil _).symm
    unfold extract
    dsimp only
    split <;> rfl
  | decoded a hphase hmarker hindex hnumber =>
    refine Eq.trans ?_ (List.append_nil _).symm
    unfold extract place
    dsimp only
    repeat' split
    all_goals rfl
  | output e outcome hphase =>
    have hhand : s.hand = [e] := by
      unfold hand
      rw [hphase]
    unfold StageState.output departing
    rw [hhand]
    split
    next => exact (List.append_nil _).symm
    next => rfl
  | record index collapse hindex =>
    obtain ⟨records, insertions, collapse', heq⟩ :=
      recordNonDecodedFrame_eq { s with indices := s.giveOut index } index collapse
    rw [heq]
    exact (List.append_nil _).symm
  | _ => exact (List.append_nil _).symm

theorem forall_departures_iff (p : Departure → Prop) {labels : List Label}
    (h : Lts.run step s labels = some t) : (∀ d ∈ t.departures, p d) ↔
      (∀ d ∈ s.departures, p d) ∧
        Lts.Along step (fun s label => ∀ d ∈ s.departing label, p d) s labels :=
  Lts.forall_log_iff_along (fun _ _ _ _ _ => trivial)
    (fun _ _ _ _ hstep => step_departures (steps_of_step hstep)) p trivial h

/-- A buffer that leaves is the foremost one. -/
def ForemostMeant (s : StageState) : Label → Prop
  | .output _ => s.terminating = false → ∀ e ∈ s.hand, s.Foremost e ∧ s.NoneAtInvalid e
  | _ => True

instance (s : StageState) (label : Label) : Decidable (s.ForemostMeant label) :=
  match label with
  | .output _ => inferInstanceAs (Decidable (_ → _))
  | .scan | .skip | .passMarker | .extract _ | .assign _ _ | .assignNonDecoded _ _
  | .recordNonDecodedFrame _ _ | .direction _ | .decodeBufferCount _ | .discardPtoD _ | .discardDtoM
  | .terminate => isTrue trivial

/-- A marker frame that is passed on leaves no request for a buffer that waits. -/
def MarkerPassMeant (s : StageState) : Label → Prop
  | .passMarker => s.MarkerMeant s.markerFrameBuffer
  | _ => True

instance (s : StageState) (label : Label) : Decidable (s.MarkerPassMeant label) :=
  match label with
  | .passMarker => inferInstanceAs (Decidable (s.MarkerMeant _))
  | .scan | .skip | .extract _ | .output _ | .assign _ _ | .assignNonDecoded _ _
  | .recordNonDecodedFrame _ _ | .direction _ | .decodeBufferCount _ | .discardPtoD _ | .discardDtoM
  | .terminate => isTrue trivial

/-- A buffer that leaves is not behind what has been passed on. -/
def BelowMeant (s : StageState) : Label → Prop
  | .output _ => s.terminating = false → ∀ e ∈ s.hand, s.NotBehind e
  | _ => True

instance (s : StageState) (label : Label) : Decidable (s.BelowMeant label) :=
  match label with
  | .output _ => inferInstanceAs (Decidable (_ → _))
  | .scan | .skip | .passMarker | .extract _ | .assign _ _ | .assignNonDecoded _ _
  | .recordNonDecodedFrame _ _ | .direction _ | .decodeBufferCount _ | .discardPtoD _ | .discardDtoM
  | .terminate => isTrue trivial

theorem phase_of_mem_hand (h : e ∈ s.hand) : s.phase = .output e := by
  unfold hand at h
  split at h
  next hphase =>
    obtain rfl := List.mem_singleton.mp h
    exact hphase
  next => cases h

/-- What a run with increasing sequence numbers keeps. -/
structure Numbering (s : StageState) : Prop where
  sequenced : s.Sequenced
  occupied : s.Occupied
  numbered : s.Numbered
  lost : s.LostAtEnd

theorem Numbering.step (h : s.Numbering)
    (hincreasing : s.Increasing label) (hstep : s.Steps label t) : t.Numbering where
  sequenced := h.sequenced.step h.occupied hincreasing hstep
  occupied := h.occupied.step hstep
  numbered := h.numbered.step hstep
  lost := h.lost.step h.occupied h.numbered hstep

theorem start_numbering (n : ℕ) : (start n).Numbering where
  sequenced := by
    have hwaiting : (start n).waiting = [] := List.reduceOption_replicate_none
    constructor
    case increasing => exact List.Pairwise.nil
    case limit => exact fun a ha => absurd ha List.not_mem_nil
    case arrived => rw [hwaiting]; exact fun e he => absurd he List.not_mem_nil
    case seen => exact fun _ _ => Nat.zero_le _
    case scanned => rintro (hloop | hloop) <;> cases hloop
    case picked => exact fun e he => absurd he List.not_mem_nil
    case marker => exact fun m hm => by cases hm
    case counted => exact InSequence.MessageTable.empty_counted
    case ordered => exact List.Pairwise.nil
    case low => exact fun d hd => absurd hd List.not_mem_nil
    case past => exact fun d hd => absurd hd List.not_mem_nil
  occupied := start_occupied n
  numbered := start_numbered n
  lost := .inl (start_accounted n)

theorem forall_departing_iff {p : Departure → Prop} {q : Entry → Prop} (label : Label)
    (hpq : ∀ outcome e, label = .output outcome → e ∈ s.hand → (p (s.departure e) ↔ q e)) :
    (∀ d ∈ s.departing label, p d) ↔
      ∀ outcome, label = .output outcome → s.terminating = false → ∀ e ∈ s.hand, q e := by
  cases label with
  | output outcome =>
    unfold departing
    by_cases hend : s.terminating = true
    · rw [if_pos hend]
      refine iff_of_true (fun d hd => absurd hd List.not_mem_nil) fun _ _ hrunning => ?_
      rw [hend] at hrunning
      cases hrunning
    · rw [if_neg hend, List.forall_mem_map]
      have hrunning : s.terminating = false := Bool.eq_false_iff.mpr hend
      constructor
      · exact fun hall o ho _ e he => (hpq o e ho he).mp (hall e he)
      · exact fun hall e he => (hpq outcome e rfl he).mpr (hall outcome rfl hrunning e he)
  | _ =>
    refine iff_of_true (fun d hd => absurd hd List.not_mem_nil) fun outcome heq => ?_
    cases heq

theorem Numbering.complete_iff (h : s.Numbering) (label : Label) :
    (∀ d ∈ s.departing label, d.Complete) ↔ s.ForemostMeant label := by
  have hiff := forall_departing_iff (p := Departure.Complete)
    (q := fun e => s.Foremost e ∧ s.NoneAtInvalid e) label fun outcome e _ he =>
      h.sequenced.complete_iff (h.sequenced.located h.lost (phase_of_mem_hand he)) he
  refine hiff.trans ?_
  cases label with
  | output outcome => exact ⟨fun hall => hall outcome rfl, fun hall _ _ => hall⟩
  | _ => exact iff_of_true (fun _ heq => by cases heq) trivial

theorem Numbering.below_iff (h : s.Numbering) (label : Label) :
    (∀ d ∈ s.departing label, d.CompleteBelow) ↔ s.BelowMeant label := by
  have hiff := forall_departing_iff (p := Departure.CompleteBelow) (q := s.NotBehind) label
    fun outcome e _ he =>
      h.sequenced.below_iff (h.sequenced.located h.lost (phase_of_mem_hand he)) he
  refine hiff.trans ?_
  cases label with
  | output outcome => exact ⟨fun hall => hall outcome rfl, fun hall _ _ => hall⟩
  | _ => exact iff_of_true (fun _ heq => by cases heq) trivial

theorem Numbering.marker_iff (h : s.Numbering)
    (hstep : s.Steps label t) : s.MarkerCompletes label ↔ s.MarkerPassMeant label := by
  cases hstep with
  | passMarker e hphase hmarker =>
    have hacc : s.Accounted := by
      rcases h.lost with hacc | ⟨-, hend⟩
      · exact hacc
      · rw [hphase] at hend
        rcases hend with hend | hend <;> cases hend
    exact h.sequenced.marker_iff hacc hphase hmarker
  | _ => exact Iff.rfl

section Run

variable {n : ℕ} {labels : List Label} {s : StageState}
  (hincreasing : Lts.Along step Increasing (start n) labels)
  (h : Lts.run step (start n) labels = some s)

theorem numbering_step (s : StageState) (label : Label) (t : StageState) (hs : s.Numbering)
    (hincreasing : s.Increasing label) (hstep : s.step label = some t) : t.Numbering :=
  hs.step hincreasing (steps_of_step hstep)

include hincreasing h

theorem forall_complete_iff :
    (∀ d ∈ s.departures, d.Complete) ↔ Lts.Along step ForemostMeant (start n) labels := by
  have hnone : ∀ d ∈ (start n).departures, d.Complete := fun d hd => absurd hd List.not_mem_nil
  rw [forall_departures_iff _ h, and_iff_right hnone]
  exact Lts.along_iff_of_along numbering_step (fun _ label _ hs _ _ => hs.complete_iff label)
    (start_numbering n) hincreasing h

theorem forall_completeBelow_iff :
    (∀ d ∈ s.departures, d.CompleteBelow) ↔ Lts.Along step BelowMeant (start n) labels := by
  have hnone : ∀ d ∈ (start n).departures, d.CompleteBelow := fun d hd => absurd hd List.not_mem_nil
  rw [forall_departures_iff _ h, and_iff_right hnone]
  exact Lts.along_iff_of_along numbering_step (fun _ label _ hs _ _ => hs.below_iff label)
    (start_numbering n) hincreasing h

theorem along_markerCompletes_iff :
    Lts.Along step MarkerCompletes (start n) labels ↔ Lts.Along step MarkerPassMeant (start n) labels :=
  Lts.along_iff_of_along numbering_step (fun _ _ _ hs _ hstep => hs.marker_iff (steps_of_step hstep))
    (start_numbering n) hincreasing h

end Run

/-- **The sequence numbers behind the loop**, in a run in which the buffers have increasing ones: they never
decrease; they say up to what number the stream is complete, and the requests for after a frame are
performed when it is, exactly when every step is as it is meant; they say below what number it is complete
exactly when no buffer leaves behind what has been passed on. -/
theorem run_completes {n : ℕ} {labels : List Label} {s : StageState}
    (hincreasing : Lts.Along step Increasing (start n) labels)
    (h : Lts.run step (start n) labels = some s) :
    (s.departures.map Departure.sequenceNumber).Pairwise (· ≤ ·) ∧
      ((∀ d ∈ s.departures, d.Complete) ∧ Lts.Along step MarkerCompletes (start n) labels ↔
        Lts.Along step ForemostMeant (start n) labels ∧
          Lts.Along step MarkerPassMeant (start n) labels) ∧
      ((∀ d ∈ s.departures, d.CompleteBelow) ↔ Lts.Along step BelowMeant (start n) labels) := by
  have hnumbering := Lts.run_invariant_along numbering_step (start_numbering n) hincreasing h
  refine ⟨hnumbering.sequenced.ordered, ?_, forall_completeBelow_iff hincreasing h⟩
  exact and_congr (forall_complete_iff hincreasing h) (along_markerCompletes_iff hincreasing h)

/-- Two buffers in order, with a request for after the second. -/
def twoInOrder : List Label :=
  [.scan, .skip, .extract (.control ⟨0, .afterSequenceNumber, 1⟩), .scan, .skip, .extract (bufferItem 0 0),
    .output .queued, .scan, .skip, .extract (bufferItem 1 1), .output .queued]

/-- `run_completes` over the two buffers. -/
theorem run_completes_twoInOrder :
    ∃ s, Lts.run step (start 8) twoInOrder = some s ∧
      s.departures.map (fun d => (d.sequenceNumber, d.performed.map ControlStructure.id)) =
        [(0, []), (1, [0])] ∧
      (∀ d ∈ s.departures, d.Complete) ∧ ∀ d ∈ s.departures, d.CompleteBelow := by
  have hincreasing : Lts.Along step Increasing (start 8) twoInOrder := by decide +kernel
  have hforemost : Lts.Along step ForemostMeant (start 8) twoInOrder := by decide +kernel
  have hmarker : Lts.Along step MarkerPassMeant (start 8) twoInOrder := by decide +kernel
  have hbelow : Lts.Along step BelowMeant (start 8) twoInOrder := by decide +kernel
  obtain ⟨-, hcompletes, hcompleteBelow⟩ := run_completes hincreasing rfl
  exact ⟨_, rfl, by decide +kernel, (hcompletes.mpr ⟨hforemost, hmarker⟩).1,
    hcompleteBelow.mpr hbelow⟩

/-- A group of four buffers, of which the second in decoding order is the last to be displayed. -/
def groupIPBB : List Label :=
  [.scan, .skip, .extract (bufferItem 0 0), .output .queued, .scan, .skip, .extract (bufferItem 1 3), .scan,
    .skip, .extract (bufferItem 2 1), .output .queued, .scan, .skip, .extract (bufferItem 3 2),
    .output .queued, .scan, .output .queued]

/-- The numbers are 0, 1, 1, 1, although the last buffer of the group completes it up to 3. -/
theorem not_run_completes_groupIPBB :
    (Lts.run step (start 8) groupIPBB).map (fun s => s.departures.map Departure.sequenceNumber) =
        some [0, 1, 1, 1] ∧
      (¬ ∀ (n : ℕ) (labels : List Label) (s : StageState), Lts.Along step Increasing (start n) labels →
        Lts.run step (start n) labels = some s → ∀ d ∈ s.departures, d.Complete) ∧
      ¬ ∀ (n : ℕ) (labels : List Label) (s : StageState), Lts.Along step Increasing (start n) labels →
        Lts.run step (start n) labels = some s → ∀ d ∈ s.departures, d.CompleteBelow := by
  have hincreasing : Lts.Along step Increasing (start 8) groupIPBB := by decide +kernel
  obtain ⟨s, hrun⟩ : ∃ s, Lts.run step (start 8) groupIPBB = some s := ⟨_, rfl⟩
  have hforemost : ¬ Lts.Along step ForemostMeant (start 8) groupIPBB := by decide +kernel
  have hbelow : ¬ Lts.Along step BelowMeant (start 8) groupIPBB := by decide +kernel
  refine ⟨by decide +kernel, fun hall => hforemost ?_, fun hall => hbelow ?_⟩
  · exact (forall_complete_iff hincreasing hrun).mp (hall 8 groupIPBB s hincreasing hrun)
  · exact (forall_completeBelow_iff hincreasing hrun).mp (hall 8 groupIPBB s hincreasing hrun)

end StageState
end Player2.DecodeToManifest

import Player2.DecodeToManifest
import Mathlib.Data.List.Nodup

/-! # Where the decode buffers are

A decode buffer that has arrived at `ProcessDecodeToManifest` is in the table, is the one behind the
reordering loop, waits as the marker frame, or has been passed on; none is ever in two of these places.
`step_moves` says what one step does to them, and when it loses one: when it is told to end, the process
leaves what it has in its hand, and the marker frame, where it is. -/

namespace Player2.DecodeToManifest

namespace StageState

/-! ### The places -/

/-- The buffer behind the loop. -/
def hand (s : StageState) : List Entry :=
  match s.phase with
  | .output e => [e]
  | _ => []

/-- The buffers that the process has; none, when it has ended. -/
def held (s : StageState) : List Entry :=
  if s.phase = .terminated then [] else s.hand ++ s.waiting ++ s.markerFrameBuffer.toList

/-- The buffers that have been passed on, and the ones that the process has. -/
def places (s : StageState) : List Entry := s.passedOn ++ s.held

/-- Each buffer that has arrived is in one place. -/
def Accounted (s : StageState) : Prop := s.places.Nodup ∧ s.places.Perm s.arrivals

/-- The buffers are numbered in the order of their arrival. -/
def Numbered (s : StageState) : Prop :=
  s.arrivals.map Entry.buffer = List.range s.arrivals.length

/-- The occupancy is the number of buffers in the table. -/
def Occupied (s : StageState) : Prop := s.occupancy = s.waiting.length

/-- The step loses no buffer: the process ends with no marker frame waiting, and is not told to end while
it has a buffer in its hand. -/
def KeepsBuffers (s : StageState) : Label → Prop
  | .scan => s.terminating = true → s.markerFrameBuffer = none
  | .extract (.decoded _) => s.terminating = false
  | .output _ => s.terminating = false
  | _ => True

instance (s : StageState) : (label : Label) → Decidable (s.KeepsBuffers label)
  | .scan => inferInstanceAs (Decidable (_ → _))
  | .extract (.decoded _) => inferInstanceAs (Decidable (_ = _))
  | .output _ => inferInstanceAs (Decidable (_ = _))
  | .extract .nothing | .extract (.control _) | .skip | .passMarker | .assign _ _
  | .assignNonDecoded _ _ | .recordNonDecodedFrame _ _ | .direction _ | .decodeBufferCount _
  | .discardPtoD _ | .discardDtoM | .terminate => isTrue trivial

/-! ### What a step moves -/

/-- Buffers arrive and buffers are lost; the others are somewhere. -/
structure Moves (s t : StageState) (new lost : List Entry) : Prop where
  located : (lost ++ t.places).Perm (s.places ++ new)
  arrivals : t.arrivals = s.arrivals ++ new

variable {s t : StageState}

theorem hand_in_loop (h : s.phase = .scan ∨ s.phase = .skip ∨ s.phase = .get) :
    s.hand = [] := by
  unfold hand
  rcases h with hphase | hphase | hphase <;> rw [hphase]

theorem held_in_loop (h : s.phase = .scan ∨ s.phase = .skip ∨ s.phase = .get) :
    s.held = s.waiting ++ s.markerFrameBuffer.toList := by
  unfold held hand
  rcases h with hphase | hphase | hphase <;> rw [hphase] <;> rfl

variable {e : Entry}

theorem held_in_hand (h : s.phase = .output e) :
    s.held = e :: (s.waiting ++ s.markerFrameBuffer.toList) := by
  unfold held hand
  rw [h]
  rfl

theorem Moves.still (hpassed : t.passedOn = s.passedOn) (hheld : t.held.Perm s.held)
    (harrivals : t.arrivals = s.arrivals) : Moves s t [] [] where
  located := by
    rw [List.nil_append, List.append_nil, places, places, hpassed]
    exact hheld.append_left _
  arrivals := by rw [harrivals, List.append_nil]

theorem cleanUp_places (hs : s.Occupied) :
    s.cleanUp.places = s.passedOn ++ s.waiting ∧ s.cleanUp.arrivals = s.arrivals := by
  have hpassed : (if s.occupancy = 0 then s.passedOn else s.passedOn ++ s.waiting) =
      s.passedOn ++ s.waiting := by
    split
    next hzero =>
      have hempty : s.waiting = [] := List.eq_nil_of_length_eq_zero (hs.symm.trans hzero)
      rw [hempty, List.append_nil]
    next => rfl
  obtain ⟨records, removals, heq⟩ := s.cleanUp_eq
  rw [heq, hpassed]
  exact ⟨List.append_nil _, rfl⟩

theorem take_held {slot : ℕ} (hslot : s.table[slot]? = some (some e)) :
    (s.take slot e).held.Perm (s.waiting ++ s.markerFrameBuffer.toList) := by
  have hperm := Slots.set_none_perm hslot
  exact hperm.symm.append_right _

theorem leave_held (s : StageState) : s.leave.held = s.waiting ++ s.markerFrameBuffer.toList := by
  rfl

theorem scan_moves (hrunning : ¬ s.terminating = true) (hphase : s.phase = .scan) :
    Moves s s.scan [] [] := by
  have hheld : s.held = s.waiting ++ s.markerFrameBuffer.toList := by
    exact held_in_loop (.inl hphase)
  unfold scan
  rw [if_neg hrunning]
  split
  next =>
    refine Moves.still rfl ?_ rfl
    rw [leave_held, hheld]
    exact List.Perm.refl _
  next =>
    split
    next =>
      refine Moves.still rfl ?_ rfl
      rw [leave_held, hheld]
      exact List.Perm.refl _
    next slot e hlowest =>
      split
      next =>
        refine Moves.still rfl ?_ rfl
        rw [hheld]
        exact take_held (lowest_some hlowest).1
      next =>
        refine Moves.still rfl ?_ rfl
        rw [leave_held, hheld]
        exact List.Perm.refl _

theorem scan_moves_end (hs : s.Occupied) (hend : s.terminating = true)
    (hphase : s.phase = .scan) : Moves s s.scan [] s.markerFrameBuffer.toList := by
  obtain ⟨hplaces, harrivals⟩ := cleanUp_places hs
  have hheld : s.held = s.waiting ++ s.markerFrameBuffer.toList := by
    exact held_in_loop (.inl hphase)
  unfold scan
  rw [if_pos hend]
  refine ⟨?_, by rw [harrivals, List.append_nil]⟩
  rw [List.append_nil, hplaces, places, hheld, ← List.append_assoc s.passedOn]
  exact List.perm_append_comm

theorem Moves.surroundings (hphase : t.phase = s.phase) (htable : t.table = s.table)
    (hmarker : t.markerFrameBuffer = s.markerFrameBuffer) (hpassed : t.passedOn = s.passedOn)
    (harrivals : t.arrivals = s.arrivals) : Moves s t [] [] := by
  refine Moves.still hpassed ?_ harrivals
  unfold held hand waiting
  rw [hphase, htable, hmarker]

theorem skip_moves (hphase : s.phase = .skip) : Moves s s.skip [] [] := by
  have hheld : s.held = s.waiting ++ s.markerFrameBuffer.toList := by
    exact held_in_loop (.inr (.inl hphase))
  unfold skip
  split
  next => exact Moves.surroundings rfl rfl rfl rfl rfl
  next =>
    refine Moves.still rfl ?_ rfl
    rw [hheld, held_in_loop (by exact .inr (.inr rfl))]
    exact List.Perm.refl _

theorem passMarker_moves (hphase : s.phase = .get)
    (hmarker : s.markerFrameBuffer = some e) : Moves s (s.passMarker e) [] [] where
  located := by
    have hheld : s.held = s.waiting ++ [e] := by
      rw [held_in_loop (.inr (.inr hphase)), hmarker]
      rfl
    have hheld' : (s.passMarker e).held = s.waiting := by
      exact List.append_nil _
    rw [List.nil_append, List.append_nil, places, places, hheld, hheld']
    change (s.passedOn ++ [e] ++ s.waiting).Perm _
    rw [List.append_assoc]
    exact List.perm_append_comm.append_left _
  arrivals := (List.append_nil _).symm

theorem place_places (a : Arrival) (e : Entry) (hphase : s.phase = .get)
    (hmarker : s.markerFrameBuffer = none) :
    (s.place a e).places.Perm (s.places ++ [e]) ∧ (s.place a e).arrivals = s.arrivals := by
  have hheld : s.held = s.waiting := by
    rw [held_in_loop (.inr (.inr hphase)), hmarker]
    exact List.append_nil _
  have hrelease : (s.passedOn ++ [e] ++ s.waiting).Perm (s.passedOn ++ s.waiting ++ [e]) := by
    rw [List.append_assoc, List.append_assoc]
    exact List.perm_append_comm.append_left _
  have hhold : (s.passedOn ++ (e :: s.waiting)).Perm (s.passedOn ++ s.waiting ++ [e]) := by
    rw [List.append_assoc]
    have hcomm : ([e] ++ s.waiting).Perm (s.waiting ++ [e]) := List.perm_append_comm
    exact hcomm.append_left _
  have hnone : s.markerFrameBuffer.toList = [] := by
    rw [hmarker]
    rfl
  rw [places, places, hheld]
  unfold place
  split
  next =>
    refine ⟨?_, rfl⟩
    rw [held_in_loop (by exact .inl rfl)]
    rw [hnone, List.append_nil]
    exact hrelease
  next =>
    dsimp only
    split
    next =>
      refine ⟨?_, rfl⟩
      change (s.passedOn ++ (s.waiting ++ [e])).Perm _
      rw [List.append_assoc]
    next =>
      split
      next =>
        refine ⟨?_, rfl⟩
        rw [held_in_loop (by exact .inl rfl)]
        rw [hnone, List.append_nil]
        exact hrelease
      next =>
        split
        next =>
          refine ⟨?_, rfl⟩
          rw [held_in_hand (e := e) (by exact rfl)]
          rw [hnone, List.append_nil]
          exact hhold
        next =>
          split
          next table hinsert =>
            refine ⟨?_, rfl⟩
            rw [held_in_loop (by exact .inl rfl)]
            rw [hnone, List.append_nil]
            exact ((Slots.insert_perm hinsert).append_left _).trans hhold
          next =>
            refine ⟨?_, rfl⟩
            rw [held_in_hand (e := e) (by exact rfl)]
            rw [hnone, List.append_nil]
            exact hhold

theorem decoded_moves (a : Arrival) (hphase : s.phase = .get)
    (hmarker : s.markerFrameBuffer = none) :
    ∃ new lost, Moves s (s.extract (.decoded a)) new lost ∧ (lost = [] ↔ s.terminating = false) := by
  unfold extract
  dsimp only
  split
  next hend =>
    refine ⟨[⟨s.arrivals.length, a.sequenceNumber⟩], [⟨s.arrivals.length, a.sequenceNumber⟩],
      ⟨?_, rfl⟩, ?_⟩
    · have hheld : s.held = s.waiting ++ s.markerFrameBuffer.toList := by
        exact held_in_loop (.inr (.inr hphase))
      rw [places, places, hheld, held_in_loop (by exact .inl rfl)]
      exact List.perm_append_comm
    · rw [hend]
      exact iff_of_false (List.cons_ne_nil _ _) (fun h => by cases h)
  next hrunning =>
    obtain ⟨hplaces, harrivals⟩ := place_places (s := s.arrive a) a
      ⟨s.arrivals.length, a.sequenceNumber⟩ hphase hmarker
    refine ⟨[⟨s.arrivals.length, a.sequenceNumber⟩], [], ⟨hplaces, harrivals⟩, ?_⟩
    exact iff_of_true rfl (Bool.eq_false_iff.mpr hrunning)

theorem output_moves (outcome : Outcome) (hphase : s.phase = .output e) :
    ∃ lost, Moves s (s.output e outcome) [] lost ∧ (lost = [] ↔ s.terminating = false) := by
  have hheld := held_in_hand hphase
  unfold output
  split
  next hend =>
    refine ⟨[e], ⟨?_, (List.append_nil _).symm⟩, ?_⟩
    · rw [List.append_nil, places, places, hheld, held_in_loop (by exact .inl rfl)]
      change (e :: (s.passedOn ++ (s.waiting ++ s.markerFrameBuffer.toList))).Perm _
      exact List.perm_middle.symm
    · rw [hend]
      exact iff_of_false (List.cons_ne_nil _ _) (fun h => by cases h)
  next hrunning =>
    refine ⟨[], ⟨?_, (List.append_nil _).symm⟩, iff_of_true rfl (Bool.eq_false_iff.mpr hrunning)⟩
    rw [List.append_nil, List.nil_append, places, places, hheld, held_in_loop (by exact .inl rfl)]
    rw [List.append_assoc]
    exact List.Perm.refl _

variable {label : Label}

/-- What a step moves: it loses a buffer exactly when it does not meet `KeepsBuffers`. -/
theorem step_moves (hs : s.Occupied) (h : s.Steps label t) :
    ∃ new lost, Moves s t new lost ∧ (lost = [] ↔ s.KeepsBuffers label) := by
  cases h with
  | scan hphase =>
    by_cases hend : s.terminating = true
    · refine ⟨[], s.markerFrameBuffer.toList, scan_moves_end hs hend hphase, ?_⟩
      cases hmarker : s.markerFrameBuffer with
      | none => exact iff_of_true rfl fun _ => hmarker
      | some e =>
        refine iff_of_false (List.cons_ne_nil _ _) fun hkeeps => ?_
        exact Option.some_ne_none e (hmarker.symm.trans (hkeeps hend))
    · exact ⟨[], [], scan_moves hend hphase, iff_of_true rfl fun h => absurd h hend⟩
  | skip hphase => exact ⟨[], [], skip_moves hphase, iff_of_true rfl trivial⟩
  | passMarker e hphase hmarker => exact ⟨[], [], passMarker_moves hphase hmarker, iff_of_true rfl trivial⟩
  | nothing hphase hmarker =>
    refine ⟨[], [], Moves.still rfl ?_ rfl, iff_of_true rfl trivial⟩
    rw [held_in_loop (.inr (.inr hphase)), held_in_loop (by exact .inl rfl)]
    exact List.Perm.refl _
  | control m hphase hmarker =>
    refine ⟨[], [], Moves.still ?_ ?_ ?_, iff_of_true rfl trivial⟩
    · unfold extract
      dsimp only
      split <;> rfl
    · have hheld : (s.extract (.control m)).held = s.waiting ++ s.markerFrameBuffer.toList := by
        unfold extract
        dsimp only
        split
        · rfl
        · rfl
      rw [hheld, held_in_loop (.inr (.inr hphase))]
    · unfold extract
      dsimp only
      split <;> rfl
  | decoded a hphase hmarker hindex hnumber => exact decoded_moves a hphase hmarker
  | output e outcome hphase => exact ⟨[], output_moves outcome hphase⟩
  | assign buffer index hnone hvalid hfresh =>
    exact ⟨[], [], Moves.surroundings rfl rfl rfl rfl rfl, iff_of_true rfl trivial⟩
  | assignNonDecoded slot index r hslot hheld hnone hvalid hfresh =>
    exact ⟨[], [], Moves.surroundings rfl rfl rfl rfl rfl, iff_of_true rfl trivial⟩
  | record index collapse hindex =>
    obtain ⟨records, insertions, collapse', heq⟩ :=
      recordNonDecodedFrame_eq { s with indices := s.giveOut index } index collapse
    rw [heq]
    exact ⟨[], [], Moves.surroundings rfl rfl rfl rfl rfl, iff_of_true rfl trivial⟩
  | direction playForward => exact ⟨[], [], Moves.surroundings rfl rfl rfl rfl rfl, iff_of_true rfl trivial⟩
  | decodeBufferCount count hcount =>
    exact ⟨[], [], Moves.surroundings rfl rfl rfl rfl rfl, iff_of_true rfl trivial⟩
  | discardPtoD discarding =>
    exact ⟨[], [], Moves.surroundings rfl rfl rfl rfl rfl, iff_of_true rfl trivial⟩
  | discardDtoM => exact ⟨[], [], Moves.surroundings rfl rfl rfl rfl rfl, iff_of_true rfl trivial⟩
  | terminate => exact ⟨[], [], Moves.surroundings rfl rfl rfl rfl rfl, iff_of_true rfl trivial⟩

/-! ### The occupancy -/

theorem cleanUp_table (s : StageState) :
    s.cleanUp.table = s.table ∧ s.cleanUp.occupancy = s.occupancy ∧ s.cleanUp.overlooked = s.overlooked := by
  obtain ⟨records, removals, heq⟩ := s.cleanUp_eq
  rw [heq]
  exact ⟨rfl, rfl, rfl⟩

theorem Occupied.scan (hs : s.Occupied) : s.scan.Occupied := by
  unfold StageState.scan
  split
  next =>
    obtain ⟨htable, hoccupancy, -⟩ := s.cleanUp_table
    rw [Occupied, waiting, htable, hoccupancy]
    exact hs
  next =>
    split
    next => exact hs
    next =>
      split
      next => exact hs
      next slot e hlowest =>
        split
        next =>
          have hlength := (Slots.set_none_perm (lowest_some hlowest).1).length_eq
          rw [List.length_cons] at hlength
          change s.occupancy - 1 = (s.table.set slot none).reduceOption.length
          have hcount : s.occupancy = s.table.reduceOption.length := hs
          omega
        next => exact hs

theorem Occupied.place (hs : s.Occupied) (a : Arrival) (e : Entry) :
    (s.place a e).Occupied := by
  unfold StageState.place
  split
  next => exact hs
  next =>
    dsimp only
    split
    next => exact hs
    next =>
      split
      next => exact hs
      next =>
        split
        next => exact hs
        next =>
          split
          next table hinsert =>
            have hlength := (Slots.insert_perm hinsert).length_eq
            rw [List.length_cons] at hlength
            change s.occupancy + 1 = table.reduceOption.length
            have hcount : s.occupancy = s.table.reduceOption.length := hs
            omega
          next => exact hs

theorem Occupied.step (hs : s.Occupied) (h : s.Steps label t) :
    t.Occupied := by
  cases h with
  | scan hphase => exact hs.scan
  | skip hphase =>
    unfold StageState.skip
    split <;> exact hs
  | control m hphase hmarker =>
    unfold StageState.extract
    dsimp only
    split <;> exact hs
  | decoded a hphase hmarker hindex hnumber =>
    unfold StageState.extract
    dsimp only
    split
    next => exact hs
    next => exact Occupied.place (s := s.arrive a) hs a _
  | output e outcome hphase =>
    unfold StageState.output
    split <;> exact hs
  | record index collapse hindex =>
    obtain ⟨records, insertions, collapse', heq⟩ :=
      recordNonDecodedFrame_eq { s with indices := s.giveOut index } index collapse
    rw [heq]
    exact hs
  | _ => exact hs

theorem place_arrivals (s : StageState) (a : Arrival) (e : Entry) :
    (s.place a e).arrivals = s.arrivals := by
  unfold place
  dsimp only
  repeat' split
  all_goals rfl

theorem cleanUp_arrivals (s : StageState) : s.cleanUp.arrivals = s.arrivals := by
  obtain ⟨records, removals, heq⟩ := s.cleanUp_eq
  rw [heq]

theorem step_arrivals (h : s.Steps label t) :
    t.arrivals = s.arrivals ∨ ∃ a, label = .extract (.decoded a) ∧
      t.arrivals = s.arrivals ++ [⟨s.arrivals.length, a.sequenceNumber⟩] := by
  cases h with
  | scan hphase =>
    left
    unfold StageState.scan
    split
    next => exact s.cleanUp_arrivals
    next =>
      repeat' split
      all_goals rfl
  | skip hphase =>
    left
    unfold StageState.skip
    split <;> rfl
  | control m hphase hmarker =>
    left
    unfold StageState.extract
    dsimp only
    split <;> rfl
  | decoded a hphase hmarker hindex hnumber =>
    right
    refine ⟨a, rfl, ?_⟩
    unfold StageState.extract
    dsimp only
    split
    next => rfl
    next => exact place_arrivals _ _ _
  | output e outcome hphase =>
    left
    unfold StageState.output
    split <;> rfl
  | record index collapse hindex =>
    left
    obtain ⟨records, insertions, collapse', heq⟩ :=
      recordNonDecodedFrame_eq { s with indices := s.giveOut index } index collapse
    rw [heq]
  | _ => exact .inl rfl

theorem Numbered.step (hs : s.Numbered) (h : s.Steps label t) :
    t.Numbered := by
  rcases step_arrivals h with heq | ⟨a, -, heq⟩
  · rw [Numbered, heq]
    exact hs
  · rw [Numbered, heq, List.map_append, hs, List.length_append, List.length_singleton, List.range_succ]
    rfl

theorem Numbered.nodup (hs : s.Numbered) : s.arrivals.Nodup := by
  have hmap : (s.arrivals.map Entry.buffer).Nodup := hs ▸ List.nodup_range
  exact List.Nodup.of_map Entry.buffer hmap

theorem start_numbered (n : ℕ) : (start n).Numbered := rfl

theorem start_occupied (n : ℕ) : (start n).Occupied := by
  change 0 = (List.replicate n (none : Option Entry)).reduceOption.length
  rw [List.reduceOption_replicate_none]
  rfl

/-! ### Runs -/

theorem step_accounted (hs : s.Occupied) (hacc : s.Accounted)
    (hn : s.Numbered) (h : s.Steps label t) : t.Accounted ↔ s.KeepsBuffers label := by
  obtain ⟨new, lost, hmoves, hiff⟩ := step_moves hs h
  have harrived : (lost ++ t.places).Perm t.arrivals := by
    rw [hmoves.arrivals]
    exact hmoves.located.trans (hacc.2.append_right new)
  rw [← hiff]
  constructor
  · intro hkept
    have hlength := harrived.length_eq
    have hlength' := hkept.2.length_eq
    rw [List.length_append] at hlength
    exact List.eq_nil_of_length_eq_zero (by omega)
  · intro hlost
    rw [hlost] at harrived
    exact ⟨harrived.nodup_iff.mpr (hn.step h).nodup, harrived⟩

theorem start_accounted (n : ℕ) : (start n).Accounted := by
  have hwaiting : (start n).waiting = [] := List.reduceOption_replicate_none
  rw [Accounted, places, held_in_loop (.inl rfl), hwaiting]
  exact ⟨List.nodup_nil, List.Perm.nil⟩

/-- In a run every buffer stays in one place exactly when no step loses one. -/
theorem run_accounted_iff {n : ℕ} {labels : List Label}
    (h : Lts.run step (start n) labels = some s) :
    Lts.Throughout step Accounted (start n) labels ↔ Lts.Along step KeepsBuffers (start n) labels :=
  Lts.throughout_iff_along_of_run (J := fun s => s.Occupied ∧ s.Numbered)
    (fun _ _ _ hs hstep => ⟨hs.1.step (steps_of_step hstep), hs.2.step (steps_of_step hstep)⟩)
    (fun _ _ _ hs hacc hstep => step_accounted hs.1 hacc hs.2 (steps_of_step hstep))
    ⟨start_occupied n, start_numbered n⟩ (start_accounted n) h

/-! ### The marker frame -/

/-- A marker frame that is passed on leaves nothing behind: the table is empty, and every other buffer that
has arrived has been passed on. -/
def FlushesMarker (s : StageState) : Option Entry → Prop
  | none => True
  | some e => s.phase = .get → s.waiting = [] ∧ ∀ e' ∈ s.arrivals, e' = e ∨ e' ∈ s.passedOn

instance (s : StageState) : (marker : Option Entry) → Decidable (s.FlushesMarker marker)
  | none => isTrue trivial
  | some _ => inferInstanceAs (Decidable (_ → _ ∧ _))

/-- When the marker frame is passed on, the stage has been flushed. -/
def Flushes (s : StageState) : Label → Prop
  | .passMarker => s.FlushesMarker s.markerFrameBuffer
  | _ => True

instance (s : StageState) (label : Label) : Decidable (s.Flushes label) :=
  match label with
  | .passMarker => inferInstanceAs (Decidable (s.FlushesMarker _))
  | .scan | .skip | .extract _ | .output _ | .assign _ _ | .assignNonDecoded _ _
  | .recordNonDecodedFrame _ _ | .direction _ | .decodeBufferCount _ | .discardPtoD _ | .discardDtoM
  | .terminate => isTrue trivial

/-- A scan for the marker frame finds a buffer with an index, or an empty table. -/
def FlushMeant (s : StageState) : Label → Prop
  | .scan => s.terminating = false → s.markerFrameBuffer.isSome = true →
      s.lowest.isSome = true ∨ s.waiting = []
  | _ => True

instance (s : StageState) (label : Label) : Decidable (s.FlushMeant label) :=
  match label with
  | .scan => inferInstanceAs (Decidable (_ → _ → _ ∨ _))
  | .skip | .passMarker | .extract _ | .output _ | .assign _ _ | .assignNonDecoded _ _
  | .recordNonDecodedFrame _ _ | .direction _ | .decodeBufferCount _ | .discardPtoD _ | .discardDtoM
  | .terminate => isTrue trivial

/-- A buffer was lost only if the process is about to end. -/
def LostAtEnd (s : StageState) : Prop :=
  s.Accounted ∨ s.terminating = true ∧ (s.phase = .scan ∨ s.phase = .terminated)

/-- Behind a scan for the marker frame, the table is empty. -/
def EmptyForMarker (s : StageState) : Prop :=
  s.markerFrameBuffer.isSome = true → s.phase = .skip ∨ s.phase = .get → s.waiting = []

theorem cleanUp_phase (s : StageState) : s.cleanUp.phase = .terminated ∧
    s.cleanUp.terminating = s.terminating := by
  obtain ⟨records, removals, heq⟩ := s.cleanUp_eq
  rw [heq]
  exact ⟨rfl, rfl⟩

theorem ends_step (hend : s.terminating = true)
    (hphase : s.phase = .scan ∨ s.phase = .terminated) (h : s.Steps label t) :
    t.terminating = true ∧ (t.phase = .scan ∨ t.phase = .terminated) := by
  have hget : s.phase ≠ .get := by
    rcases hphase with hphase | hphase <;> rw [hphase] <;> exact Phase.noConfusion
  have hskip : s.phase ≠ .skip := by
    rcases hphase with hphase | hphase <;> rw [hphase] <;> exact Phase.noConfusion
  have houtput : ∀ e, s.phase ≠ .output e := by
    intro e
    rcases hphase with hphase | hphase <;> rw [hphase] <;> exact Phase.noConfusion
  cases h with
  | scan _ =>
    unfold StageState.scan
    rw [if_pos hend]
    exact ⟨s.cleanUp_phase.2.trans hend, .inr s.cleanUp_phase.1⟩
  | skip h => exact absurd h hskip
  | passMarker e h hmarker => exact absurd h hget
  | nothing h hmarker => exact absurd h hget
  | control m h hmarker => exact absurd h hget
  | decoded a h hmarker hindex hnumber => exact absurd h hget
  | output e outcome h => exact absurd h (houtput e)
  | record index collapse hindex =>
    obtain ⟨records, insertions, collapse', heq⟩ :=
      recordNonDecodedFrame_eq { s with indices := s.giveOut index } index collapse
    rw [heq]
    exact ⟨hend, hphase⟩
  | terminate => exact ⟨rfl, hphase⟩
  | _ => exact ⟨hend, hphase⟩

theorem loses_step (hlost : ¬ s.KeepsBuffers label)
    (h : s.Steps label t) : t.terminating = true ∧ (t.phase = .scan ∨ t.phase = .terminated) := by
  cases h with
  | scan hphase =>
    have hend : s.terminating = true := by
      by_contra hrunning
      exact hlost fun h => absurd h hrunning
    exact ends_step hend (.inl hphase) (.scan hphase)
  | decoded a hphase hmarker hindex hnumber =>
    have hend : s.terminating = true := Bool.not_eq_false _ |>.mp hlost
    unfold StageState.extract
    dsimp only
    rw [if_pos hend]
    exact ⟨hend, .inl rfl⟩
  | output e outcome hphase =>
    have hend : s.terminating = true := Bool.not_eq_false _ |>.mp hlost
    unfold StageState.output
    rw [if_pos hend]
    exact ⟨hend, .inl rfl⟩
  | _ => exact absurd trivial hlost

theorem LostAtEnd.step (hs : s.Occupied) (hn : s.Numbered)
    (hlost : s.LostAtEnd) (h : s.Steps label t) : t.LostAtEnd := by
  rcases hlost with hacc | ⟨hend, hphase⟩
  · by_cases hkeeps : s.KeepsBuffers label
    · exact .inl ((step_accounted hs hacc hn h).mpr hkeeps)
    · exact .inr (loses_step hkeeps h)
  · exact .inr (ends_step hend hphase h)

theorem EmptyForMarker.scan (hs : s.Occupied) (hmeant : s.FlushMeant .scan) :
    s.scan.EmptyForMarker := by
  unfold StageState.scan
  split
  next =>
    intro _ hphase
    rw [s.cleanUp_phase.1] at hphase
    rcases hphase with hphase | hphase <;> cases hphase
  next hrunning =>
    have hmeant := hmeant (Bool.eq_false_iff.mpr hrunning)
    split
    next hzero =>
      intro _ _
      exact List.eq_nil_of_length_eq_zero (hs.symm.trans hzero)
    next =>
      split
      next hlowest =>
        intro hmarker _
        rcases hmeant hmarker with hsome | hempty
        · rw [hlowest] at hsome
          cases hsome
        · exact hempty
      next slot e hlowest =>
        split
        next =>
          intro _ hphase
          rcases hphase with hphase | hphase <;> cases hphase
        next hreleases =>
          intro hmarker _
          refine absurd ?_ hreleases
          have hsome : s.markerFrameBuffer.isSome = true := hmarker
          unfold releases
          rw [hsome, Bool.or_true]

theorem EmptyForMarker.of_scan (h : s.phase = .scan ∨ ∃ e, s.phase = .output e) :
    s.EmptyForMarker := by
  intro _ hphase
  rcases h with hscan | ⟨e, houtput⟩
  · rw [hscan] at hphase
    rcases hphase with hphase | hphase <;> cases hphase
  · rw [houtput] at hphase
    rcases hphase with hphase | hphase <;> cases hphase

theorem place_phase (s : StageState) (a : Arrival) (e : Entry) :
    (s.place a e).phase = .scan ∨ ∃ e', (s.place a e).phase = .output e' := by
  unfold place
  dsimp only
  repeat' split
  all_goals first | exact .inl rfl | exact .inr ⟨_, rfl⟩

theorem EmptyForMarker.step (hs : s.Occupied)
    (hempty : s.EmptyForMarker) (hmeant : s.FlushMeant label) (h : s.Steps label t) :
    t.EmptyForMarker := by
  cases h with
  | scan hphase => exact EmptyForMarker.scan hs hmeant
  | skip hphase =>
    unfold StageState.skip
    split
    next => exact hempty
    next => exact fun hmarker _ => hempty hmarker (.inl hphase)
  | passMarker e hphase hmarker => exact EmptyForMarker.of_scan (.inl rfl)
  | nothing hphase hmarker => exact EmptyForMarker.of_scan (.inl rfl)
  | control m hphase hmarker =>
    unfold StageState.extract
    dsimp only
    split <;> exact EmptyForMarker.of_scan (.inl rfl)
  | decoded a hphase hmarker hindex hnumber =>
    unfold StageState.extract
    dsimp only
    split
    next => exact EmptyForMarker.of_scan (.inl rfl)
    next => exact EmptyForMarker.of_scan (place_phase _ _ _)
  | output e outcome hphase =>
    unfold StageState.output
    split <;> exact EmptyForMarker.of_scan (.inl rfl)
  | record index collapse hindex =>
    obtain ⟨records, insertions, collapse', heq⟩ :=
      recordNonDecodedFrame_eq { s with indices := s.giveOut index } index collapse
    rw [heq]
    exact hempty
  | _ => exact hempty

/-- What a run keeps under `FlushMeant`. -/
structure Flushing (s : StageState) : Prop where
  occupied : s.Occupied
  numbered : s.Numbered
  lost : s.LostAtEnd
  empty : s.EmptyForMarker

theorem Flushing.step (hs : s.Flushing) (hmeant : s.FlushMeant label)
    (h : s.Steps label t) : t.Flushing where
  occupied := hs.occupied.step h
  numbered := hs.numbered.step h
  lost := hs.lost.step hs.occupied hs.numbered h
  empty := hs.empty.step hs.occupied hmeant h

theorem Flushing.flushes (hs : s.Flushing) (label : Label) : s.Flushes label := by
  cases label with
  | passMarker =>
    change s.FlushesMarker s.markerFrameBuffer
    cases hmarker : s.markerFrameBuffer with
    | none => trivial
    | some e =>
      intro hphase
      have hwaiting : s.waiting = [] := hs.empty (by rw [hmarker]; rfl) (.inr hphase)
      refine ⟨hwaiting, ?_⟩
      rcases hs.lost with hacc | ⟨-, hend⟩
      · intro e' he'
        have hmem := hacc.2.mem_iff.mpr he'
        rw [places, held_in_loop (.inr (.inr hphase)), hwaiting, hmarker] at hmem
        rcases List.mem_append.mp hmem with hpassed | hheld
        · exact .inr hpassed
        · exact .inl (List.mem_singleton.mp hheld)
      · rw [hphase] at hend
        rcases hend with hend | hend <;> cases hend
  | _ => trivial

/-- **A marker flushes the stage**: in every run in which a scan for the marker frame finds a buffer with
an index as long as any is waiting, the marker frame is passed on with the table empty, after every buffer
that arrived before it. -/
theorem run_flushes {n : ℕ} {labels : List Label}
    (hlabels : Lts.Along step FlushMeant (start n) labels) : Lts.Along step Flushes (start n) labels := by
  have hstart : (start n).Flushing :=
    ⟨start_occupied n, start_numbered n, .inl (start_accounted n), EmptyForMarker.of_scan (.inl rfl)⟩
  exact Lts.along_of_along (fun _ _ _ hs hmeant hstep => hs.step hmeant (steps_of_step hstep))
    (fun _ label hs _ => hs.flushes label) hstart hlabels

/-- A decode buffer with its sequence number and display frame index. -/
def bufferItem (sequenceNumber displayFrameIndex : ℕ) : RingItem :=
  .decoded ⟨sequenceNumber, true, false, true, ⟨displayFrameIndex, false, 0⟩⟩

/-- A marker frame. -/
def markerItem (sequenceNumber : ℕ) : RingItem :=
  .decoded ⟨sequenceNumber, true, true, true, ⟨invalidIndex, false, 0⟩⟩

/-- Two buffers wait, and a marker frame comes. -/
def markerBehindTwo : List Label :=
  [.scan, .skip, .extract (bufferItem 0 2), .scan, .skip, .extract (bufferItem 1 1), .scan, .skip,
    .extract (markerItem 2), .scan, .output .queued, .scan, .output .queued, .scan, .skip, .passMarker]

/-- `run_flushes` over the two buffers. -/
theorem run_flushes_markerBehindTwo :
    (Lts.run step (start 8) markerBehindTwo).map (fun s => s.passedOn.map Entry.buffer) =
        some [1, 0, 2] ∧
      Lts.Along step Flushes (start 8) markerBehindTwo := by
  have hlabels : Lts.Along step FlushMeant (start 8) markerBehindTwo := by decide +kernel
  exact ⟨by decide +kernel, run_flushes hlabels⟩

/-- A buffer without an index waits, and a marker frame comes. -/
def markerBehindUnassigned : List Label :=
  [.scan, .skip, .extract (bufferItem 0 invalidIndex), .scan, .skip, .extract (markerItem 1), .scan, .skip,
    .passMarker]

/-- The marker frame passes a buffer whose index is not known yet. -/
theorem not_run_flushes_markerBehindUnassigned :
    ¬ ∀ (n : ℕ) (labels : List Label), (Lts.run step (start n) labels).isSome = true →
      Lts.Along step Flushes (start n) labels := by
  intro hall
  have hflushes := hall 8 markerBehindUnassigned (by decide +kernel)
  have hnot : ¬ Lts.Along step Flushes (start 8) markerBehindUnassigned := by decide +kernel
  exact hnot hflushes

end StageState
end Player2.DecodeToManifest

import Player2.Manifestor

/-! # Events signalled for the buffers on display

An event that is registered with the manifestor is to be signalled when the buffer that was queued last has
gone on display.  `ServiceEventQueue` is called with the buffer on display and signals the events from the
oldest one on, until it has come to one for this buffer and the next one is for another.

`run_signals` says that the events are always signalled in the order in which they were registered, each of
them once, and when none of them is signalled too early: every event that waits for a buffer not on display
yet has to stand behind one for the buffer that is on display.  A buffer has no event of its own when the
events before it were registered for the buffer ahead of it; then the whole list is signalled. -/

namespace Player2.Manifestor

/-! ### A scan that stops behind a mark -/

section Scan
variable {α : Type*} (own other : α → Bool)

/-- The elements up to the first one of another kind behind one of the own kind. -/
def reached : Bool → List α → List α
  | _, [] => []
  | found, a :: rest => if found && other a then [] else a :: reached (found || own a) rest

/-- The elements behind them. -/
def unreached : Bool → List α → List α
  | _, [] => []
  | found, a :: rest => if found && other a then a :: rest else unreached (found || own a) rest

theorem reached_append_unreached (found : Bool) (list : List α) :
    reached own other found list ++ unreached own other found list = list := by
  induction list generalizing found with
  | nil => rfl
  | cons a rest ih =>
    unfold reached unreached
    split
    next => rfl
    next => exact congrArg (a :: ·) (ih _)

/-- There is one of another kind at this place or before it, and one of the own kind still before that. -/
def Shielded (found : Bool) (list : List α) (place : ℕ) : Prop :=
  ∃ j, j ≤ place ∧ (∃ b ∈ list[j]?, other b = true) ∧
    (found = true ∨ ∃ i, i < j ∧ ∃ c ∈ list[i]?, own c = true)

variable {own other}

variable {found : Bool} {rest : List α}

theorem not_shielded_zero {a : α} (h : (found && other a) = false) :
    ¬ Shielded own other found (a :: rest) 0 := by
  rintro ⟨j, hj, ⟨b, hb, hother⟩, hfound⟩
  obtain rfl : j = 0 := by omega
  obtain rfl : a = b := Option.some.inj hb
  rcases hfound with rfl | ⟨i, hi, -⟩
  · rw [hother] at h
    cases h
  · omega

theorem shielded_succ_iff {a : α} (h : (found && other a) = false)
    {place : ℕ} :
    Shielded own other found (a :: rest) (place + 1) ↔ Shielded own other (found || own a) rest place := by
  constructor
  · rintro ⟨j, hj, ⟨b, hb, hother⟩, hfound⟩
    cases j with
    | zero => exact absurd ⟨0, le_rfl, ⟨b, hb, hother⟩, hfound⟩ (not_shielded_zero h)
    | succ j =>
      refine ⟨j, by omega, ⟨b, hb, hother⟩, ?_⟩
      rcases hfound with rfl | ⟨i, hi, c, hc, hown⟩
      · exact .inl (Bool.true_or _)
      · cases i with
        | zero =>
          obtain rfl : a = c := Option.some.inj hc
          exact .inl (by rw [hown, Bool.or_true])
        | succ i => exact .inr ⟨i, by omega, c, hc, hown⟩
  · rintro ⟨j, hj, ⟨b, hb, hother⟩, hfound⟩
    refine ⟨j + 1, by omega, ⟨b, hb, hother⟩, ?_⟩
    rcases hfound with hfound | ⟨i, hi, c, hc, hown⟩
    · rcases Bool.or_eq_true_iff.mp hfound with hfound | hown
      · exact .inl hfound
      · exact .inr ⟨0, by omega, a, rfl, hown⟩
    · exact .inr ⟨i + 1, by omega, c, hc, hown⟩

theorem forall_reached_iff (p : α → Prop) (found : Bool) (list : List α) :
    (∀ a ∈ reached own other found list, p a) ↔
      ∀ place, place < list.length → ∀ a ∈ list[place]?, ¬ p a → Shielded own other found list place := by
  induction list generalizing found with
  | nil => exact ⟨fun _ place hplace => absurd hplace (Nat.not_lt_zero place), fun _ a ha => by cases ha⟩
  | cons a rest ih =>
    unfold reached
    cases h : found && other a with
    | true =>
      obtain ⟨hfound, hother⟩ := Bool.and_eq_true_iff.mp h
      refine iff_of_true (fun b hb => by cases hb) fun place _ _ _ _ => ?_
      exact ⟨0, Nat.zero_le _, ⟨a, rfl, hother⟩, .inl hfound⟩
    | false =>
      rw [if_neg Bool.false_ne_true, List.forall_mem_cons, ih]
      constructor
      · rintro ⟨hp, hrest⟩ place hplace b hb hnot
        cases place with
        | zero =>
          obtain rfl : a = b := Option.some.inj hb
          exact absurd hp hnot
        | succ place =>
          exact (shielded_succ_iff h).mpr (hrest place (Nat.lt_of_succ_lt_succ hplace) b hb hnot)
      · intro hall
        refine ⟨?_, fun place hplace b hb hnot => ?_⟩
        · by_contra hnot
          exact not_shielded_zero h (hall 0 (Nat.succ_pos _) a rfl hnot)
        · exact (shielded_succ_iff h).mp (hall (place + 1) (Nat.succ_lt_succ hplace) b hb hnot)

end Scan

/-- The event is for the buffer with this index. -/
def EventRecord.own (id : ℕ) (e : EventRecord) : Bool := e.id == id

/-- The event is for a buffer with another index. -/
def EventRecord.other (id : ℕ) (e : EventRecord) : Bool := e.id ≠ anyBufferId ∧ e.id ≠ id

namespace ManifestorState

/-! ### Servicing the events -/

section
variable {list : Circular.Ring EventRecord}

theorem passFirst_fits (h : list.Fits maximumWaitingEvents) :
    (passFirst list).Fits maximumWaitingEvents := Circular.Ring.drop_fits ⟨h.next_lt, h.last_lt⟩

theorem held_passFirst (h : list.Fits maximumWaitingEvents) (hne : list.next ≠ list.last) :
    list.held maximumWaitingEvents =
      list.slots list.next :: (passFirst list).held maximumWaitingEvents := by
  rw [Circular.Ring.held_drop h hne]
  exact congrArg (_ :: ·) (Circular.Ring.held_overwrite_drop h hne _).symm

theorem count_passFirst (h : list.Fits maximumWaitingEvents) (hne : list.next ≠ list.last) :
    (passFirst list).count maximumWaitingEvents + 1 = list.count maximumWaitingEvents := by
  rw [← Circular.Ring.length_held, ← Circular.Ring.length_held, held_passFirst h hne, List.length_cons]

end

variable {list : Circular.Ring EventRecord}

/-- The loop comes to the events that the scan reaches, and leaves the others. -/
theorem serviceLoop_eq (id : ℕ) {rounds : ℕ} (found : Bool)
    (h : list.Fits maximumWaitingEvents) (hne : list.next ≠ list.last)
    (hrounds : list.count maximumWaitingEvents ≤ rounds)
    (hhead : (found && (list.slots list.next).other id) = false) :
    ∃ list', serviceLoop id rounds found list =
        some (list', reached (EventRecord.own id) (EventRecord.other id) found
          (list.held maximumWaitingEvents)) ∧
      list'.Fits maximumWaitingEvents ∧
      list'.held maximumWaitingEvents = unreached (EventRecord.own id) (EventRecord.other id) found
        (list.held maximumWaitingEvents) := by
  induction rounds generalizing found list with
  | zero =>
    have hcount := count_passFirst h hne
    omega
  | succ rounds ih =>
    have hcount := count_passFirst h hne
    have hfits := passFirst_fits h
    rw [held_passFirst h hne]
    unfold reached unreached serviceLoop
    rw [hhead, if_neg Bool.false_ne_true, if_neg Bool.false_ne_true]
    generalize passFirst list = list' at hfits hcount ⊢
    dsimp only
    have hfound : (found || (list.slots list.next).id == id) =
        (found || EventRecord.own id (list.slots list.next)) := rfl
    rw [hfound]
    generalize (found || EventRecord.own id (list.slots list.next)) = found'
    have hother : (found' = true ∧ (list'.slots list'.next).id ≠ anyBufferId ∧
        (list'.slots list'.next).id ≠ id) ↔ (found' && (list'.slots list'.next).other id) = true := by
      rw [Bool.and_eq_true_iff]
      exact and_congr_right fun _ => decide_eq_true_iff.symm
    by_cases hempty : list'.next = list'.last
    · have hnil := (Circular.Ring.held_eq_nil_iff hfits).mpr hempty
      rw [if_pos (.inl hempty), hnil]
      exact ⟨list', rfl, hfits, hnil⟩
    · have hcons := Circular.Ring.held_drop hfits hempty
      cases hstop : found' && (list'.slots list'.next).other id with
      | true =>
        rw [if_pos (.inr (hother.mpr hstop)), hcons]
        unfold reached unreached
        rw [hstop, if_pos rfl, if_pos rfl, ← hcons]
        exact ⟨list', rfl, hfits, rfl⟩
      | false =>
        have hnot : ¬ (list'.next = list'.last ∨ found' = true ∧
            (list'.slots list'.next).id ≠ anyBufferId ∧ (list'.slots list'.next).id ≠ id) := by
          rw [hother, hstop]
          exact not_or.mpr ⟨hempty, Bool.false_ne_true⟩
        obtain ⟨list'', hloop, hfits'', hheld''⟩ := ih found' hfits hempty (by omega) hstop
        rw [if_neg hnot, hloop]
        exact ⟨list'', rfl, hfits'', hheld''⟩

/-- The events that the scan for this buffer reaches. -/
def due (s : ManifestorState) (id : ℕ) : List EventRecord :=
  reached (EventRecord.own id) (EventRecord.other id) false s.waiting

variable {s s' : ManifestorState}

theorem serviceEventQueue_eq (id : ℕ)
    (h : s.eventList.Fits maximumWaitingEvents) :
    ∃ list, s.serviceEventQueue id = some { s with
        eventList := list
        signalled := s.signalled ++ s.signalEvents (s.due id) } ∧
      list.Fits maximumWaitingEvents ∧ s.due id ++ list.held maximumWaitingEvents = s.waiting := by
  unfold serviceEventQueue
  by_cases hempty : s.eventList.last = s.eventList.next
  · have hnil : s.waiting = [] := (Circular.Ring.held_eq_nil_iff h).mpr hempty.symm
    have hdue : s.due id = [] := by
      unfold due
      rw [hnil]
      rfl
    refine ⟨s.eventList, ?_, h, ?_⟩
    · rw [if_pos hempty, hdue]
      simp only [signalEvents, List.filter_nil, List.map_nil, List.append_nil]
    · rw [hdue]
      rfl
  · obtain ⟨list, hloop, hfits, hheld⟩ := serviceLoop_eq id false h (Ne.symm hempty)
      (Nat.le_of_lt (Circular.Ring.count_lt h)) rfl
    rw [if_neg hempty, hloop]
    refine ⟨list, rfl, hfits, ?_⟩
    rw [hheld]
    exact reached_append_unreached ..

/-! ### Registering an event -/

theorem count_eq_of_full (h : list.Fits maximumWaitingEvents)
    (hfull : (list.last + 1) % maximumWaitingEvents = list.next) :
    list.count maximumWaitingEvents + 1 = maximumWaitingEvents := by
  have hlast := h.last_lt
  unfold maximumWaitingEvents at *
  unfold Circular.Ring.count
  split <;> omega

theorem count_lt_of_not_full (h : list.Fits maximumWaitingEvents)
    (hroom : (list.last + 1) % maximumWaitingEvents ≠ list.next) :
    list.count maximumWaitingEvents + 1 < maximumWaitingEvents := by
  have hnext := h.next_lt
  have hlast := h.last_lt
  unfold maximumWaitingEvents at *
  unfold Circular.Ring.count
  split <;> omega

theorem queueEventSignal_waiting (code : ℕ)
    (h : s.eventList.Fits maximumWaitingEvents) :
    (s.queueEventSignal code).eventList.Fits maximumWaitingEvents ∧
      ∃ kept, kept.Sublist s.waiting ∧
        (s.queueEventSignal code).waiting = kept ++ [⟨s.lastQueuedBuffer, code, s.registered, s.lastUse⟩] := by
  unfold queueEventSignal waiting
  dsimp only
  split
  next hfull =>
    have hcount := count_eq_of_full h hfull
    have hne : s.eventList.next ≠ s.eventList.last := by
      intro heq
      have hnil := (Circular.Ring.held_eq_nil_iff h).mpr heq
      unfold maximumWaitingEvents at *
      omega
    have hdrop := Circular.Ring.count_drop h hne
    have hfits := Circular.Ring.drop_fits h
    refine ⟨Circular.Ring.push_fits hfits _, _, ?_, Circular.Ring.held_push hfits _ (by omega)⟩
    rw [Circular.Ring.held_drop h hne]
    exact List.sublist_cons_self ..
  next hroom =>
    refine ⟨Circular.Ring.push_fits h _, _, List.Sublist.refl _, ?_⟩
    exact Circular.Ring.held_push h _ (count_lt_of_not_full h hroom)

/-! ### What a step does to the events -/

/-- The events that a step signals. -/
def signals (s : ManifestorState) : Label → List Signal
  | .serviceEventQueue => s.signalling.elim [] fun id => s.signalEvents (s.due id)
  | _ => []

/-- What a step does to the list of events. -/
inductive EventEffect (s : ManifestorState) (label : Label) (s' : ManifestorState) : Prop
  | kept (hlist : s'.eventList = s.eventList) (hregistered : s'.registered = s.registered)
      (hsignalled : s'.signalled = s.signalled) (hnone : s.signals label = [])
  | queued (code : ℕ) (hlist : s'.eventList = (s.queueEventSignal code).eventList)
      (hregistered : s'.registered = s.registered + 1) (hsignalled : s'.signalled = s.signalled)
      (hnone : s.signals label = [])
  | serviced (id : ℕ) (hfits : s'.eventList.Fits maximumWaitingEvents)
      (hwaiting : s.due id ++ s'.waiting = s.waiting) (hregistered : s'.registered = s.registered)
      (hsignalled : s'.signalled = s.signalled ++ s.signalEvents (s.due id))
      (hsignals : s.signals label = s.signalEvents (s.due id))
  | cleared (hlist : s'.eventList = s.clearEventList.eventList)
      (hregistered : s'.registered = s.registered) (hsignalled : s'.signalled = s.signalled)
      (hnone : s.signals label = [])

theorem releaseDequeued_events (s : ManifestorState) :
    s.releaseDequeued.eventList = s.eventList ∧ s.releaseDequeued.registered = s.registered ∧
      s.releaseDequeued.signalled = s.signalled := by
  unfold releaseDequeued
  dsimp only
  split
  next => exact ⟨rfl, rfl, rfl⟩
  next => split <;> exact ⟨rfl, rfl, rfl⟩

theorem bufferQueued_events (s : ManifestorState) (b : ℕ) :
    (s.bufferQueued b).eventList = s.eventList ∧ (s.bufferQueued b).registered = s.registered ∧
      (s.bufferQueued b).signalled = s.signalled := by
  unfold bufferQueued
  split <;> exact ⟨rfl, rfl, rfl⟩

theorem doneCallback_events (s : ManifestorState) (place : ℕ) (e : Entry) :
    (s.doneCallback place e).eventList = s.eventList ∧
      (s.doneCallback place e).registered = s.registered ∧
      (s.doneCallback place e).signalled = s.signalled := by
  unfold doneCallback
  dsimp only
  split <;> exact ⟨rfl, rfl, rfl⟩

theorem releaseNotQueued_events (s : ManifestorState) :
    s.releaseNotQueued.eventList = s.eventList ∧ s.releaseNotQueued.registered = s.registered ∧
      s.releaseNotQueued.signalled = s.signalled := by
  unfold releaseNotQueued
  split <;> exact ⟨rfl, rfl, rfl⟩

variable {label : Label}

theorem step_events (hfits : s.eventList.Fits maximumWaitingEvents)
    (h : Steps s label s') : EventEffect s label s' := by
  cases h with
  | queueEventSignal code => exact .queued code rfl rfl rfl rfl
  | registerDisplayEvent b left code => exact .queued code rfl rfl rfl rfl
  | bufferQueued b =>
    obtain ⟨hlist, hregistered, hsignalled⟩ := s.bufferQueued_events b
    exact .kept hlist hregistered hsignalled rfl
  | doneCallback place e =>
    obtain ⟨hlist, hregistered, hsignalled⟩ := s.doneCallback_events place e
    exact .kept hlist hregistered hsignalled rfl
  | releaseNotQueued =>
    obtain ⟨hlist, hregistered, hsignalled⟩ := s.releaseNotQueued_events
    exact .kept hlist hregistered hsignalled rfl
  | releaseDequeued =>
    obtain ⟨hlist, hregistered, hsignalled⟩ := s.releaseDequeued_events
    exact .kept hlist hregistered hsignalled rfl
  | serviceEventQueue id s' hid hs' =>
    obtain ⟨list, hservice, hlist, hwaiting⟩ := serviceEventQueue_eq (s := { s with signalling := none }) id
      hfits
    obtain rfl := Option.some.inj (hservice.symm.trans hs')
    refine .serviced id hlist hwaiting rfl rfl ?_
    unfold signals
    rw [hid]
    rfl
  | clearEventList => exact .cleared rfl rfl rfl rfl
  | _ => exact .kept rfl rfl rfl rfl

/-! ### The order -/

/-- The events signalled and the ones that wait, in this order, by their numbers. -/
def ordinals (s : ManifestorState) : List ℕ :=
  s.signalled.map Signal.ordinal ++ s.waiting.map EventRecord.ordinal

/-- Nothing but events registered is signalled or waits, each of them once and in the order in which they
were registered. -/
structure InOrder (s : ManifestorState) : Prop where
  fits : s.eventList.Fits maximumWaitingEvents
  order : s.ordinals.Sublist (List.range s.registered)

theorem signalEvents_ordinals (s : ManifestorState) (events : List EventRecord) :
    ((s.signalEvents events).map Signal.ordinal).Sublist (events.map EventRecord.ordinal) := by
  unfold signalEvents
  rw [List.map_map]
  exact (List.filter_sublist).map EventRecord.ordinal

theorem initial_inOrder : InOrder initial := ⟨⟨by decide, by decide⟩, List.Sublist.refl _⟩

theorem InOrder.step (hs : s.InOrder) (h : EventEffect s label s') :
    s'.InOrder := by
  have horder := hs.order
  cases h with
  | kept hlist hregistered hsignalled =>
    refine ⟨hlist ▸ hs.fits, ?_⟩
    unfold ordinals waiting
    rw [hlist, hregistered, hsignalled]
    exact horder
  | queued code hlist hregistered hsignalled =>
    obtain ⟨hfits, kept, hkept, hwaiting⟩ := queueEventSignal_waiting code hs.fits
    refine ⟨hlist ▸ hfits, ?_⟩
    have hlist' : s'.waiting = (s.queueEventSignal code).waiting := by
      unfold waiting
      rw [hlist]
    unfold ordinals
    rw [hlist', hwaiting, hregistered, hsignalled, List.range_succ, List.map_append, ← List.append_assoc]
    refine List.Sublist.append (List.Sublist.trans ?_ horder) (List.Sublist.refl _)
    exact (List.Sublist.refl _).append (hkept.map EventRecord.ordinal)
  | serviced id hfits hwaiting hregistered hsignalled =>
    refine ⟨hfits, ?_⟩
    unfold ordinals
    rw [hsignalled, hregistered, List.map_append, List.append_assoc]
    refine List.Sublist.trans ((List.Sublist.refl _).append ?_) horder
    rw [← hwaiting, List.map_append]
    exact (s.signalEvents_ordinals _).append (List.Sublist.refl _)
  | cleared hlist hregistered hsignalled =>
    have hfits : s.clearEventList.eventList.Fits maximumWaitingEvents :=
      ⟨(by decide : 0 < maximumWaitingEvents), (by decide : 0 < maximumWaitingEvents)⟩
    have hnil : s'.waiting = [] := by
      unfold waiting
      rw [hlist]
      exact (Circular.Ring.held_eq_nil_iff hfits).mpr rfl
    refine ⟨hlist ▸ hfits, ?_⟩
    unfold ordinals
    rw [hnil, hregistered, hsignalled, List.map_nil, List.append_nil]
    exact (List.sublist_append_left ..).trans horder

theorem step_inOrder (hs : s.InOrder)
    (h : Manifestor.step s label = some s') : s'.InOrder :=
  hs.step (step_events hs.fits (steps_of_step h))

theorem step_signalled (hs : s.InOrder)
    (h : Manifestor.step s label = some s') : s'.signalled = s.signalled ++ s.signals label := by
  cases step_events hs.fits (steps_of_step h) with
  | kept hlist hregistered hsignalled hnone => rw [hsignalled, hnone, List.append_nil]
  | queued code hlist hregistered hsignalled hnone => rw [hsignalled, hnone, List.append_nil]
  | serviced id hfits hwaiting hregistered hsignalled hsignals => rw [hsignalled, hsignals]
  | cleared hlist hregistered hsignalled hnone => rw [hsignalled, hnone, List.append_nil]

/-! ### The time -/

/-- The signal thread services the list for a buffer, and every event that waits for a use not gone on
display yet stands behind an event for this buffer, and behind that one there is, or it is itself, an event
for another buffer. -/
def SignalsMeant (s : ManifestorState) : Label → Prop
  | .serviceEventQueue => ∀ id ∈ s.signalling, ∀ place, place < s.waiting.length → ∀ e ∈ s.waiting[place]?,
      e.code ≠ eventIllegalIdentifier → ¬ s.Due e →
      Shielded (EventRecord.own id) (EventRecord.other id) false s.waiting place
  | _ => True

theorem forall_signals_iff (s : ManifestorState) (label : Label) :
    (∀ g ∈ s.signals label, g.onTime = true) ↔ s.SignalsMeant label := by
  cases label with
  | serviceEventQueue =>
    unfold signals SignalsMeant
    cases hid : s.signalling with
    | none => exact iff_of_true (fun g hg => by cases hg) fun id hid => by cases hid
    | some id =>
      have hdue : (∀ g ∈ s.signalEvents (s.due id), g.onTime = true) ↔
          ∀ e ∈ s.due id, e.code ≠ eventIllegalIdentifier → s.Due e := by
        unfold signalEvents
        rw [List.forall_mem_map]
        simp only [List.mem_filter, decide_eq_true_eq, and_imp]
      rw [Option.elim_some, hdue, due, forall_reached_iff]
      simp only [Classical.not_imp, and_imp]
      exact ⟨fun hall id' hid' => Option.some.inj hid' ▸ hall, fun hall => hall id rfl⟩
  | _ => exact iff_of_true (fun g hg => by cases hg) trivial

/-- **Events signalled**: in every run each event is signalled at most once, in the order of their
registration, and all of them after the use they wait for has gone on display exactly when every round of
the signal thread is meant to be. -/
theorem run_signals {labels : List Label} {s : ManifestorState} (h : run initial labels = some s) :
    (s.signalled.map Signal.ordinal).Sublist (List.range s.registered) ∧
      ((∀ g ∈ s.signalled, g.onTime = true) ↔ Lts.Along step SignalsMeant initial labels) := by
  constructor
  · have hinv : s.InOrder := Lts.run_invariant (fun _ _ _ => step_inOrder) initial_inOrder h
    exact (List.sublist_append_left ..).trans hinv.order
  · have hnone : ∀ g ∈ initial.signalled, g.onTime = true := fun g hg => by cases hg
    rw [Lts.forall_log_iff_along (fun _ _ _ => step_inOrder) (fun _ _ _ => step_signalled) _ initial_inOrder h,
      and_iff_right hnone]
    exact Lts.along_iff_of_run (J := fun _ => True) (fun _ _ _ _ _ => trivial)
      (fun s label _ _ _ => s.forall_signals_iff label) trivial h

/-- A buffer is queued for display, as one entry that the driver accepts. -/
def queueOne (b : ℕ) : List Label :=
  [.queueDecodeBuffer b, .clearEventPending, .raiseQueueCount 1, .planeAccepts, .bufferQueued]

/-- An event is registered behind the first of two buffers; it waits for the second one to be displayed,
which lets the signal thread in. -/
def oneEvent : List Label :=
  queueOne 0 ++ [.queueEventSignal 1] ++ queueOne 1 ++
    [.displayCallback 0, .displayCallback 1, .displaySignal, .serviceEventQueue]

theorem run_signals_oneEvent : ∃ s, run initial oneEvent = some s ∧
    (s.signalled.map Signal.ordinal).Sublist (List.range s.registered) ∧
      ((∀ g ∈ s.signalled, g.onTime = true) ↔ Lts.Along step SignalsMeant initial oneEvent) :=
  ⟨_, rfl, run_signals rfl⟩

/-- Few events wait, the driver refuses no entry, and it is done with none whose buffer has not gone on
display; so no buffer is used again before that. -/
def Undisturbed (s : ManifestorState) : Label → Prop
  | .queueEventSignal _ => s.waiting.length + 1 < maximumWaitingEvents - 1
  | .registerDisplayEvent _ => s.waiting.length + 1 < maximumWaitingEvents - 1
  | .planeRefuses => False
  | .doneCallback place => ∀ e ∈ s.plane[place]?, e.use ∈ s.shown
  | .flushDisplayQueue => False
  | _ => True

instance (s : ManifestorState) : (label : Label) → Decidable (s.Undisturbed label)
  | .queueEventSignal _ => inferInstanceAs (Decidable (_ < _))
  | .registerDisplayEvent _ => inferInstanceAs (Decidable (_ < _))
  | .doneCallback place => inferInstanceAs (Decidable (∀ e ∈ s.plane[place]?, _))
  | .planeRefuses | .flushDisplayQueue => isFalse id
  | .queueDecodeBuffer _ | .requeueBuffer _ | .clearEventPending | .displayWindowsFail | .leaveNotQueued
  | .raiseQueueCount _ | .planeAccepts | .bufferQueued | .initialFrame _ _ | .displayCallback _
  | .initialFrameDisplayCallback _ | .releaseNotQueued | .releaseDequeued | .displaySignal
  | .serviceEventQueue | .clearEventList => isTrue trivial

/-- Events are registered behind the first and the third of three buffers; when the second one, which has
none, goes on display, both are signalled. -/
def displayedWithoutEvent : List Label :=
  queueOne 0 ++ [.queueEventSignal 1] ++ queueOne 1 ++ queueOne 2 ++ [.queueEventSignal 1] ++
    [.displayCallback 0, .displayCallback 1, .displaySignal, .serviceEventQueue]

theorem not_run_signals_displayedWithoutEvent :
    ¬ ∀ labels s, Lts.Along step Undisturbed initial labels → run initial labels = some s →
      (s.signalled.map Signal.ordinal).Sublist (List.range s.registered) ∧
        ∀ g ∈ s.signalled, g.onTime = true := by
  intro hall
  obtain ⟨s, hs⟩ : ∃ s, run initial displayedWithoutEvent = some s := ⟨_, rfl⟩
  have hsignalled : (run initial displayedWithoutEvent).map signalled = some [⟨0, true⟩, ⟨1, false⟩] := by
    decide +kernel
  rw [hs] at hsignalled
  have honTime := (hall displayedWithoutEvent s (by decide +kernel) hs).2 ⟨1, false⟩
  rw [Option.some.inj hsignalled] at honTime
  exact absurd (honTime (by decide)) (by decide)

end ManifestorState
end Player2.Manifestor

import Player2.CoordinatorJumps

/-! # Streams that wait to be synchronized

A stream in `SynchronizeStreams` stands in the list of contexts with the playback time of the call.  In
every run this is the playback time that the other streams see when one of them sets up the mapping, and the
one that the stream translates when it leaves (`run_waits`).  The speed, the direction and the clock
adjustment stay what they were at the start. -/

namespace Player2.OutputCoordinator

open Lts

variable {s s' : OutputCoordinator} {x : CoordinatorContext} {c : ℕ}

/-- The speed, the clock adjustment and the direction. -/
def play (s : OutputCoordinator) : Rational × Rational × Bool :=
  (s.speed, s.systemClockAdjustment, s.playBackward)

theorem elapsedSystemTime_of_play (h : s'.play = s.play) : s'.elapsedSystemTime = s.elapsedSystemTime := by
  obtain ⟨hspeed, hrest⟩ := Prod.mk.inj h
  obtain ⟨hadjustment, hdirection⟩ := Prod.mk.inj hrest
  funext t
  unfold elapsedSystemTime speedScale
  rw [hspeed, hadjustment, hdirection]

/-- A stream in `SynchronizeStreams` stands there with the playback time of the call. -/
def Waits (x : CoordinatorContext) : Prop :=
  x.inSynchronizeFn = true → x.synchronizingAtPlaybackTime = x.normalizedPlaybackTime

/-- Every stream in `SynchronizeStreams` does. -/
def AllWait (s : OutputCoordinator) : Prop := ∀ x ∈ s.coordinatedContexts, Waits x

/-- A change that keeps the play and leaves the streams waiting. -/
structure Calm (s s' : OutputCoordinator) : Prop where
  play : s'.play = s.play
  waits : s.AllWait → s'.AllWait

theorem Calm.trans {s'' : OutputCoordinator} (h : Calm s s') (h' : Calm s' s'') : Calm s s'' :=
  ⟨h'.play.trans h.play, fun hs => h'.waits (h.waits hs)⟩

theorem Calm.of_contexts (hp : s'.play = s.play)
    (hc : s'.coordinatedContexts = s.coordinatedContexts) : Calm s s' := by
  refine ⟨hp, ?_⟩
  intro hs x hx
  rw [hc] at hx
  exact hs x hx

/-! ### Changes of contexts -/

variable {f : CoordinatorContext → CoordinatorContext}

theorem AllWait.modify (h : s.AllWait)
    (hf : ∀ x ∈ s.coordinatedContexts, x.id = c → Waits (f x)) : (s.modify c f).AllWait := by
  intro y hy
  obtain ⟨x, hx, e⟩ := Keyed.mem_modifyAt.mp hy
  by_cases hxc : x.id = c
  · rw [if_pos hxc] at e
    exact e ▸ hf x hx hxc
  · rw [if_neg hxc] at e
    exact e ▸ h x hx

theorem Calm.modify (c : ℕ)
    (hf : ∀ x, Waits x → Waits (f x)) : Calm s (s.modify c f) :=
  ⟨rfl, fun h => h.modify fun x hx _ => hf x (h x hx)⟩

theorem Calm.modifyAll (hf : ∀ x, Waits x → Waits (f x)) : Calm s (s.modifyAll f) := by
  refine ⟨rfl, ?_⟩
  intro h y hy
  obtain ⟨x, hx, rfl⟩ := List.mem_map.mp hy
  exact hf x (h x hx)

theorem Calm.propagate (c : Option ℕ)
    (hf : ∀ x, Waits x → Waits (f x)) : Calm s (s.propagate c f) := by
  cases c with
  | none => exact Calm.modifyAll hf
  | some c => exact Calm.modify c hf

/-! ### Registration -/

theorem Calm.releaseAlternate (possibleMaster : Bool) : Calm s (s.releaseAlternate possibleMaster) := by
  unfold OutputCoordinator.releaseAlternate
  split
  · split
    · exact Calm.of_contexts rfl rfl
    next a _ =>
      have hmodify : Calm s (s.modify a ({ · with clockMaster := false })) :=
        Calm.modify a fun _ h => h
      exact hmodify.trans (Calm.of_contexts rfl rfl)
  · exact Calm.of_contexts rfl rfl

theorem chooseMaster_calm (policy : MasterClock) (x : CoordinatorContext) :
    Calm s (s.chooseMaster policy x).1 ∧
      (s.chooseMaster policy x).2.inSynchronizeFn = x.inSynchronizeFn := by
  have hr := Calm.releaseAlternate (s := s) (policy.possibleMaster x.streamType)
  unfold chooseMaster
  dsimp only
  split
  · exact ⟨hr.trans (Calm.of_contexts rfl rfl), rfl⟩
  · split
    · exact ⟨hr.trans (Calm.of_contexts rfl rfl), rfl⟩
    · exact ⟨hr, rfl⟩

theorem chooseAdjuster_calm (x : CoordinatorContext) :
    Calm s (s.chooseAdjuster x).1 ∧ (s.chooseAdjuster x).2.inSynchronizeFn = x.inSynchronizeFn := by
  unfold chooseAdjuster
  split
  · exact ⟨Calm.of_contexts rfl rfl, rfl⟩
  · exact ⟨Calm.of_contexts rfl rfl, rfl⟩

theorem Calm.insert (hx : x.inSynchronizeFn = false) : Calm s (s.insert x) := by
  refine ⟨rfl, ?_⟩
  intro h y hy
  rcases List.mem_cons.mp hy with rfl | hy
  · intro hin
    rw [hx] at hin
    exact Bool.noConfusion hin
  · exact h y hy

theorem Calm.registerStream (policy : MasterClock) (r : Registration) :
    Calm s (s.registerStream policy r) := by
  unfold OutputCoordinator.registerStream
  split
  · have hnew : (s.withExternalMapping r.externalTimeMapping r.context).inSynchronizeFn = false := by
      unfold withExternalMapping
      split <;> rfl
    generalize s.withExternalMapping r.externalTimeMapping r.context = x at hnew
    obtain ⟨hk, he⟩ := chooseMaster_calm (s := s) policy x
    generalize s.chooseMaster policy x = p at hk he
    obtain ⟨hk', he'⟩ := chooseAdjuster_calm (s := p.1) p.2
    exact (hk.trans hk').trans (Calm.insert (he'.trans (he.trans hnew)))
  · exact Calm.of_contexts rfl rfl

theorem Calm.deRegisterStream (x : CoordinatorContext) : Calm s (s.deRegisterStream x) := by
  have hclock : Calm s (s.handOverClock x) := by
    unfold handOverClock
    split
    · split
      next y _ =>
        have hmodify : Calm s (s.modify y.id ({ · with clockMaster := true })) :=
          Calm.modify y.id fun _ h => h
        exact hmodify.trans (Calm.of_contexts rfl rfl)
      · exact Calm.of_contexts rfl rfl
    · exact Calm.of_contexts rfl rfl
  have hadjust : ∀ t : OutputCoordinator, Calm t (t.handOverAdjuster x) := by
    intro t
    unfold handOverAdjuster
    split
    · split
      next y _ =>
        have hmodify : Calm t (t.modify y.id ({ · with allowedToAdjustMappingBase := true })) :=
          Calm.modify y.id fun _ h => h
        exact hmodify.trans (Calm.of_contexts rfl rfl)
      · exact Calm.of_contexts rfl rfl
    · exact Calm.of_contexts rfl rfl
  refine (hclock.trans (hadjust _)).trans ⟨rfl, ?_⟩
  intro h y hy
  exact h y (List.mem_of_mem_eraseP hy)

/-! ### Mappings and jumps -/

theorem Calm.resetTimeMapping (c : Option ℕ) : Calm s (s.resetTimeMapping c) := by
  have hpropagate : ∀ t : OutputCoordinator,
      Calm t (t.propagate c ({ · with timeMappingEstablished := false })) :=
    fun t => Calm.propagate c fun _ h => h
  unfold OutputCoordinator.resetTimeMapping
  split
  · refine Calm.trans ?_ (hpropagate _)
    exact Calm.of_contexts rfl rfl
  · exact hpropagate s

theorem Calm.establishTimeMapping (c : Option ℕ) (p t now : UInt64) :
    Calm s (s.establishTimeMapping c p t now) := by
  have hmaster : ∀ u, Calm s (s.establishMaster p u) := fun _ => Calm.of_contexts rfl rfl
  exact (hmaster _).trans (Calm.propagate c fun _ h => h)

theorem Calm.adjustMappingBase (c : Option ℕ) (external : Bool) (a : UInt64) :
    Calm s (s.adjustMappingBase c external a) := by
  have hall : ∀ t : OutputCoordinator, Calm t (t.modifyAll fun x =>
      if x.timeMappingEstablished then
        { x with
          baseSystemTime := x.baseSystemTime + a
          baseSystemTimeAdjusted := c ≠ some x.id }
      else x) := by
    intro t
    refine Calm.modifyAll ?_
    intro x hx
    split
    · exact hx
    · exact hx
  unfold OutputCoordinator.adjustMappingBase
  split
  · split
    · refine Calm.trans ?_ (hall _)
      exact Calm.of_contexts rfl rfl
    · exact hall s
  · exact Calm.of_contexts rfl rfl

theorem Calm.handleJump (d : Deltas) (x : CoordinatorContext) : Calm s (s.handleJump d x) := by
  unfold OutputCoordinator.handleJump
  dsimp only
  split
  · exact Calm.of_contexts rfl rfl
  · split
    · split
      · exact Calm.modify x.id fun _ h => h
      · exact Calm.modify x.id fun _ h => h
    · split
      · exact Calm.resetTimeMapping none
      · have hmaster : Calm s { s with
            accumulatedPlaybackTimeJumps := s.accumulatedPlaybackTimeJumps - d.delta s.playBackward
            masterBaseNormalizedPlaybackTime :=
              s.masterBaseNormalizedPlaybackTime + d.delta s.playBackward
            jumpSeenAtPlaybackTime := d.expectedPlaybackTime } := Calm.of_contexts rfl rfl
        exact hmaster.trans (Calm.modify x.id fun _ h => h)

theorem Calm.resetIf (c : ℕ) (p : OutputCoordinator → CoordinatorContext → Bool) :
    Calm s (s.resetIf c p) := by
  unfold OutputCoordinator.resetIf
  split
  · exact Calm.resetTimeMapping none
  · exact Calm.of_contexts rfl rfl

theorem Calm.handlePlaybackTimeDeltas (d : Deltas) (x : CoordinatorContext) :
    Calm s (s.handlePlaybackTimeDeltas d x) := by
  unfold OutputCoordinator.handlePlaybackTimeDeltas
  split
  · refine Calm.trans ?_ ((Calm.resetIf x.id _).trans (Calm.resetIf x.id _))
    split
    · exact Calm.handleJump d x
    · exact Calm.of_contexts rfl rfl
  · exact Calm.of_contexts rfl rfl

/-! ### Synchronization -/

theorem Calm.noteOffset (offset : UInt64) : Calm s (s.noteOffset offset) := by
  obtain ⟨m, e⟩ := noteOffset_eq s offset
  rw [e]
  exact Calm.of_contexts rfl rfl

theorem Calm.translate (c : Option ℕ) (t : UInt64) : Calm s (s.translatePlaybackTimeToSystem c t).1 := by
  have hrebase : ∀ (u : OutputCoordinator) c systemTime, Calm u (u.rebaseContext c t systemTime) :=
    fun u c systemTime => Calm.modify c fun _ h => h
  have hmaster : ∀ systemTime, Calm s (s.rebaseMaster t systemTime) := fun _ => Calm.of_contexts rfl rfl
  have hsame : Calm s s := Calm.of_contexts rfl rfl
  unfold translatePlaybackTimeToSystem
  split
  · cases c with
    | none =>
      dsimp only
      split
      · exact hmaster _
      · exact hsame
    | some c =>
      dsimp only
      split
      · split
        · split
          · split
            · exact (hmaster _).trans (hrebase _ c _)
            · exact hrebase s c _
          · exact hsame
        · exact hsame
      · exact hsame
  · exact hsame

theorem Calm.pickUp (c : ℕ) (offset : UInt64) : Calm s (s.pickUp c offset) := Calm.modify c fun _ h => h

theorem Calm.takeMapping (c : ℕ) (t : UInt64) : Calm s (s.takeMapping c t) := by
  have hleave : ∀ u : OutputCoordinator, Calm u
      { u.modify c ({ · with inSynchronizeFn := false }) with
        streamsInSynchronize := u.streamsInSynchronize - 1 } := by
    intro u
    have hmodify : Calm u (u.modify c ({ · with inSynchronizeFn := false })) :=
      Calm.modify c fun _ _ h => Bool.noConfusion h
    exact hmodify.trans (Calm.of_contexts rfl rfl)
  unfold OutputCoordinator.takeMapping
  refine Calm.trans ?_ ((Calm.translate (some c) t).trans (hleave _))
  split
  · have hanticipated : ∀ (u : OutputCoordinator) offset, Calm u (u.anticipateJump c offset) := by
      intro u offset
      have hmaster : Calm u (u.anticipated offset) := Calm.of_contexts rfl rfl
      exact hmaster.trans (Calm.modify c fun _ h => h)
    exact ((Calm.pickUp c 0).trans (hanticipated _ _)).trans (Calm.noteOffset 0)
  · exact (Calm.pickUp c _).trans (Calm.noteOffset _)

theorem Calm.pass (r : Restart) (x : CoordinatorContext) : Calm s (s.pass r x) := by
  unfold OutputCoordinator.pass
  split
  · exact Calm.takeMapping _ _
  · split
    · split
      · refine Calm.trans ?_ (Calm.takeMapping _ _)
        exact Calm.of_contexts rfl rfl
      · exact Calm.of_contexts rfl rfl
    · exact Calm.of_contexts rfl rfl

theorem Calm.joining (c maxWaits : ℕ) : Calm s (s.joining c maxWaits) := by
  have hmodify : Calm s (s.modify c (joined maxWaits)) := Calm.modify c fun _ _ _ => rfl
  exact hmodify.trans (Calm.of_contexts rfl rfl)

theorem beginStartupDelay_waits (hin : ∀ x ∈ s.coordinatedContexts, x.id = c → x.inSynchronizeFn = false)
    (h : s.AllWait) (t : UInt64) : (s.beginStartupDelay c t).AllWait := by
  refine AllWait.modify h ?_
  intro x hx hid hsync
  rw [hin x hx hid] at hsync
  exact Bool.noConfusion hsync

theorem synchronizeStreams_calm (hd : Keyed.Distinct CoordinatorContext.id s.coordinatedContexts)
    (hx : s.context c = some x) (hin : x.inSynchronizeFn = false) (external : Bool) (t now : UInt64) :
    Calm s (s.synchronizeStreams x external t now) := by
  obtain ⟨hmem, rfl⟩ := context_some hx
  have hdelay : ∀ u : OutputCoordinator, u.coordinatedContexts = s.coordinatedContexts →
      u.play = s.play → Calm s (u.beginStartupDelay x.id t) := by
    intro u hu hplay
    refine ⟨hplay, fun h => beginStartupDelay_waits ?_ ?_ t⟩
    · intro y hy hid
      rw [hu] at hy
      rw [hd.eq hy hmem hid]
      exact hin
    · intro y hy
      rw [hu] at hy
      exact h y hy
  unfold OutputCoordinator.synchronizeStreams
  split
  · exact Calm.of_contexts rfl rfl
  · split
    · dsimp only
      split
      · refine (Calm.translate none t).trans (Calm.trans ?_ (Calm.translate _ t))
        refine Calm.trans ?_ (Calm.noteOffset _)
        exact Calm.modify x.id fun _ h => h
      · refine hdelay _ ?_ (Calm.translate none t).play
        obtain e | ⟨_, systemTime, e⟩ := s.translate_none_cases t
        · rw [e]
        · rw [e]
          rfl
    · exact hdelay s rfl rfl

/-! ### Runs -/

variable {policy : MasterClock}

theorem play_synchronizeStreams (s : OutputCoordinator) (x : CoordinatorContext) (external : Bool)
    (t now : UInt64) : (s.synchronizeStreams x external t now).play = s.play := by
  unfold synchronizeStreams
  split
  · rfl
  · split
    · dsimp only
      split
      · exact (Calm.translate _ t).play.trans ((Calm.noteOffset _).play.trans (Calm.translate none t).play)
      · exact (Calm.translate none t).play
    · rfl

theorem play_step {a : Label} (h : step policy s a = some s') : s'.play = s.play := by
  cases a with
  | registerStream r =>
    dsimp only [step] at h
    split at h
    · cases h
    · exact Option.some.inj h ▸ (Calm.registerStream policy r).play
  | deRegisterStream c =>
    obtain ⟨x, _, h⟩ := Option.bind_eq_some_iff.mp h
    split at h
    · cases h
    · exact Option.some.inj h ▸ (Calm.deRegisterStream x).play
  | resetTimeMapping c => exact Option.some.inj h ▸ (Calm.resetTimeMapping c).play
  | establishTimeMapping c p t now => exact Option.some.inj h ▸ (Calm.establishTimeMapping c p t now).play
  | adjustMappingBase c e d => exact Option.some.inj h ▸ (Calm.adjustMappingBase c e d).play
  | handlePlaybackTimeDeltas c d =>
    obtain ⟨x, _, h⟩ := Option.map_eq_some_iff.mp h
    exact h ▸ (Calm.handlePlaybackTimeDeltas d x).play
  | synchronizeStreams c e t now =>
    obtain ⟨x, _, h⟩ := Option.bind_eq_some_iff.mp h
    split at h
    · cases h
    · exact Option.some.inj h ▸ s.play_synchronizeStreams x e t now
  | joinSynchronize c immediate r =>
    obtain ⟨x, _, h⟩ := Option.bind_eq_some_iff.mp h
    split at h
    · exact Option.some.inj h ▸ (Calm.pass r _).play
    · cases h
  | endWait c r =>
    obtain ⟨x, _, h⟩ := Option.bind_eq_some_iff.mp h
    split at h
    · exact Option.some.inj h ▸ (Calm.pass r _).play
    · cases h

theorem calm_step {a : Label}
    (hd : Keyed.Distinct CoordinatorContext.id s.coordinatedContexts) (h : step policy s a = some s') :
    Calm s s' := by
  cases a with
  | registerStream r =>
    dsimp only [step] at h
    split at h
    · cases h
    · exact Option.some.inj h ▸ Calm.registerStream policy r
  | deRegisterStream c =>
    obtain ⟨x, _, h⟩ := Option.bind_eq_some_iff.mp h
    split at h
    · cases h
    · exact Option.some.inj h ▸ Calm.deRegisterStream x
  | resetTimeMapping c => exact Option.some.inj h ▸ Calm.resetTimeMapping c
  | establishTimeMapping c p t now => exact Option.some.inj h ▸ Calm.establishTimeMapping c p t now
  | adjustMappingBase c e d => exact Option.some.inj h ▸ Calm.adjustMappingBase c e d
  | handlePlaybackTimeDeltas c d =>
    obtain ⟨x, _, h⟩ := Option.map_eq_some_iff.mp h
    exact h ▸ Calm.handlePlaybackTimeDeltas d x
  | synchronizeStreams c e t now =>
    obtain ⟨x, hx, h⟩ := Option.bind_eq_some_iff.mp h
    split at h
    · cases h
    next hin =>
      rw [Bool.or_eq_true, not_or] at hin
      exact Option.some.inj h ▸
        synchronizeStreams_calm hd hx (Bool.eq_false_iff.mpr hin.2) e t now
  | joinSynchronize c immediate r =>
    obtain ⟨x, _, h⟩ := Option.bind_eq_some_iff.mp h
    split at h
    · rw [← Option.some.inj h]
      exact (Calm.joining x.id _).trans (Calm.pass r _)
    · cases h
  | endWait c r =>
    obtain ⟨x, _, h⟩ := Option.bind_eq_some_iff.mp h
    split at h
    · rw [← Option.some.inj h]
      have hwaited : Calm s (s.modify x.id waited) := Calm.modify x.id fun _ h => h
      exact hwaited.trans (Calm.pass r _)
    · cases h

/-- In every run the streams in `SynchronizeStreams` wait with their playback times, the addresses are
distinct, and the play is that of the start. -/
theorem run_waits {speed adjustment : Rational} {playBackward : Bool}
    {labels : List Label}
    (h : run (step policy) (start speed playBackward adjustment) labels = some s) :
    s.AllWait ∧ Keyed.Distinct CoordinatorContext.id s.coordinatedContexts ∧
      s.play = (speed, adjustment, playBackward) := by
  obtain ⟨hc, hwait, hplay⟩ := run_invariant
    (I := fun s => s.roles.Consistent policy ∧ s.AllWait ∧ s.play = (speed, adjustment, playBackward))
    (by
      rintro s a s' ⟨hc, hwait, hplay⟩ hs
      have hcalm := calm_step (distinct_of_consistent hc) hs
      exact ⟨consistent_step hc hs, hcalm.waits hwait, hcalm.play.trans hplay⟩)
    ⟨consistent_start speed playBackward adjustment, fun x hx => absurd hx List.not_mem_nil, rfl⟩ h
  exact ⟨hwait, distinct_of_consistent hc, hplay⟩

end Player2.OutputCoordinator

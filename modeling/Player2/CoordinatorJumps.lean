import Player2.CoordinatorRoles

/-! # Jumps of the playback time

Each mapping of playback time has a base and a sum of the jumps that have been followed.  A jump moves the
base forward by as much as it takes the sum down, so base and sum together (`line`) are the same for the
master and for every stream with a mapping taken from it, however far the stream has followed.

Jumps, catching up, resets and new mappings keep this.  Two places forget the jumps that the master has
made: the exit of `SynchronizeStreams` with an alternate mapping, and the copy of an external mapping.  The
exit that finds it impossible to synchronize counts them twice, and a base that is moved by the translation
inside `SynchronizeStreams` is moved for one stream and the master only.  In a run where none of these
happens all mappings stay in line, and have the system base of the master (`run_inLine`). -/

namespace Player2.OutputCoordinator

open Lts

/-- Base and jumps of a context. -/
def lineOf (x : CoordinatorContext) : UInt64 :=
  x.baseNormalizedPlaybackTime + x.accumulatedPlaybackTimeJumps

/-- Base and jumps of the master mapping. -/
def line (s : OutputCoordinator) : UInt64 :=
  s.masterBaseNormalizedPlaybackTime + s.accumulatedPlaybackTimeJumps

/-- A context has an established mapping based on the current master version. -/
def Mapped (s : OutputCoordinator) (x : CoordinatorContext) : Prop :=
  x.timeMappingEstablished = true ∧ x.basedOnMasterMappingVersion = s.masterTimeMappingVersion

instance (s : OutputCoordinator) (x : CoordinatorContext) : Decidable (s.Mapped x) :=
  inferInstanceAs (Decidable (_ ∧ _))

/-- The master translates times, at a speed that is not negative and has a 32-bit numerator. -/
def Translates (s : OutputCoordinator) : Prop :=
  s.masterTimeMappingEstablished = true ∧ s.speed.negative = false ∧ s.speed.numerator.toNat < 2 ^ 32

/-- A mapping is in line with the master's; its system base is the same. -/
def OnLine (s : OutputCoordinator) (x : CoordinatorContext) : Prop :=
  lineOf x = s.line ∧ (s.Translates → x.baseSystemTime = s.masterBaseSystemTime)

/-- Every mapping taken from the master is in line with it. -/
def InLine (s : OutputCoordinator) : Prop :=
  ∀ x ∈ s.coordinatedContexts, s.Mapped x → s.OnLine x

/-- Every mapping but that of one context. -/
def InLineExcept (s : OutputCoordinator) (c : ℕ) : Prop :=
  ∀ x ∈ s.coordinatedContexts, x.id ≠ c → s.Mapped x → s.OnLine x

/-- No other context has a mapping taken from the master. -/
def OthersUnmapped (s : OutputCoordinator) (c : ℕ) : Prop :=
  ∀ x ∈ s.coordinatedContexts, x.id ≠ c → ¬s.Mapped x

/-! ### What has to be met -/

/-- The next version is not that of an old mapping of another context. -/
def FreshVersion (s : OutputCoordinator) (c : ℕ) : Prop :=
  ∀ x ∈ s.coordinatedContexts, x.id ≠ c → x.timeMappingEstablished = true →
    x.basedOnMasterMappingVersion ≠ s.masterTimeMappingVersion + 1

/-- Picking up the mapping: a stream that is too far away comes when there are no jumps, and the base is
moved only for a stream that is alone and when there are none. -/
def TakeMeant (s : OutputCoordinator) (c : ℕ) (t : UInt64) : Prop :=
  if s.impossible t then s.accumulatedPlaybackTimeJumps = 0
  else s.rebases s.line t = true → s.accumulatedPlaybackTimeJumps = 0 ∧ s.OthersUnmapped c

/-- A pass of the waiting loop: picking up a mapping, or a new one. -/
def PassMeant (s : OutputCoordinator) (x : CoordinatorContext) : Prop :=
  if s.masterTimeMappingEstablished then s.TakeMeant x.id x.normalizedPlaybackTime
  else s.streamsInSynchronize = s.streamCount ∨ x.maxSynchronizeWaits ≤ x.waitCount →
    s.FreshVersion x.id

/-- The beginning of `SynchronizeStreams`: the base is not moved under another stream, and the alternate
mapping is taken when there are no jumps. -/
def SynchronizeMeant (s : OutputCoordinator) (x : CoordinatorContext) (t now : UInt64) : Prop :=
  s.alternateTimeMappingExists x = true →
    let base := s.masterBaseNormalizedPlaybackTime
    (s.rebases base t = true → ∀ y ∈ s.coordinatedContexts, ¬s.Mapped y) ∧
      (reasonable (s.masterBaseSystemTime + s.elapsedSystemTime (t - base)) now = true →
        s.accumulatedPlaybackTimeJumps = 0)

/-- Where the jumps are not forgotten, counted twice or left behind. -/
def JumpsMeant (s : OutputCoordinator) : Label → Prop
  | .registerStream r =>
    r.obtained = true → r.externalTimeMapping = true → s.masterTimeMappingEstablished = true →
      s.accumulatedPlaybackTimeJumps = 0
  | .establishTimeMapping (some c) _ _ _ => s.FreshVersion c
  | .synchronizeStreams c external t now =>
    external = false → ∀ x ∈ s.context c, s.SynchronizeMeant x t now
  | .joinSynchronize c immediate _ =>
    ∀ x ∈ s.context c, (s.joining c (waitsFor immediate)).PassMeant (joined (waitsFor immediate) x)
  | .endWait c _ => ∀ x ∈ s.context c, (s.modify c waited).PassMeant (waited x)
  | _ => True

instance (s : OutputCoordinator) (c : ℕ) : Decidable (s.OthersUnmapped c) :=
  inferInstanceAs (Decidable (∀ x ∈ _, _))

instance (s : OutputCoordinator) (c : ℕ) : Decidable (s.FreshVersion c) :=
  inferInstanceAs (Decidable (∀ x ∈ _, _))

instance (s : OutputCoordinator) (c : ℕ) (t : UInt64) : Decidable (s.TakeMeant c t) :=
  inferInstanceAs (Decidable (if s.impossible t = true then _ = _ else _ → _ ∧ s.OthersUnmapped c))

instance (s : OutputCoordinator) (x : CoordinatorContext) : Decidable (s.PassMeant x) :=
  inferInstanceAs (Decidable (if s.masterTimeMappingEstablished = true then
    s.TakeMeant x.id x.normalizedPlaybackTime else _ ∨ _ → s.FreshVersion x.id))

instance (s : OutputCoordinator) (x : CoordinatorContext) (t now : UInt64) :
    Decidable (s.SynchronizeMeant x t now) :=
  inferInstanceAs (Decidable (_ → _ ∧ _))

instance (s : OutputCoordinator) (a : Label) : Decidable (s.JumpsMeant a) :=
  match a with
  | .registerStream _ => inferInstanceAs (Decidable (_ → _ → _ → _))
  | .establishTimeMapping (some c) _ _ _ => inferInstanceAs (Decidable (s.FreshVersion c))
  | .establishTimeMapping none _ _ _ => isTrue trivial
  | .synchronizeStreams c _ _ _ => inferInstanceAs (Decidable (_ → ∀ x ∈ s.context c, _))
  | .joinSynchronize c _ _ => inferInstanceAs (Decidable (∀ x ∈ s.context c, _))
  | .endWait c _ => inferInstanceAs (Decidable (∀ x ∈ s.context c, _))
  | .deRegisterStream _ => isTrue trivial
  | .resetTimeMapping _ => isTrue trivial
  | .adjustMappingBase .. => isTrue trivial
  | .handlePlaybackTimeDeltas .. => isTrue trivial

/-! ### Mappings that stay -/

/-- The mapping of a context. -/
def mapping (x : CoordinatorContext) : Bool × UInt32 × UInt64 × UInt64 × UInt64 :=
  (x.timeMappingEstablished, x.basedOnMasterMappingVersion, x.baseNormalizedPlaybackTime,
    x.accumulatedPlaybackTimeJumps, x.baseSystemTime)

/-- The mapping of the master. -/
def masterMapping (s : OutputCoordinator) : Bool × UInt32 × UInt64 × UInt64 × Rational :=
  (s.masterTimeMappingEstablished, s.masterTimeMappingVersion, s.line, s.masterBaseSystemTime, s.speed)

/-- Every mapping of `s'` is there in `s`, for the same context, and the master's is the same. -/
structure Keeps (s s' : OutputCoordinator) : Prop where
  master : masterMapping s' = masterMapping s
  contexts : ∀ y ∈ s'.coordinatedContexts, ∃ x ∈ s.coordinatedContexts,
    x.id = y.id ∧ mapping x = mapping y

variable {s s' s'' : OutputCoordinator} {c : ℕ} {x : CoordinatorContext}

theorem Keeps.trans (h : Keeps s s') (h' : Keeps s' s'') : Keeps s s'' := by
  refine ⟨h'.master.trans h.master, ?_⟩
  intro z hz
  obtain ⟨y, hy, hi, hm⟩ := h'.contexts z hz
  obtain ⟨x, hx, hi', hm'⟩ := h.contexts y hy
  exact ⟨x, hx, hi'.trans hi, hm'.trans hm⟩

variable {y : CoordinatorContext}

theorem mapped_of_mapping (e : mapping x = mapping y) (hm : masterMapping s' = masterMapping s)
    (h : s'.Mapped y) : s.Mapped x := by
  simp only [mapping, masterMapping, Prod.mk.injEq] at e hm
  exact ⟨e.1.trans h.1, e.2.1.trans (h.2.trans hm.2.1)⟩

theorem OnLine.congr (h : s.OnLine x) (e : mapping x = mapping y)
    (hm : masterMapping s' = masterMapping s) : s'.OnLine y := by
  simp only [mapping, masterMapping, Prod.mk.injEq] at e hm
  obtain ⟨-, -, hbase, hjumps, hsystem⟩ := e
  obtain ⟨hest, -, hline, hmaster, hspeed⟩ := hm
  unfold OnLine lineOf Translates
  rw [← hbase, ← hjumps, ← hsystem, hest, hline, hmaster, hspeed]
  exact h

theorem InLine.keeps (h : s.InLine) (hk : Keeps s s') : s'.InLine := by
  intro y hy hm
  obtain ⟨x, hx, _, e⟩ := hk.contexts y hy
  exact (h x hx (mapped_of_mapping e hk.master hm)).congr e hk.master

theorem Keeps.of_contexts (hm : masterMapping s' = masterMapping s)
    (hc : s'.coordinatedContexts = s.coordinatedContexts) : Keeps s s' :=
  ⟨hm, fun y hy => ⟨y, hc ▸ hy, rfl, rfl⟩⟩

variable {f : CoordinatorContext → CoordinatorContext}

theorem Keeps.modify (hi : ∀ x, (f x).id = x.id)
    (hf : ∀ x, mapping (f x) = mapping x) : Keeps s (s.modify c f) := by
  refine ⟨rfl, ?_⟩
  intro y hy
  obtain ⟨x, hx, e⟩ := Keyed.mem_modifyAt.mp hy
  refine ⟨x, hx, ?_⟩
  by_cases hxc : x.id = c
  · rw [if_pos hxc] at e
    exact ⟨e ▸ (hi x).symm, e ▸ (hf x).symm⟩
  · rw [if_neg hxc] at e
    exact ⟨e ▸ rfl, e ▸ rfl⟩

theorem Keeps.modifyAll (hi : ∀ x, (f x).id = x.id)
    (hf : ∀ x, mapping (f x) = mapping x) : Keeps s (s.modifyAll f) := by
  refine ⟨rfl, ?_⟩
  intro y hy
  obtain ⟨x, hx, rfl⟩ := List.mem_map.mp hy
  exact ⟨x, hx, (hi x).symm, (hf x).symm⟩

theorem InLineExcept.modify (h : s.InLineExcept c)
    (hf : ∀ x ∈ s.coordinatedContexts, x.id = c → s.Mapped (f x) → s.OnLine (f x)) :
    (s.modify c f).InLine := by
  intro y hy hm
  obtain ⟨x, hx, e⟩ := Keyed.mem_modifyAt.mp hy
  by_cases hxc : x.id = c
  · rw [if_pos hxc] at e
    subst e
    exact hf x hx hxc hm
  · rw [if_neg hxc] at e
    subst e
    exact h x hx hxc hm

theorem InLine.except (h : s.InLine) (c : ℕ) : s.InLineExcept c := fun x hx _ hm => h x hx hm

theorem OthersUnmapped.except (h : s.OthersUnmapped c) : s.InLineExcept c :=
  fun x hx hne hm => absurd hm (h x hx hne)

/-! ### Registration -/

theorem Keeps.releaseAlternate (possibleMaster : Bool) : Keeps s (s.releaseAlternate possibleMaster) := by
  unfold OutputCoordinator.releaseAlternate
  split
  · split
    · exact Keeps.of_contexts rfl rfl
    next a _ =>
      exact (Keeps.modify (s := s) (c := a) (f := ({ · with clockMaster := false }))
        (fun _ => rfl) fun _ => rfl).trans (Keeps.of_contexts rfl rfl)
  · exact Keeps.of_contexts rfl rfl

theorem chooseMaster_mapping (policy : MasterClock) (x : CoordinatorContext) :
    Keeps s (s.chooseMaster policy x).1 ∧ mapping (s.chooseMaster policy x).2 = mapping x := by
  have hr := Keeps.releaseAlternate (s := s) (policy.possibleMaster x.streamType)
  unfold chooseMaster
  dsimp only
  split
  · exact ⟨hr.trans (Keeps.of_contexts rfl rfl), rfl⟩
  · split
    · exact ⟨hr.trans (Keeps.of_contexts rfl rfl), rfl⟩
    · exact ⟨hr, rfl⟩

theorem chooseAdjuster_mapping (x : CoordinatorContext) :
    Keeps s (s.chooseAdjuster x).1 ∧ mapping (s.chooseAdjuster x).2 = mapping x := by
  unfold chooseAdjuster
  split
  · exact ⟨Keeps.of_contexts rfl rfl, rfl⟩
  · exact ⟨Keeps.of_contexts rfl rfl, rfl⟩

theorem InLine.insert (h : s.InLine) (hx : s.Mapped x → s.OnLine x) : (s.insert x).InLine := by
  intro y hy hm
  rcases List.mem_cons.mp hy with rfl | hy
  · exact hx hm
  · exact h y hy hm

theorem withExternalMapping_onLine (external : Bool) (hx : x.timeMappingEstablished = false)
    (h : external = true → s.masterTimeMappingEstablished = true → s.accumulatedPlaybackTimeJumps = 0)
    (hm : (s.withExternalMapping external x).timeMappingEstablished = true) :
    s.OnLine (s.withExternalMapping external x) := by
  unfold withExternalMapping at hm ⊢
  split at hm
  next hc =>
    obtain ⟨he, hme⟩ := Bool.and_eq_true_iff.mp hc
    rw [if_pos hc]
    refine ⟨?_, fun _ => rfl⟩
    unfold lineOf line
    rw [h he hme]
  · rw [hx] at hm
    exact Bool.noConfusion hm

theorem InLine.registerStream (h : s.InLine) (policy : MasterClock) (r : Registration)
    (hm : JumpsMeant s (.registerStream r)) : (s.registerStream policy r).InLine := by
  unfold OutputCoordinator.registerStream
  split
  next ho =>
    dsimp only
    have hline := withExternalMapping_onLine (s := s) (x := r.context) r.externalTimeMapping rfl (hm ho)
    generalize s.withExternalMapping r.externalTimeMapping r.context = x at hline
    obtain ⟨hk, he⟩ := chooseMaster_mapping (s := s) policy x
    generalize s.chooseMaster policy x = p at hk he
    obtain ⟨hk', he'⟩ := chooseAdjuster_mapping (s := p.1) p.2
    generalize p.1.chooseAdjuster p.2 = q at hk' he'
    refine (h.keeps (hk.trans hk')).insert ?_
    intro hmap
    have e : mapping x = mapping q.2 := (he'.trans he).symm
    exact (hline ((congrArg Prod.fst e).trans hmap.1)).congr e (hk'.master.trans hk.master)
  · exact h

theorem Keeps.deRegisterStream (x : CoordinatorContext) : Keeps s (s.deRegisterStream x) := by
  have hclock : Keeps s (s.handOverClock x) := by
    unfold handOverClock
    split
    · split
      next y _ =>
        exact (Keeps.modify (s := s) (c := y.id) (f := ({ · with clockMaster := true }))
          (fun _ => rfl) fun _ => rfl).trans (Keeps.of_contexts rfl rfl)
      · exact Keeps.of_contexts rfl rfl
    · exact Keeps.of_contexts rfl rfl
  have hadjust : ∀ t : OutputCoordinator, Keeps t (t.handOverAdjuster x) := by
    intro t
    unfold handOverAdjuster
    split
    · split
      next y _ =>
        exact (Keeps.modify (s := t) (c := y.id)
          (f := ({ · with allowedToAdjustMappingBase := true }))
          (fun _ => rfl) fun _ => rfl).trans (Keeps.of_contexts rfl rfl)
      · exact Keeps.of_contexts rfl rfl
    · exact Keeps.of_contexts rfl rfl
  refine (hclock.trans (hadjust _)).trans ⟨rfl, ?_⟩
  intro y hy
  exact ⟨y, List.mem_of_mem_eraseP hy, rfl, rfl⟩

/-! ### Mappings made and lost -/

theorem InLine.resetTimeMapping (h : s.InLine) (c : Option ℕ) : (s.resetTimeMapping c).InLine := by
  cases c with
  | none =>
    -- no mapping is left
    intro y hy hm
    obtain ⟨x, _, rfl⟩ := List.mem_map.mp hy
    exact Bool.noConfusion hm.1
  | some c =>
    refine (h.except c).modify ?_
    intro x _ _ hm
    exact Bool.noConfusion hm.1

theorem inLine_establishTimeMapping (c : Option ℕ) (p t now : UInt64)
    (hm : JumpsMeant s (.establishTimeMapping c p t now)) :
    (s.establishTimeMapping c p t now).InLine := by
  cases c with
  | none =>
    intro y hy _
    obtain ⟨x, _, rfl⟩ := List.mem_map.mp hy
    exact ⟨rfl, fun _ => rfl⟩
  | some c =>
    -- the other mappings are of older versions
    have hothers : (s.establishMaster p (if NativeTime.validTime t then t else now)).OthersUnmapped c :=
      fun y hy hne hmap => hm y hy hne hmap.1 hmap.2
    refine hothers.except.modify ?_
    intro x _ _ _
    exact ⟨rfl, fun _ => rfl⟩

/-- The master and all mappings are adjusted alike. -/
theorem InLine.adjustMappingBase (h : s.InLine) (c : Option ℕ) (external : Bool) (a : UInt64) :
    (s.adjustMappingBase c external a).InLine := by
  unfold OutputCoordinator.adjustMappingBase
  split
  · dsimp only
    split
    next =>
      intro y hy hm
      obtain ⟨x, hx, rfl⟩ := List.mem_map.mp hy
      split at hm
      next he =>
        obtain ⟨hline, hsystem⟩ := h x hx ⟨he, hm.2⟩
        rw [if_pos he]
        exact ⟨hline, fun ht => congrArg (· + a) (hsystem ht)⟩
      next he => exact absurd hm.1 he
    next hest =>
      intro y hy hm
      obtain ⟨x, hx, rfl⟩ := List.mem_map.mp hy
      split at hm
      next he =>
        rw [if_pos he]
        exact ⟨(h x hx ⟨he, hm.2⟩).1, fun ht => absurd ht.1 hest⟩
      next he => exact absurd hm.1 he
  · exact h

/-! ### Jumps -/

/-- Jumps and what follows them move base and sum in opposite directions. -/
theorem InLine.handleJump (h : s.InLine) (hd : Keyed.Distinct CoordinatorContext.id s.coordinatedContexts)
    (hx : x ∈ s.coordinatedContexts) (d : Deltas) : (s.handleJump d x).InLine := by
  unfold OutputCoordinator.handleJump
  dsimp only
  split
  · exact h
  · split
    · split
      · refine (h.except x.id).modify ?_
        intro y hy _ hm
        refine ⟨?_, (h y hy hm).2⟩
        rw [← (h y hy hm).1]
        unfold lineOf
        grind
      · refine (h.except x.id).modify ?_
        intro y hy _ hm
        refine ⟨?_, (h y hy hm).2⟩
        rw [← (h y hy hm).1]
        unfold lineOf
        grind
    next hacc =>
      split
      · exact h.resetTimeMapping none
      · have e : s.accumulatedPlaybackTimeJumps = x.accumulatedPlaybackTimeJumps := not_not.mp hacc
        unfold OutputCoordinator.initiateJump
        have hline : ∀ delta : UInt64, s.masterBaseNormalizedPlaybackTime + delta +
            (s.accumulatedPlaybackTimeJumps - delta) = s.line := by
          intro delta
          unfold line
          grind
        refine InLineExcept.modify ?_ ?_
        · intro y hy _ hm
          exact ⟨(h y hy hm).1.trans (hline _).symm, (h y hy hm).2⟩
        · intro y hy hid hm
          have hyx : y = x := hd.eq hy hx hid
          refine ⟨Eq.trans ?_ (hline (d.delta s.playBackward)).symm, (h y hy hm).2⟩
          rw [← (h y hy hm).1]
          unfold lineOf
          grind

theorem InLine.resetIf (h : s.InLine) (c : ℕ) (p : OutputCoordinator → CoordinatorContext → Bool) :
    (s.resetIf c p).InLine := by
  unfold OutputCoordinator.resetIf
  split
  · exact h.resetTimeMapping none
  · exact h

theorem InLine.handlePlaybackTimeDeltas (h : s.InLine)
    (hd : Keyed.Distinct CoordinatorContext.id s.coordinatedContexts)
    (hx : x ∈ s.coordinatedContexts) (d : Deltas) : (s.handlePlaybackTimeDeltas d x).InLine := by
  unfold OutputCoordinator.handlePlaybackTimeDeltas
  split
  · have hjump : InLine (if d.jumps s.playBackward then s.handleJump d x else s) := by
      split
      · exact h.handleJump hd hx d
      · exact h
    exact (hjump.resetIf x.id _).resetIf x.id _
  · exact h

/-! ### No elapsed time -/

variable {b t : UInt64}

theorem intDiv_eq (v : Int32) (f : Rational) : ∃ factor neg, Rational.intDiv v f =
    Rational.ofFactor ((Rational.ofInt v).numerator * f.denominator) f.numerator factor neg := by
  have hden : (Rational.ofInt v).denominator * f.numerator = f.numerator := by
    have h1 : (Rational.ofInt v).denominator = 1 := rfl
    rw [h1, UInt64.one_mul]
  unfold Rational.intDiv Rational.div
  rw [hden]
  exact ⟨_, _, rfl⟩

theorem ofFactor_zero (d factor : UInt64) (neg : Bool) :
    ∃ b, Rational.ofFactor 0 d factor neg = ⟨neg, 0, b⟩ ∧ b.toNat ≤ d.toNat ∧ (d ≠ 0 → b ≠ 0) := by
  unfold Rational.ofFactor
  split
  next h =>
    refine ⟨d / factor, by rw [UInt64.zero_div], ?_, ?_⟩
    · exact Nat.div_le_self _ _
    · intro hd hb
      have := h.2.2
      rw [hb, UInt64.mul_zero] at this
      exact hd this.symm
  · exact ⟨d, rfl, Nat.le_refl _, id⟩

theorem intDiv_zero (f : Rational) : ∃ neg b, Rational.intDiv 0 f = ⟨neg, 0, b⟩ ∧
    b.toNat ≤ f.numerator.toNat ∧ (f.numerator ≠ 0 → b ≠ 0) := by
  obtain ⟨factor, neg, e⟩ := intDiv_eq 0 f
  have hz : (Rational.ofInt 0).numerator * f.denominator = 0 := by
    have h0 : (Rational.ofInt 0).numerator = 0 := rfl
    rw [h0, UInt64.zero_mul]
  rw [hz] at e
  obtain ⟨b, eb, hb, hne⟩ := ofFactor_zero f.numerator factor neg
  exact ⟨neg, b, e.trans eb, hb, hne⟩

theorem rounded_zero (neg : Bool) (b : UInt64) :
    (Rational.mk neg 0 b).roundedLongLongIntegerPart = 0 := by
  have hpart : (0 + b / 2) / b = 0 := by
    apply UInt64.toNat_inj.mp
    have h2 : (2 : UInt64).toNat = 2 := rfl
    rw [UInt64.zero_add, UInt64.toNat_div, UInt64.toNat_div, h2]
    rcases Nat.eq_zero_or_pos b.toNat with h | h
    · rw [h]
      rfl
    · exact Nat.div_eq_of_lt (by omega)
  unfold Rational.roundedLongLongIntegerPart
  rw [hpart]
  split
  · rfl
  · rfl

theorem longLongIntegerPart_zero (neg : Bool) (hb : b ≠ 0) :
    (Rational.mk neg 0 b).longLongIntegerPart = 0 := by
  unfold Rational.longLongIntegerPart
  rw [if_neg hb, UInt64.zero_div]
  split
  · rfl
  · rfl

theorem restrict_zero (neg : Bool) (hb : b ≠ 0) (hlt : b.toNat < 2 ^ 32) :
    (Rational.mk neg 0 b).restrict.longLongIntegerPart = 0 := by
  have htmp : (0 ||| b) >>> 32 = 0 := by
    apply UInt64.toNat_inj.mp
    rw [UInt64.zero_or, UInt64.toNat_shiftRight]
    have h32 : (32 : UInt64).toNat % 64 = 32 := rfl
    rw [h32, Nat.shiftRight_eq_div_pow]
    exact Nat.div_eq_of_lt hlt
  unfold Rational.restrict
  rw [htmp, if_neg (not_not.mpr rfl)]
  unfold Rational.reduced
  split
  · rw [if_pos (by rw [UInt64.zero_div, UInt64.mul_zero]), UInt64.zero_div]
    exact longLongIntegerPart_zero neg (by decide)
  · exact longLongIntegerPart_zero neg hb

theorem speedScale_zero (hneg : s.speed.negative = false) (hlt : s.speed.numerator.toNat < 2 ^ 32) :
    s.speedScale 0 = 0 := by
  have hz : (if s.playBackward then -(0 : UInt64) else 0) = 0 := by
    split
    · rfl
    · rfl
  have hint : Rational.intOf 0 = 0 := rfl
  unfold speedScale
  dsimp only
  rw [hz, hint]
  split
  · rfl
  · split
    · rfl
    next h0 =>
      have hnum : s.speed.numerator ≠ 0 := by
        intro h
        apply h0
        have habs : Rational.absolute 0 = 0 := rfl
        unfold Rational.equalsInt
        rw [hneg, h, habs, UInt64.zero_mul]
        rfl
      obtain ⟨neg, b, e, hle, hb⟩ := intDiv_zero s.speed
      rw [e]
      exact restrict_zero neg (hb hnum) (Nat.lt_of_le_of_lt hle hlt)

theorem elapsedSystemTime_zero (hneg : s.speed.negative = false) (hlt : s.speed.numerator.toNat < 2 ^ 32) :
    s.elapsedSystemTime 0 = 0 := by
  have hint : Rational.intOf 0 = 0 := rfl
  unfold elapsedSystemTime
  rw [speedScale_zero hneg hlt, hint]
  obtain ⟨neg, b, e, _⟩ := intDiv_zero s.systemClockAdjustment
  rw [e]
  exact rounded_zero neg b

theorem Translates.rebases_self (h : s.Translates) : s.rebases t t = false := by
  unfold rebases
  rw [UInt64.sub_self, elapsedSystemTime_zero h.2.1 h.2.2]
  rfl

/-! ### Synchronization -/

theorem translate_none_cases (s : OutputCoordinator) (t : UInt64) :
    (s.translatePlaybackTimeToSystem none t).1 = s ∨
      (s.rebases s.masterBaseNormalizedPlaybackTime t = true ∧
        ∃ systemTime, (s.translatePlaybackTimeToSystem none t).1 = s.rebaseMaster t systemTime) := by
  unfold translatePlaybackTimeToSystem
  split
  · dsimp only
    split
    next h => exact Or.inr ⟨h, _, rfl⟩
    · exact Or.inl rfl
  · exact Or.inl rfl

theorem translate_some_cases (hx : s.context c = some x) (t : UInt64) :
    (s.translatePlaybackTimeToSystem (some c) t).1 = s ∨
      (s.rebases x.baseNormalizedPlaybackTime t = true ∧
        ∃ systemTime, (s.translatePlaybackTimeToSystem (some c) t).1 =
          (if s.masterBaseSystemTime = x.baseSystemTime then s.rebaseMaster t systemTime
            else s).rebaseContext c t systemTime) := by
  unfold translatePlaybackTimeToSystem
  split
  · dsimp only
    rw [hx]
    dsimp only
    split
    · split
      next h => exact Or.inr ⟨h, _, rfl⟩
      · exact Or.inl rfl
    · exact Or.inl rfl
  · exact Or.inl rfl

theorem noteOffset_eq (s : OutputCoordinator) (offset : UInt64) :
    ∃ m, s.noteOffset offset = { s with minimumStreamOffset := m } := by
  unfold noteOffset
  split
  · exact ⟨offset, rfl⟩
  · exact ⟨s.minimumStreamOffset, rfl⟩

theorem context_modify (hf : ∀ x, (f x).id = x.id)
    (hx : s.context c = some x) : (s.modify c f).context c = some (f x) :=
  Keyed.find?_modifyAt hf hx

theorem distinct_modify (hf : ∀ x, (f x).id = x.id)
    (hd : Keyed.Distinct CoordinatorContext.id s.coordinatedContexts) (c : ℕ) :
    Keyed.Distinct CoordinatorContext.id (s.modify c f).coordinatedContexts :=
  hd.modifyAt hf

theorem OthersUnmapped.modify
    (hf : ∀ x, (f x).id = x.id) (h : s.OthersUnmapped c) : (s.modify c f).OthersUnmapped c := by
  intro y hy hne
  obtain ⟨x, hx, e⟩ := Keyed.mem_modifyAt.mp hy
  by_cases hxc : x.id = c
  · rw [if_pos hxc] at e
    exact absurd ((e ▸ hf x).trans hxc) hne
  · rw [if_neg hxc] at e
    exact e ▸ h x hx hxc

theorem InLine.translateTaken (h : s.InLine)
    (hd : Keyed.Distinct CoordinatorContext.id s.coordinatedContexts) (hx : s.context c = some x)
    (hsys : s.masterBaseSystemTime = x.baseSystemTime)
    (hcase : s.rebases x.baseNormalizedPlaybackTime t = true →
      (x.baseNormalizedPlaybackTime = t ∧ s.masterBaseNormalizedPlaybackTime = t) ∨
        (x.accumulatedPlaybackTimeJumps = s.accumulatedPlaybackTimeJumps ∧ s.OthersUnmapped c)) :
    (s.translatePlaybackTimeToSystem (some c) t).1.InLine := by
  obtain ⟨hmem, hid⟩ := context_some hx
  obtain e | ⟨hr, systemTime, e⟩ := translate_some_cases hx t
  · rw [e]
    exact h
  · rw [e, if_pos hsys]
    obtain ⟨hb, hm⟩ | ⟨hacc, hother⟩ := hcase hr
    · -- both bases are there already
      have hline : (s.rebaseMaster t systemTime).line = s.line := by
        unfold line rebaseMaster
        rw [hm]
      refine InLineExcept.modify ?_ ?_
      · intro y hy _ hmap
        refine ⟨(h y hy hmap).1.trans hline.symm, ?_⟩
        intro (ht : s.Translates)
        rw [hb, ht.rebases_self] at hr
        cases hr
      · intro y hy hyc hmap
        have hyx : y = x := hd.eq hy hmem (hyc.trans hid.symm)
        subst hyx
        refine ⟨?_, fun _ => rfl⟩
        rw [hline, ← (h y hy hmap).1]
        unfold lineOf
        rw [hb]
    · have hother' : (s.rebaseMaster t systemTime).OthersUnmapped c := hother
      refine hother'.except.modify ?_
      intro y hy hyc _
      have hyx : y = x := hd.eq hy hmem (hyc.trans hid.symm)
      subst hyx
      refine ⟨?_, fun _ => rfl⟩
      unfold lineOf line rebaseMaster
      rw [hacc]

theorem InLine.takeAlternate (h : s.InLine)
    (hd : Keyed.Distinct CoordinatorContext.id s.coordinatedContexts) (hx : s.context c = some x)
    (hacc : s.accumulatedPlaybackTimeJumps = 0) (offset : UInt64)
    (hrebase : s.rebases s.masterBaseNormalizedPlaybackTime t = true → s.OthersUnmapped c) :
    ((s.takeAlternate c offset).translatePlaybackTimeToSystem (some c) t).1.InLine := by
  unfold OutputCoordinator.takeAlternate
  obtain ⟨m, e⟩ := noteOffset_eq (s.modify c (s.withAlternate offset)) offset
  rw [e]
  have hmod : (s.modify c (s.withAlternate offset)).InLine := by
    refine (h.except c).modify ?_
    intro y _ _ _
    refine ⟨?_, fun _ => rfl⟩
    unfold lineOf line withAlternate
    rw [hacc]
  have hctx : (s.modify c (s.withAlternate offset)).context c = some (s.withAlternate offset x) :=
    context_modify (fun _ => rfl) hx
  generalize hu : s.modify c (s.withAlternate offset) = u at hmod hctx
  have hd' : Keyed.Distinct CoordinatorContext.id u.coordinatedContexts :=
    hu ▸ hd.modifyAt fun _ => rfl
  have hmaster : u.masterBaseSystemTime = s.masterBaseSystemTime := hu ▸ rfl
  have hother : s.OthersUnmapped c → u.OthersUnmapped c := fun h' => hu ▸ h'.modify fun _ => rfl
  have hreb : u.rebases s.masterBaseNormalizedPlaybackTime t =
      s.rebases s.masterBaseNormalizedPlaybackTime t := hu ▸ rfl
  have hacc' : u.accumulatedPlaybackTimeJumps = 0 := hu ▸ hacc
  refine InLine.translateTaken (s := { u with minimumStreamOffset := m })
    (hmod.keeps (Keeps.of_contexts rfl rfl)) hd' hctx hmaster ?_
  intro hr
  exact Or.inr ⟨hacc'.symm, hother (hrebase (hreb ▸ hr))⟩

theorem InLine.synchronizeStreams (h : s.InLine)
    (hd : Keyed.Distinct CoordinatorContext.id s.coordinatedContexts) (hx : s.context c = some x)
    (external : Bool) (t now : UInt64) (hm : external = false → s.SynchronizeMeant x t now) :
    (s.synchronizeStreams x external t now).InLine := by
  obtain ⟨hmem, hid⟩ := context_some hx
  have hdelay : ∀ u : OutputCoordinator, u.InLine → (u.beginStartupDelay x.id t).InLine := by
    intro u hu y hy hm
    have hmod := hu.keeps (Keeps.modify (c := x.id)
      (f := ({ · with inStartupDelay := true, normalizedPlaybackTime := t })) (fun _ => rfl) fun _ => rfl)
    exact ⟨(hmod y hy hm).1, fun ht => Bool.noConfusion ht.1⟩
  unfold OutputCoordinator.synchronizeStreams
  split
  · exact h
  next he =>
    split
    next halt =>
      obtain ⟨hrebase, hacc⟩ := hm (Bool.eq_false_iff.mpr he) halt
      have hest : s.masterTimeMappingEstablished = true := (Bool.and_eq_true_iff.mp halt).1
      have hnow : (s.translatePlaybackTimeToSystem none t).2 = some (s.masterBaseSystemTime +
          s.elapsedSystemTime (t - s.masterBaseNormalizedPlaybackTime)) := by
        unfold translatePlaybackTimeToSystem
        rw [if_pos hest]
      have hp : (s.translatePlaybackTimeToSystem none t).1.InLine := by
        obtain e | ⟨hr, systemTime, e⟩ := s.translate_none_cases t
        · rw [e]
          exact h
        · rw [e]
          intro y hy hmap
          exact absurd hmap (hrebase hr y hy)
      dsimp only
      rw [hnow, Option.getD_some]
      split
      next hreason =>
        have hzero := hacc hreason
        obtain e | ⟨hr, systemTime, e⟩ := s.translate_none_cases t
        · rw [e, hid]
          exact h.takeAlternate hd hx hzero _ fun hr y hy _ => hrebase hr y hy
        · rw [e, hid]
          rw [e] at hp
          exact hp.takeAlternate hd hx hzero _ fun _ y hy _ => hrebase hr y hy
      · exact hdelay _ hp
    · exact hdelay s h

theorem InLineExcept.pickUp (h : s.InLineExcept c) (offset : UInt64) : (s.pickUp c offset).InLine := by
  refine h.modify ?_
  intro y _ _ _
  refine ⟨?_, fun _ => rfl⟩
  unfold lineOf line withMaster
  grind

theorem InLineExcept.takeClose (h : s.InLineExcept c)
    (hd : Keyed.Distinct CoordinatorContext.id s.coordinatedContexts) (hx : s.context c = some x)
    (offset : UInt64)
    (hrebase : s.rebases s.line t = true → s.accumulatedPlaybackTimeJumps = 0 ∧ s.OthersUnmapped c) :
    (((s.pickUp c offset).noteOffset offset).translatePlaybackTimeToSystem (some c) t).1.InLine := by
  obtain ⟨m, e⟩ := noteOffset_eq (s.pickUp c offset) offset
  rw [e]
  have hu := h.pickUp offset
  have hctx : (s.pickUp c offset).context c = some (s.withMaster offset x) :=
    context_modify (fun _ => rfl) hx
  have hother : s.OthersUnmapped c → (s.pickUp c offset).OthersUnmapped c :=
    fun h' => h'.modify fun _ => rfl
  refine InLine.translateTaken (s := { s.pickUp c offset with minimumStreamOffset := m })
    (hu.keeps (Keeps.of_contexts rfl rfl)) (hd.modifyAt fun _ => rfl) hctx rfl ?_
  intro hr
  obtain ⟨hacc, ho⟩ := hrebase hr
  exact Or.inr ⟨hacc.symm, hother ho⟩

/-- A stream that is too far away, when there are no jumps: both bases come to its playback time. -/
theorem InLineExcept.takeFar (h : s.InLineExcept c)
    (hd : Keyed.Distinct CoordinatorContext.id s.coordinatedContexts) (hx : s.context c = some x)
    (hacc : s.accumulatedPlaybackTimeJumps = 0) (t : UInt64) :
    ((((s.pickUp c 0).anticipateJump c (s.offsetOf t)).noteOffset 0).translatePlaybackTimeToSystem
      (some c) t).1.InLine := by
  have hu := h.pickUp 0
  have hctx : (s.pickUp c 0).context c = some (s.withMaster 0 x) := context_modify (fun _ => rfl) hx
  have hd' : Keyed.Distinct CoordinatorContext.id (s.pickUp c 0).coordinatedContexts :=
    hd.modifyAt fun _ => rfl
  obtain ⟨m, e⟩ := noteOffset_eq ((s.pickUp c 0).anticipateJump c (s.offsetOf t)) 0
  rw [e]
  have hline : ((s.pickUp c 0).anticipated (s.offsetOf t)).line = (s.pickUp c 0).line := by
    unfold line anticipated
    grind
  have hv : ((s.pickUp c 0).anticipateJump c (s.offsetOf t)).InLine := by
    refine InLineExcept.modify ?_ ?_
    · intro y hy _ hm
      exact ⟨(hu y hy hm).1.trans hline.symm, (hu y hy hm).2⟩
    · intro y hy hyc hm
      obtain ⟨hmem, hid⟩ := context_some hctx
      have hyx : y = s.withMaster 0 x := hd'.eq hy hmem (hyc.trans hid.symm)
      subst hyx
      refine ⟨?_, fun _ => rfl⟩
      rw [hline]
      change s.masterBaseNormalizedPlaybackTime + s.accumulatedPlaybackTimeJumps - -s.offsetOf t +
        (s.accumulatedPlaybackTimeJumps + -s.offsetOf t) =
          s.masterBaseNormalizedPlaybackTime + s.accumulatedPlaybackTimeJumps
      grind
  have hctx' : ((s.pickUp c 0).anticipateJump c (s.offsetOf t)).context c =
      some (((s.pickUp c 0).anticipated (s.offsetOf t)).withAnticipated (s.offsetOf t)
        (s.withMaster 0 x)) :=
    context_modify (s := (s.pickUp c 0).anticipated (s.offsetOf t)) (fun _ => rfl) hctx
  refine InLine.translateTaken
    (s := { (s.pickUp c 0).anticipateJump c (s.offsetOf t) with minimumStreamOffset := m })
    (hv.keeps (Keeps.of_contexts rfl rfl)) (hd'.modifyAt fun _ => rfl) hctx' rfl ?_
  intro _
  left
  constructor
  · change s.masterBaseNormalizedPlaybackTime + s.accumulatedPlaybackTimeJumps - -s.offsetOf t = t
    unfold offsetOf
    grind
  · change s.masterBaseNormalizedPlaybackTime - -s.offsetOf t = t
    unfold offsetOf
    grind

theorem InLineExcept.takeMapping (h : s.InLineExcept c)
    (hd : Keyed.Distinct CoordinatorContext.id s.coordinatedContexts) (hx : s.context c = some x)
    (hm : s.TakeMeant c t) : (s.takeMapping c t).InLine := by
  have hleave : ∀ u : OutputCoordinator, u.InLine →
      ({ u.modify c ({ · with inSynchronizeFn := false }) with
        streamsInSynchronize := u.streamsInSynchronize - 1 } : OutputCoordinator).InLine := by
    intro u hu
    exact hu.keeps ((Keeps.modify (s := u) (c := c) (f := ({ · with inSynchronizeFn := false }))
      (fun _ => rfl) fun _ => rfl).trans (Keeps.of_contexts rfl rfl))
  unfold OutputCoordinator.takeMapping
  unfold TakeMeant at hm
  refine hleave _ ?_
  split at hm
  next hi =>
    rw [if_pos hi]
    exact h.takeFar hd hx hm t
  next hi =>
    rw [if_neg hi]
    exact h.takeClose hd hx _ hm

theorem InLine.pass (h : s.InLine)
    (hd : Keyed.Distinct CoordinatorContext.id s.coordinatedContexts) (hx : s.context x.id = some x)
    (r : Restart) (hm : s.PassMeant x) : (s.pass r x).InLine := by
  unfold OutputCoordinator.pass
  unfold PassMeant at hm
  split at hm
  next hest =>
    rw [if_pos hest]
    exact (h.except x.id).takeMapping hd hx hm
  next hest =>
    rw [if_neg hest]
    split
    next hready =>
      split
      next e _ =>
        -- a new version: the mappings of the others are of older ones
        have hothers : (s.establishEarliest r e).OthersUnmapped x.id :=
          fun y hy hne hmap => hm hready y hy hne hmap.1 hmap.2
        refine hothers.except.takeMapping hd hx ?_
        unfold TakeMeant
        split
        · rfl
        · exact fun _ => ⟨rfl, hothers⟩
      · exact h
    · exact h

theorem InLine.joinSynchronize (h : s.InLine)
    (hd : Keyed.Distinct CoordinatorContext.id s.coordinatedContexts) (hx : s.context c = some x)
    (immediate : Bool) (r : Restart)
    (hm : (s.joining c (waitsFor immediate)).PassMeant (joined (waitsFor immediate) x)) :
    (s.joinSynchronize x immediate r).InLine := by
  obtain ⟨_, rfl⟩ := context_some hx
  unfold OutputCoordinator.joinSynchronize
  generalize waitsFor immediate = n at hm
  have hk : Keeps s (s.joining x.id n) :=
    (Keeps.modify (s := s) (c := x.id) (f := joined n) (fun _ => rfl) fun _ => rfl).trans
      (Keeps.of_contexts rfl rfl)
  have hctx : (s.joining x.id n).context x.id = some (joined n x) :=
    context_modify (f := joined n) (fun _ => rfl) hx
  have hd' : Keyed.Distinct CoordinatorContext.id (s.joining x.id n).coordinatedContexts :=
    distinct_modify (f := joined n) (fun _ => rfl) hd x.id
  exact (h.keeps hk).pass hd' hctx r hm

theorem InLine.endWait (h : s.InLine)
    (hd : Keyed.Distinct CoordinatorContext.id s.coordinatedContexts) (hx : s.context c = some x)
    (r : Restart) (hm : (s.modify c waited).PassMeant (waited x)) : (s.endWait x r).InLine := by
  obtain ⟨_, rfl⟩ := context_some hx
  have hk : Keeps s (s.modify x.id waited) := Keeps.modify (fun _ => rfl) fun _ => rfl
  have hctx : (s.modify x.id waited).context x.id = some (waited x) :=
    context_modify (f := waited) (fun _ => rfl) hx
  have hd' : Keyed.Distinct CoordinatorContext.id (s.modify x.id waited).coordinatedContexts :=
    distinct_modify (f := waited) (fun _ => rfl) hd x.id
  exact (h.keeps hk).pass hd' hctx r hm

/-! ### Runs -/

variable {policy : MasterClock}

theorem inLine_step {a : Label}
    (hd : Keyed.Distinct CoordinatorContext.id s.coordinatedContexts) (h : s.InLine)
    (hm : s.JumpsMeant a) (hs : step policy s a = some s') : s'.InLine := by
  cases a with
  | registerStream r =>
    dsimp only [step] at hs
    split at hs
    · cases hs
    · exact Option.some.inj hs ▸ h.registerStream policy r hm
  | deRegisterStream c =>
    obtain ⟨x, _, hs⟩ := Option.bind_eq_some_iff.mp hs
    split at hs
    · cases hs
    · exact Option.some.inj hs ▸ h.keeps (Keeps.deRegisterStream x)
  | resetTimeMapping c => exact Option.some.inj hs ▸ h.resetTimeMapping c
  | establishTimeMapping c p t now =>
    exact Option.some.inj hs ▸ inLine_establishTimeMapping c p t now hm
  | adjustMappingBase c e d => exact Option.some.inj hs ▸ h.adjustMappingBase c e d
  | handlePlaybackTimeDeltas c d =>
    obtain ⟨x, hx, hs⟩ := Option.map_eq_some_iff.mp hs
    exact hs ▸ h.handlePlaybackTimeDeltas hd (context_some hx).1 d
  | synchronizeStreams c e t now =>
    obtain ⟨x, hx, hs⟩ := Option.bind_eq_some_iff.mp hs
    split at hs
    · cases hs
    · exact Option.some.inj hs ▸ h.synchronizeStreams hd hx e t now fun he => hm he x hx
  | joinSynchronize c immediate r =>
    obtain ⟨x, hx, hs⟩ := Option.bind_eq_some_iff.mp hs
    split at hs
    · exact Option.some.inj hs ▸ h.joinSynchronize hd hx immediate r (hm x hx)
    · cases hs
  | endWait c r =>
    obtain ⟨x, hx, hs⟩ := Option.bind_eq_some_iff.mp hs
    split at hs
    · exact Option.some.inj hs ▸ h.endWait hd hx r (hm x hx)
    · cases hs

theorem distinct_of_consistent (h : s.roles.Consistent policy) :
    Keyed.Distinct CoordinatorContext.id s.coordinatedContexts := by
  have hd := h.distinct
  unfold Keyed.Distinct roles at hd
  rw [List.map_map] at hd
  exact hd

/-- **Jumps are accounted for.**  In a run that starts without streams, and in which no jump is forgotten,
counted twice or left behind, every mapping taken from the master is in line with it; so a stream that has
followed all jumps has the bases of the master. -/
theorem run_inLine {policy : MasterClock} {speed adjustment : Rational} {playBackward : Bool}
    {labels : List Label} {s' : OutputCoordinator}
    (h : run (step policy) (start speed playBackward adjustment) labels = some s')
    (hm : Along (step policy) JumpsMeant (start speed playBackward adjustment) labels) :
    s'.InLine ∧ ∀ x ∈ s'.coordinatedContexts, s'.Mapped x →
      x.accumulatedPlaybackTimeJumps = s'.accumulatedPlaybackTimeJumps →
        x.baseNormalizedPlaybackTime = s'.masterBaseNormalizedPlaybackTime ∧
          (s'.Translates → x.baseSystemTime = s'.masterBaseSystemTime) := by
  have hline : s'.InLine := by
    refine (run_invariant_along (I := fun s => s.roles.Consistent policy ∧ s.InLine) ?_
      ⟨consistent_start speed playBackward adjustment, ?_⟩ hm h).2
    · rintro s a s' ⟨hc, hi⟩ hp hs
      exact ⟨consistent_step hc hs, inLine_step (distinct_of_consistent hc) hi hp hs⟩
    · intro x hx
      exact absurd hx List.not_mem_nil
  refine ⟨hline, ?_⟩
  intro x hx hmap hacc
  obtain ⟨e, hsystem⟩ := hline x hx hmap
  unfold lineOf line at e
  exact ⟨by grind, hsystem⟩

/-- Two streams synchronize, one of them jumps and the other follows. -/
theorem run_inLine_follows :
    let jump : Deltas := ⟨true, 1000000, 5000000, false, 4, false⟩
    let labels := [.registerStream ⟨0, .video, true, false⟩, .registerStream ⟨1, .audio, true, false⟩,
      .synchronizeStreams 0 false 1000000 0, .synchronizeStreams 1 false 1000000 0,
      .joinSynchronize 0 false ⟨2000000, 40000, false⟩, .joinSynchronize 1 false ⟨2000000, 40000, false⟩,
      .endWait 0 ⟨2000000, 40000, false⟩, .handlePlaybackTimeDeltas 0 jump,
      .handlePlaybackTimeDeltas 1 jump]
    ∃ s, run (step .videoClockMaster) (start ⟨false, 1, 1⟩ false ⟨false, 1, 1⟩) labels = some s ∧
      s.InLine ∧ s.coordinatedContexts.map lineOf = [1000000, 1000000] ∧ s.line = 1000000 := by
  intro jump labels
  obtain ⟨s, hs⟩ := Option.isSome_iff_exists.mp (show (run (step .videoClockMaster)
    (start ⟨false, 1, 1⟩ false ⟨false, 1, 1⟩) labels).isSome = true by decide +kernel)
  have hlines : (run (step .videoClockMaster) (start ⟨false, 1, 1⟩ false ⟨false, 1, 1⟩) labels).map
      (fun s => (s.coordinatedContexts.map lineOf, s.line)) = some ([1000000, 1000000], 1000000) := by
    decide +kernel
  rw [hs] at hlines
  obtain ⟨e1, e2⟩ := Prod.mk.inj (Option.some.inj hlines)
  exact ⟨s, hs, (run_inLine hs (by decide +kernel)).1, e1, e2⟩

/-- A stream takes the alternate mapping after a jump of another stream: its base is that of the master,
but it does not have the jump. -/
theorem synchronizeStreams_notInLine :
    let jump : Deltas := ⟨true, 1000000, 5000000, false, 4, false⟩
    let labels := [.registerStream ⟨0, .video, true, false⟩, .registerStream ⟨1, .audio, true, false⟩,
      .establishTimeMapping (some 0) 1000000 1000000 0, .handlePlaybackTimeDeltas 0 jump,
      .synchronizeStreams 1 false 5000000 1000000]
    ∃ s, run (step .videoClockMaster) (start ⟨false, 1, 1⟩ false ⟨false, 1, 1⟩) labels = some s ∧
      ∃ x ∈ s.coordinatedContexts, s.Mapped x ∧ lineOf x = 5000000 ∧ s.line = 1000000 := by
  intro jump labels
  have h : (run (step .videoClockMaster) (start ⟨false, 1, 1⟩ false ⟨false, 1, 1⟩) labels).any
      (fun s => s.coordinatedContexts.any fun x =>
        s.Mapped x ∧ lineOf x = 5000000 ∧ s.line = 1000000) = true := by
    decide +kernel
  obtain ⟨s, hs, h⟩ := (Option.any_eq_true _ _).mp h
  obtain ⟨x, hx, h⟩ := List.any_eq_true.mp h
  exact ⟨s, hs, x, hx, of_decide_eq_true h⟩

end Player2.OutputCoordinator

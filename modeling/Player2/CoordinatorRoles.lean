import Player2.OutputCoordinator

/-! # The clock master and the adjuster

Two roles are given out when streams are registered and handed over when they are de-registered: one
context is the clock master, and one video context may adjust the mapping base.  Where there is no stream
of the type that the policy names, another one is the alternate master until such a stream comes.

`Roles` is the part of the coordinator that this is about, with registration and de-registration on it;
the coordinator's own are these on its roles (`roles_registerStream`, `roles_deRegisterStream`) and nothing
else touches the roles (`roles_step`).

What the roles are for is `Appointed`.  All of it but two parts holds of every run (`Consistent`).  A stream
that takes over from the alternate master of its own type counts as a real master, so that a stream of the
right type that is registered then does not become the master; and the address of an alternate master that
has been replaced is kept when its context goes.  Where neither comes up, every state of a run is as it
should be (`throughout_appointed_iff`). -/

namespace Player2.OutputCoordinator

/-! ### Roles -/

/-- The roles of a context. -/
structure Role where
  id : ℕ
  streamType : StreamType
  clockMaster : Bool
  allowedToAdjustMappingBase : Bool
deriving DecidableEq, Repr

/-- The roles of the contexts of a coordinator. -/
structure Roles where
  members : List Role
  streamCount : ℕ
  gotAMasterClock : Bool
  gotAnAlternateMasterClock : Bool
  alternateMasterContext : Option ℕ
  gotAVideoStream : Bool
deriving DecidableEq, Repr

/-- What a context does. -/
def role (x : CoordinatorContext) : Role :=
  ⟨x.id, x.streamType, x.clockMaster, x.allowedToAdjustMappingBase⟩

/-- The roles of a coordinator. -/
def roles (s : OutputCoordinator) : Roles where
  members := s.coordinatedContexts.map role
  streamCount := s.streamCount
  gotAMasterClock := s.gotAMasterClock
  gotAnAlternateMasterClock := s.gotAnAlternateMasterClock
  alternateMasterContext := s.alternateMasterContext
  gotAVideoStream := s.gotAVideoStream

namespace Roles

/-- The alternate master is given up. -/
def release (r : Roles) (possibleMaster : Bool) : Roles :=
  if possibleMaster && r.gotAnAlternateMasterClock then
    match r.alternateMasterContext with
    | none => { r with gotAnAlternateMasterClock := false }
    | some a =>
      { r with
        members := Keyed.modifyAt Role.id r.members a ({ · with clockMaster := false })
        gotAnAlternateMasterClock := false }
  else r

/-- Enter a member with its roles. -/
def enter (r : Roles) (id : ℕ) (t : StreamType) (master alternate adjuster : Bool) : Roles where
  members := ⟨id, t, master || alternate, adjuster⟩ :: r.members
  streamCount := r.streamCount + 1
  gotAMasterClock := r.gotAMasterClock || master
  gotAnAlternateMasterClock := r.gotAnAlternateMasterClock || alternate
  alternateMasterContext := if alternate then some id else r.alternateMasterContext
  gotAVideoStream := r.gotAVideoStream || adjuster

/-- A stream is registered. -/
def register (policy : MasterClock) (r : Roles) (id : ℕ) (t : StreamType) : Roles :=
  let possibleMaster := policy.possibleMaster t
  let r := r.release possibleMaster
  let master := !r.gotAMasterClock && possibleMaster
  let alternate := !r.gotAMasterClock && !possibleMaster && !r.gotAnAlternateMasterClock &&
    policy != .systemClockMaster
  r.enter id t master alternate (!r.gotAVideoStream && t = .video)

/-- A member leaves the list. -/
def leave (r : Roles) (id : ℕ) : Roles :=
  { r with members := r.members.eraseP (fun x => x.id == id), streamCount := r.streamCount - 1 }

/-- The first member with a type. -/
def firstOf (r : Roles) (t : StreamType) : Option Role := r.members.find? fun x => x.streamType = t

/-- The clock of a member that has left goes to another one. -/
def promoteClock (r : Roles) (x : Role) : Roles :=
  if x.clockMaster then
    match r.firstOf x.streamType with
    | some y =>
      { r with
        members := Keyed.modifyAt Role.id r.members y.id ({ · with clockMaster := true })
        gotAMasterClock := true, gotAnAlternateMasterClock := false, alternateMasterContext := none }
    | none =>
      { r with
        gotAMasterClock := false, gotAnAlternateMasterClock := false, alternateMasterContext := none }
  else r

/-- The adjustment of a member that has left goes to another one. -/
def promoteAdjuster (r : Roles) (x : Role) : Roles :=
  if x.allowedToAdjustMappingBase then
    match r.firstOf .video with
    | some y =>
      { r with
        members := Keyed.modifyAt Role.id r.members y.id
          ({ · with allowedToAdjustMappingBase := true })
        gotAVideoStream := true }
    | none => { r with gotAVideoStream := false }
  else r

/-- A stream is de-registered. -/
def deRegister (r : Roles) (x : Role) : Roles := ((r.leave x.id).promoteClock x).promoteAdjuster x

end Roles

/-! ### The coordinator's roles -/

section simulation

variable {s : OutputCoordinator}

variable {f : CoordinatorContext → CoordinatorContext}

theorem roles_modify {c : ℕ}
    (h : ∀ x, role (f x) = role x) : (s.modify c f).roles = s.roles := by
  unfold roles modify
  rw [Keyed.map_modifyAt h]

theorem roles_modifyAll (h : ∀ x, role (f x) = role x) : (s.modifyAll f).roles = s.roles := by
  unfold roles modifyAll
  simp only [List.map_map, Function.comp_def, h]

theorem roles_propagate {c : Option ℕ}
    (h : ∀ x, role (f x) = role x) : (s.propagate c f).roles = s.roles := by
  cases c with
  | none => exact roles_modifyAll h
  | some c => exact roles_modify h

theorem find?_map_role (p : Role → Bool) (l : List CoordinatorContext) :
    (l.map role).find? p = (l.find? (fun x => p (role x))).map role := by
  rw [List.find?_map]
  rfl

variable {g : Role → Role}

theorem map_role_modifyAt (l : List CoordinatorContext) (c : ℕ)
    (h : ∀ x, role (f x) = g (role x)) :
    (Keyed.modifyAt CoordinatorContext.id l c f).map role = Keyed.modifyAt Role.id (l.map role) c g :=
  Keyed.map_modifyAt_comm (fun _ => rfl) h

theorem roles_releaseAlternate (possibleMaster : Bool) :
    (s.releaseAlternate possibleMaster).roles = s.roles.release possibleMaster := by
  unfold releaseAlternate Roles.release
  by_cases h : (possibleMaster && s.gotAnAlternateMasterClock) = true
  · have h' : (possibleMaster && s.roles.gotAnAlternateMasterClock) = true := h
    rw [if_pos h, if_pos h']
    cases e : s.alternateMasterContext with
    | none =>
      have e' : s.roles.alternateMasterContext = none := e
      rw [e']
      rfl
    | some a =>
      have e' : s.roles.alternateMasterContext = some a := e
      rw [e']
      unfold roles modify
      simp only [Roles.mk.injEq, true_and, and_true]
      refine ⟨map_role_modifyAt _ a ?_, e⟩
      intro x
      rfl
  · have h' : ¬(possibleMaster && s.roles.gotAnAlternateMasterClock) = true := h
    rw [if_neg h, if_neg h']

theorem role_withExternalMapping (external : Bool) (x : CoordinatorContext) :
    role (s.withExternalMapping external x) = role x := by
  unfold withExternalMapping
  split
  · rfl
  · rfl

theorem roles_chooseMaster (policy : MasterClock) (x : CoordinatorContext) :
    let p := s.chooseMaster policy x
    let r := s.roles.release (policy.possibleMaster x.streamType)
    let master := !r.gotAMasterClock && policy.possibleMaster x.streamType
    let alternate := !r.gotAMasterClock && !policy.possibleMaster x.streamType &&
      !r.gotAnAlternateMasterClock && policy != .systemClockMaster
    p.1.roles = { r with
        gotAMasterClock := r.gotAMasterClock || master
        gotAnAlternateMasterClock := r.gotAnAlternateMasterClock || alternate
        alternateMasterContext := if alternate then some x.id else r.alternateMasterContext } ∧
      role p.2 = { role x with clockMaster := x.clockMaster || (master || alternate) } := by
  rw [← roles_releaseAlternate]
  unfold chooseMaster
  dsimp only
  generalize s.releaseAlternate (policy.possibleMaster x.streamType) = t
  have ea : t.roles.gotAMasterClock = t.gotAMasterClock := rfl
  have eb : t.roles.gotAnAlternateMasterClock = t.gotAnAlternateMasterClock := rfl
  cases ha : t.gotAMasterClock <;> cases hp : policy.possibleMaster x.streamType <;>
    cases hb : t.gotAnAlternateMasterClock <;> cases hs : policy != .systemClockMaster <;>
    simp [roles, role, ha, hb]

theorem roles_chooseAdjuster (x : CoordinatorContext) :
    let p := s.chooseAdjuster x
    let adjuster := !s.roles.gotAVideoStream && x.streamType = .video
    p.1.roles = { s.roles with gotAVideoStream := s.roles.gotAVideoStream || adjuster } ∧
      role p.2 = { role x with
        allowedToAdjustMappingBase := x.allowedToAdjustMappingBase || adjuster } := by
  unfold chooseAdjuster
  have ea : s.roles.gotAVideoStream = s.gotAVideoStream := rfl
  cases ha : s.gotAVideoStream <;> cases hv : (decide (x.streamType = .video)) <;>
    simp [roles, role, ha]

theorem roles_registerStream (policy : MasterClock) (r : Registration) (h : r.obtained = true) :
    (s.registerStream policy r).roles = s.roles.register policy r.id r.streamType := by
  unfold registerStream
  rw [if_pos h]
  dsimp only
  have hx := role_withExternalMapping (s := s) r.externalTimeMapping r.context
  generalize s.withExternalMapping r.externalTimeMapping r.context = x at hx
  have hi : x.id = r.id := congrArg Role.id hx
  have ht : x.streamType = r.streamType := congrArg Role.streamType hx
  have hm : x.clockMaster = false := congrArg Role.clockMaster hx
  have ha : x.allowedToAdjustMappingBase = false := congrArg Role.allowedToAdjustMappingBase hx
  obtain ⟨e1, e2⟩ := roles_chooseMaster (s := s) policy x
  generalize s.chooseMaster policy x = p at e1 e2
  obtain ⟨f1, f2⟩ := roles_chooseAdjuster (s := p.1) p.2
  generalize p.1.chooseAdjuster p.2 = q at f1 f2
  have hq : (q.1.insert q.2).roles =
      { q.1.roles with
        members := role q.2 :: q.1.roles.members, streamCount := q.1.roles.streamCount + 1 } := rfl
  have hpt : p.2.streamType = x.streamType := congrArg Role.streamType e2
  have hpa : p.2.allowedToAdjustMappingBase = x.allowedToAdjustMappingBase :=
    congrArg Role.allowedToAdjustMappingBase e2
  rw [hq, f1, f2, e1, e2, hpt, hpa]
  unfold Roles.register Roles.enter
  simp only [ht, hi, hm, ha, role, Bool.false_or]

theorem roles_remove (c : ℕ) : (s.remove c).roles = s.roles.leave c := by
  unfold remove Roles.leave roles
  rw [List.eraseP_map]
  rfl

theorem roles_firstOther (h : Keyed.Distinct Role.id s.roles.members) (c : ℕ) (t : StreamType) :
    (s.roles.leave c).firstOf t = (s.firstOther c t).map role := by
  unfold Roles.firstOf Roles.leave
  rw [h.find?_eraseP]
  exact find?_map_role (fun x => x.id ≠ c ∧ x.streamType = t) s.coordinatedContexts

theorem members_modify_leave (c d : ℕ)
    (h : ∀ x, role (f x) = g (role x)) (hg : ∀ x, (g x).id = x.id) :
    ((s.modify d f).roles.leave c).members = Keyed.modifyAt Role.id (s.roles.leave c).members d g := by
  unfold Roles.leave roles modify
  rw [map_role_modifyAt _ d h, Keyed.eraseP_modifyAt hg]

theorem roles_handOverClock (h : Keyed.Distinct Role.id s.roles.members) (x : CoordinatorContext) :
    (s.handOverClock x).roles.leave x.id = (s.roles.leave x.id).promoteClock (role x) := by
  unfold handOverClock Roles.promoteClock
  rw [show (role x).clockMaster = x.clockMaster from rfl,
    show (role x).streamType = x.streamType from rfl, roles_firstOther h x.id x.streamType]
  split
  · cases s.firstOther x.id x.streamType with
    | none => rfl
    | some y =>
      have hm := members_modify_leave (s := s) x.id y.id
        (f := fun z => { z with clockMaster := true })
        (g := fun z => { z with clockMaster := true }) (fun _ => rfl) (fun _ => rfl)
      rw [Roles.mk.injEq]
      exact ⟨hm, rfl, rfl, rfl, rfl, rfl⟩
  · rfl

theorem roles_handOverAdjuster (h : Keyed.Distinct Role.id s.roles.members) (x : CoordinatorContext) :
    (s.handOverAdjuster x).roles.leave x.id = (s.roles.leave x.id).promoteAdjuster (role x) := by
  unfold handOverAdjuster Roles.promoteAdjuster
  rw [show (role x).allowedToAdjustMappingBase = x.allowedToAdjustMappingBase from rfl,
    roles_firstOther h x.id .video]
  split
  · cases s.firstOther x.id .video with
    | none => rfl
    | some y =>
      have hm := members_modify_leave (s := s) x.id y.id
        (f := fun z => { z with allowedToAdjustMappingBase := true })
        (g := fun z => { z with allowedToAdjustMappingBase := true }) (fun _ => rfl) (fun _ => rfl)
      rw [Roles.mk.injEq]
      exact ⟨hm, rfl, rfl, rfl, rfl, rfl⟩
  · rfl

theorem ids_handOverClock (x : CoordinatorContext) :
    (s.handOverClock x).roles.members.map Role.id = s.roles.members.map Role.id := by
  unfold handOverClock
  split
  · split
    next y _ =>
      unfold roles modify
      rw [map_role_modifyAt (g := fun z => { z with clockMaster := true }) _ y.id (fun _ => rfl)]
      exact Keyed.map_modifyAt fun _ => rfl
    · rfl
  · rfl

theorem roles_deRegisterStream (h : Keyed.Distinct Role.id s.roles.members) (x : CoordinatorContext) :
    (s.deRegisterStream x).roles = s.roles.deRegister (role x) := by
  have h' : Keyed.Distinct Role.id (s.handOverClock x).roles.members := by
    unfold Keyed.Distinct
    rw [ids_handOverClock]
    exact h
  unfold deRegisterStream Roles.deRegister
  rw [roles_remove, roles_handOverAdjuster h', roles_handOverClock h]
  rfl

/-! ### Nothing else touches the roles -/

@[simp] theorem roles_rebaseContext (c : ℕ) (p t : UInt64) : (s.rebaseContext c p t).roles = s.roles :=
  roles_modify fun _ => rfl

@[simp] theorem roles_resetTimeMapping (c : Option ℕ) : (s.resetTimeMapping c).roles = s.roles := by
  unfold resetTimeMapping
  refine (roles_propagate ?_).trans ?_
  · intro x
    rfl
  · split
    · rfl
    · rfl

@[simp] theorem roles_establishTimeMapping (c : Option ℕ) (p t now : UInt64) :
    (s.establishTimeMapping c p t now).roles = s.roles := by
  unfold establishTimeMapping
  refine (roles_propagate ?_).trans rfl
  intro x
  rfl

@[simp] theorem roles_adjustMappingBase (c : Option ℕ) (external : Bool) (a : UInt64) :
    (s.adjustMappingBase c external a).roles = s.roles := by
  unfold adjustMappingBase
  split
  · rw [roles_modifyAll]
    · split
      · rfl
      · rfl
    · intro x
      split
      · rfl
      · rfl
  · rfl

@[simp] theorem roles_translatePlaybackTimeToSystem (c : Option ℕ) (t : UInt64) :
    (s.translatePlaybackTimeToSystem c t).1.roles = s.roles := by
  unfold translatePlaybackTimeToSystem
  split
  · cases c with
    | none =>
      dsimp only
      split
      · rfl
      · rfl
    | some c =>
      dsimp only
      split
      · split
        · split
          · rw [roles_rebaseContext]
            split
            · rfl
            · rfl
          · rfl
        · rfl
      · rfl
  · rfl

@[simp] theorem roles_noteOffset (offset : UInt64) : (s.noteOffset offset).roles = s.roles := by
  unfold noteOffset
  split
  · rfl
  · rfl

@[simp] theorem roles_takeAlternate (c : ℕ) (offset : UInt64) :
    (s.takeAlternate c offset).roles = s.roles := by
  unfold takeAlternate
  rw [roles_noteOffset]
  exact roles_modify fun _ => rfl

@[simp] theorem roles_beginStartupDelay (c : ℕ) (t : UInt64) :
    (s.beginStartupDelay c t).roles = s.roles :=
  roles_modify (s := s) fun _ => rfl

@[simp] theorem roles_synchronizeStreams (x : CoordinatorContext) (external : Bool) (t now : UInt64) :
    (s.synchronizeStreams x external t now).roles = s.roles := by
  unfold synchronizeStreams
  split
  · rfl
  · split
    · dsimp only
      split
      · simp only [roles_translatePlaybackTimeToSystem, roles_takeAlternate]
      · simp only [roles_beginStartupDelay, roles_translatePlaybackTimeToSystem]
    · exact roles_beginStartupDelay x.id t

@[simp] theorem roles_takeMapping (c : ℕ) (t : UInt64) : (s.takeMapping c t).roles = s.roles := by
  have hpick : ∀ offset, (s.pickUp c offset).roles = s.roles := fun _ => roles_modify fun _ => rfl
  have hleave : ∀ u : OutputCoordinator, ({ u.modify c ({ · with inSynchronizeFn := false }) with
      streamsInSynchronize := u.streamsInSynchronize - 1 } : OutputCoordinator).roles = u.roles :=
    fun u => roles_modify (s := u) fun _ => rfl
  have hjump : ∀ (u : OutputCoordinator) (offset : UInt64), (u.anticipateJump c offset).roles = u.roles :=
    fun u offset => roles_modify (s := u.anticipated offset) fun _ => rfl
  unfold takeMapping
  rw [hleave, roles_translatePlaybackTimeToSystem]
  split
  · rw [roles_noteOffset, hjump, hpick]
  · rw [roles_noteOffset, hpick]

@[simp] theorem roles_pass (r : Restart) (x : CoordinatorContext) : (s.pass r x).roles = s.roles := by
  unfold pass
  split
  · exact roles_takeMapping x.id x.normalizedPlaybackTime
  · split
    · split
      · exact roles_takeMapping x.id x.normalizedPlaybackTime
      · rfl
    · rfl

@[simp] theorem roles_joinSynchronize (x : CoordinatorContext) (immediate : Bool) (r : Restart) :
    (s.joinSynchronize x immediate r).roles = s.roles := by
  unfold joinSynchronize
  rw [roles_pass]
  exact roles_modify (s := s) fun _ => rfl

@[simp] theorem roles_endWait (x : CoordinatorContext) (r : Restart) :
    (s.endWait x r).roles = s.roles := by
  unfold endWait
  rw [roles_pass]
  exact roles_modify fun _ => rfl

theorem roles_handleJump (d : Deltas) (x : CoordinatorContext) :
    (s.handleJump d x).roles = s.roles := by
  unfold handleJump
  dsimp only
  split
  · rfl
  · split
    · split
      · exact roles_modify fun _ => rfl
      · exact roles_modify fun _ => rfl
    · split
      · exact roles_resetTimeMapping none
      · exact roles_modify (s := { s with
          accumulatedPlaybackTimeJumps := _
          masterBaseNormalizedPlaybackTime := _
          jumpSeenAtPlaybackTime := _ }) fun _ => rfl

theorem roles_resetIf (c : ℕ) (p : OutputCoordinator → CoordinatorContext → Bool) :
    (s.resetIf c p).roles = s.roles := by
  unfold resetIf
  split
  · exact roles_resetTimeMapping none
  · rfl

@[simp] theorem roles_handlePlaybackTimeDeltas (d : Deltas) (x : CoordinatorContext) :
    (s.handlePlaybackTimeDeltas d x).roles = s.roles := by
  unfold handlePlaybackTimeDeltas
  split
  · rw [roles_resetIf, roles_resetIf]
    split
    · exact roles_handleJump d x
    · rfl
  · rfl

end simulation

/-! ### What the roles are for -/

namespace Roles

/-- How the roles should be given out. -/
structure Appointed (policy : MasterClock) (r : Roles) : Prop where
  one_master : r.members.countP Role.clockMaster ≤ 1
  master : r.gotAMasterClock = true ∨ r.gotAnAlternateMasterClock = true →
    r.members.countP Role.clockMaster = 1
  not_both : ¬(r.gotAMasterClock = true ∧ r.gotAnAlternateMasterClock = true)
  alternate : ∀ a, r.alternateMasterContext = some a → ∃ x ∈ r.members, x.id = a
  right_type : (∃ x ∈ r.members, policy.possibleMaster x.streamType = true) →
    ∃ x ∈ r.members, x.clockMaster = true ∧ policy.possibleMaster x.streamType = true
  adjuster : (∃ x ∈ r.members, x.streamType = .video) →
    r.members.countP Role.allowedToAdjustMappingBase = 1
  adjuster_video : ∀ x ∈ r.members, x.allowedToAdjustMappingBase = true → x.streamType = .video
  count : r.streamCount = r.members.length

/-- What holds of the clock master in every run. -/
structure Clocked (policy : MasterClock) (r : Roles) : Prop where
  masters : r.members.countP Role.clockMaster =
    r.gotAMasterClock.toNat + r.gotAnAlternateMasterClock.toNat
  not_both : ¬(r.gotAMasterClock = true ∧ r.gotAnAlternateMasterClock = true)
  alternate : r.gotAnAlternateMasterClock = true → ∃ x ∈ r.members,
    r.alternateMasterContext = some x.id ∧ x.clockMaster = true ∧
      policy.possibleMaster x.streamType = false

/-- What holds of the adjuster in every run. -/
structure Adjusted (r : Roles) : Prop where
  adjusters : r.members.countP Role.allowedToAdjustMappingBase = r.gotAVideoStream.toNat
  adjuster_video : ∀ x ∈ r.members, x.allowedToAdjustMappingBase = true → x.streamType = .video
  video : ∀ x ∈ r.members, x.streamType = .video → r.gotAVideoStream = true

/-- What holds of the roles in every run. -/
structure Consistent (policy : MasterClock) (r : Roles) : Prop where
  distinct : Keyed.Distinct Role.id r.members
  clocked : r.Clocked policy
  adjusted : r.Adjusted
  count : r.streamCount = r.members.length

/-- Whenever a stream of the type named by the policy is there, the master is of that type. -/
def RightType (policy : MasterClock) (r : Roles) : Prop :=
  (∃ x ∈ r.members, policy.possibleMaster x.streamType = true) →
    ∃ x ∈ r.members, x.clockMaster = true ∧ policy.possibleMaster x.streamType = true

/-- The alternate master is there. -/
def AlternateHere (r : Roles) : Prop :=
  ∀ a, r.alternateMasterContext = some a → ∃ x ∈ r.members, x.id = a

variable {policy : MasterClock} {r : Roles}

theorem toNat_add_toNat {a b : Bool} (h : ¬(a = true ∧ b = true)) :
    a.toNat + b.toNat ≤ 1 ∧ (a = true ∨ b = true → a.toNat + b.toNat = 1) := by
  revert a b
  decide

theorem Consistent.appointed_iff (h : r.Consistent policy) :
    r.Appointed policy ↔ r.AlternateHere ∧ r.RightType policy := by
  have hm := h.clocked.masters
  have hb := toNat_add_toNat h.clocked.not_both
  constructor
  · intro ha
    exact ⟨ha.alternate, ha.right_type⟩
  · rintro ⟨ha, hr⟩
    refine ⟨hm ▸ hb.1, fun hg => hm ▸ hb.2 hg, h.clocked.not_both, ha, hr, ?_,
      h.adjusted.adjuster_video, h.count⟩
    rintro ⟨x, hx, hv⟩
    rw [h.adjusted.adjusters, h.adjusted.video x hx hv]
    rfl

/-! ### Changes of one flag -/

variable {r' : Roles}

theorem Adjusted.congr (h : r.Adjusted) (hv : r'.gotAVideoStream = r.gotAVideoStream)
    (hm : r'.members.map (fun x => (x.streamType, x.allowedToAdjustMappingBase)) =
      r.members.map fun x => (x.streamType, x.allowedToAdjustMappingBase)) : r'.Adjusted := by
  have hcount : ∀ l : List Role, l.countP Role.allowedToAdjustMappingBase =
      (l.map fun x => (x.streamType, x.allowedToAdjustMappingBase)).countP Prod.snd := by
    intro l
    rw [List.countP_map]
    rfl
  have hmem : ∀ x ∈ r'.members, ∃ y ∈ r.members,
      y.streamType = x.streamType ∧ y.allowedToAdjustMappingBase = x.allowedToAdjustMappingBase := by
    intro x hx
    have hx' := List.mem_map_of_mem (f := fun x : Role => (x.streamType, x.allowedToAdjustMappingBase)) hx
    rw [hm] at hx'
    obtain ⟨y, hy, e⟩ := List.mem_map.mp hx'
    exact ⟨y, hy, congrArg Prod.fst e, congrArg Prod.snd e⟩
  refine ⟨?_, ?_, ?_⟩
  · rw [hcount, hm, ← hcount, hv]
    exact h.adjusters
  · intro x hx ha
    obtain ⟨y, hy, ht, he⟩ := hmem x hx
    exact ht ▸ h.adjuster_video y hy (he.trans ha)
  · intro x hx ht
    obtain ⟨y, hy, hty, _⟩ := hmem x hx
    rw [hv]
    exact h.video y hy (hty.trans ht)

theorem Clocked.congr (h : r.Clocked policy)
    (hg : r'.gotAMasterClock = r.gotAMasterClock)
    (hb : r'.gotAnAlternateMasterClock = r.gotAnAlternateMasterClock)
    (ha : r'.alternateMasterContext = r.alternateMasterContext)
    (hm : r'.members.map (fun x => (x.id, x.streamType, x.clockMaster)) =
      r.members.map fun x => (x.id, x.streamType, x.clockMaster)) : r'.Clocked policy := by
  have hcount : ∀ l : List Role, l.countP Role.clockMaster =
      (l.map fun x => (x.id, x.streamType, x.clockMaster)).countP (·.2.2) := by
    intro l
    rw [List.countP_map]
    rfl
  refine ⟨?_, ?_, ?_⟩
  · rw [hcount, hm, ← hcount, hg, hb]
    exact h.masters
  · rw [hg, hb]
    exact h.not_both
  · rw [hb, ha]
    intro halt
    obtain ⟨x, hx, e, hc, ht⟩ := h.alternate halt
    have hx' := List.mem_map_of_mem (f := fun x : Role => (x.id, x.streamType, x.clockMaster)) hx
    rw [← hm] at hx'
    obtain ⟨y, hy, ey⟩ := List.mem_map.mp hx'
    obtain ⟨e1, e2, e3⟩ : y.id = x.id ∧ y.streamType = x.streamType ∧ y.clockMaster = x.clockMaster := by
      simpa only [Prod.mk.injEq] using ey
    exact ⟨y, hy, by rw [e, e1], e3.trans hc, by rw [e2, ht]⟩

/-! ### Registration -/

theorem Consistent.release (h : r.Consistent policy) (possibleMaster : Bool) :
    (r.release possibleMaster).Consistent policy := by
  unfold Roles.release
  split
  next hc =>
    obtain ⟨_, hg⟩ := Bool.and_eq_true_iff.mp hc
    obtain ⟨x, hx, ha, hm, _⟩ := h.clocked.alternate hg
    rw [ha]
    refine ⟨h.distinct.modifyAt fun _ => rfl, ⟨?_, ?_, ?_⟩,
      h.adjusted.congr rfl (Keyed.map_modifyAt fun _ => rfl), ?_⟩
    · have hcount := h.distinct.countP_modifyAt hx Role.clockMaster ({ · with clockMaster := false })
      have hmasters := h.clocked.masters
      rw [hm] at hcount
      rw [hg] at hmasters
      dsimp only [Bool.toNat_true, Bool.toNat_false] at hcount hmasters ⊢
      omega
    · rintro ⟨_, h'⟩
      exact Bool.noConfusion h'
    · intro h'
      exact Bool.noConfusion h'
    · rw [h.count]
      unfold Keyed.modifyAt
      rw [List.length_map]
  · exact h

theorem release_frame (r : Roles) (possibleMaster : Bool) :
    (r.release possibleMaster).gotAMasterClock = r.gotAMasterClock ∧
      (r.release possibleMaster).alternateMasterContext = r.alternateMasterContext ∧
      (r.release possibleMaster).members.map (fun x => (x.id, x.streamType)) =
        r.members.map (fun x => (x.id, x.streamType)) ∧
      (possibleMaster = true → (r.release possibleMaster).gotAnAlternateMasterClock = false) ∧
      (possibleMaster = false ∨ r.gotAnAlternateMasterClock = false →
        r.release possibleMaster = r) := by
  unfold Roles.release
  split
  next hc =>
    obtain ⟨hp, hg⟩ := Bool.and_eq_true_iff.mp hc
    split
    · refine ⟨rfl, rfl, rfl, fun _ => rfl, ?_⟩
      rintro (h | h)
      · rw [hp] at h
        exact Bool.noConfusion h
      · rw [hg] at h
        exact Bool.noConfusion h
    · refine ⟨rfl, rfl, Keyed.map_modifyAt fun _ => rfl, fun _ => rfl, ?_⟩
      rintro (h | h)
      · rw [hp] at h
        exact Bool.noConfusion h
      · rw [hg] at h
        exact Bool.noConfusion h
  next hc =>
    refine ⟨rfl, rfl, rfl, ?_, fun _ => rfl⟩
    intro hp
    rw [hp] at hc
    simpa using hc

theorem flags_enter {a b p q : Bool} (h : ¬(a = true ∧ b = true)) (hp : p = true → b = false) :
    let master := !a && p
    let alternate := !a && !p && !b && q
    (a.toNat + b.toNat + (master || alternate).toNat =
        (a || master).toNat + (b || alternate).toNat) ∧
      ¬((a || master) = true ∧ (b || alternate) = true) ∧
      (alternate = true → p = false ∧ b = false) ∧
      (master = true → p = true) := by
  revert a b p q
  decide

theorem Consistent.register (h : r.Consistent policy) {id : ℕ} (hid : id ∉ r.members.map Role.id)
    (t : StreamType) : (r.register policy id t).Consistent policy := by
  have hr := h.release (policy.possibleMaster t)
  obtain ⟨_, _, hids, hrel, _⟩ := r.release_frame (policy.possibleMaster t)
  have hid' : id ∉ (r.release (policy.possibleMaster t)).members.map Role.id := by
    have e := congrArg (List.map Prod.fst) hids
    simp only [List.map_map] at e
    exact (show (r.release (policy.possibleMaster t)).members.map Role.id = r.members.map Role.id from e)
      ▸ hid
  unfold Roles.register
  dsimp only
  generalize r.release (policy.possibleMaster t) = u at hr hrel hid'
  obtain ⟨f1, f2, f3, f4⟩ := flags_enter (q := policy != .systemClockMaster) hr.clocked.not_both hrel
  refine ⟨List.nodup_cons.mpr ⟨hid', hr.distinct⟩, ⟨?_, f2, ?_⟩, ⟨?_, ?_, ?_⟩, ?_⟩
  · change List.countP _ (_ :: _) = _
    rw [List.countP_cons, hr.clocked.masters]
    refine Eq.trans ?_ f1
    congr 1
    cases (!u.gotAMasterClock && policy.possibleMaster t || _) <;> rfl
  · intro hb
    unfold enter at hb ⊢
    rcases Bool.or_eq_true_iff.mp hb with hb | hb
    · have hn : (!u.gotAMasterClock && !policy.possibleMaster t && !u.gotAnAlternateMasterClock &&
          policy != .systemClockMaster) = false := by
        rw [hb]
        simp
      obtain ⟨x, hx, e, hc, ht⟩ := hr.clocked.alternate hb
      rw [hn]
      exact ⟨x, List.mem_cons_of_mem _ hx, e, hc, ht⟩
    · rw [hb]
      exact ⟨_, List.mem_cons_self, rfl, Bool.or_true _, (f3 hb).1⟩
  · change List.countP _ (_ :: _) = _
    rw [List.countP_cons, hr.adjusted.adjusters]
    unfold enter
    cases u.gotAVideoStream <;> cases (decide (t = .video)) <;> rfl
  · intro x hx ha
    rcases List.mem_cons.mp hx with rfl | hx
    · exact of_decide_eq_true (Bool.and_eq_true_iff.mp ha).2
    · exact hr.adjusted.adjuster_video x hx ha
  · intro x hx ht
    unfold enter
    rcases List.mem_cons.mp hx with rfl | hx
    · rw [show (decide (t = .video)) = true from decide_eq_true ht]
      cases u.gotAVideoStream <;> rfl
    · rw [hr.adjusted.video x hx ht]
      rfl
  · change _ = List.length (_ :: _)
    rw [List.length_cons, ← hr.count]
    rfl

theorem AlternateHere.register (h : r.AlternateHere) (id : ℕ) (t : StreamType) :
    (r.register policy id t).AlternateHere := by
  obtain ⟨_, hctx, hids, _, _⟩ := r.release_frame (policy.possibleMaster t)
  have hu : (r.release (policy.possibleMaster t)).AlternateHere := by
    intro a ha
    obtain ⟨x, hx, e⟩ := h a (hctx ▸ ha)
    have hx' := List.mem_map_of_mem (f := fun x : Role => (x.id, x.streamType)) hx
    rw [← hids] at hx'
    obtain ⟨y, hy, ey⟩ := List.mem_map.mp hx'
    exact ⟨y, hy, (congrArg Prod.fst ey).trans e⟩
  intro a ha
  unfold Roles.register enter at ha ⊢
  dsimp only at ha ⊢
  split at ha
  · exact ⟨_, List.mem_cons_self, Option.some.inj ha⟩
  · obtain ⟨x, hx, e⟩ := hu a ha
    exact ⟨x, List.mem_cons_of_mem _ hx, e⟩

theorem rightType_register (h : r.Consistent policy) (hr : r.RightType policy) (id : ℕ)
    (t : StreamType) :
    (r.register policy id t).RightType policy ↔
      (policy.possibleMaster t = true → r.gotAMasterClock = true →
        ∃ x ∈ r.members, x.clockMaster = true ∧ policy.possibleMaster x.streamType = true) := by
  obtain ⟨hg, _, _, _, hsame⟩ := r.release_frame (policy.possibleMaster t)
  unfold Roles.register RightType enter
  dsimp only
  rw [hg]
  by_cases hp : policy.possibleMaster t = true
  · by_cases hm : r.gotAMasterClock = true
    · -- the master stays as it is
      have hb : r.gotAnAlternateMasterClock = false := by
        have := h.clocked.not_both
        rw [hm] at this
        simpa using this
      rw [hsame (Or.inr hb), hp, hm]
      simp only [Bool.not_true, Bool.false_and, Bool.or_self, true_imp_iff]
      constructor
      · intro hright
        obtain ⟨x, hx, hc, ht⟩ := hright ⟨_, List.mem_cons_self, hp⟩
        rcases List.mem_cons.mp hx with rfl | hx
        · exact Bool.noConfusion hc
        · exact ⟨x, hx, hc, ht⟩
      · rintro ⟨x, hx, hc, ht⟩ _
        exact ⟨x, List.mem_cons_of_mem _ hx, hc, ht⟩
    · refine iff_of_true ?_ fun _ h' => absurd h' hm
      intro _
      refine ⟨_, List.mem_cons_self, ?_, hp⟩
      simp only [hp, Bool.eq_false_iff.mpr hm, Bool.not_false, Bool.and_self, Bool.true_or]
  · have hp' : policy.possibleMaster t = false := Bool.eq_false_iff.mpr hp
    refine iff_of_true ?_ fun h' => absurd h' hp
    rw [hsame (Or.inl hp')]
    rintro ⟨x, hx, ht⟩
    rcases List.mem_cons.mp hx with rfl | hx
    · exact absurd ht hp
    · obtain ⟨y, hy, hc, hty⟩ := hr ⟨x, hx, ht⟩
      exact ⟨y, List.mem_cons_of_mem _ hy, hc, hty⟩

/-! ### De-registration -/

variable {x : Role}

theorem mem_leave (h : r.Consistent policy) {y : Role} {c : ℕ} :
    y ∈ (r.leave c).members ↔ y ∈ r.members ∧ y.id ≠ c :=
  h.distinct.mem_eraseP

variable {t : StreamType}

theorem firstOf_some {y : Role} (h : r.firstOf t = some y) :
    y ∈ r.members ∧ y.streamType = t :=
  ⟨List.mem_of_find?_eq_some h,
    of_decide_eq_true (List.find?_some (p := fun x : Role => decide (x.streamType = t)) h)⟩

theorem firstOf_none (h : r.firstOf t = none) : ∀ y ∈ r.members, y.streamType ≠ t := by
  intro y hy ht
  exact absurd (decide_eq_true ht) (List.find?_eq_none.mp h y hy)

theorem Consistent.promoteClock (h : r.Consistent policy) (hx : x ∈ r.members) :
    ((r.leave x.id).promoteClock x).Clocked policy := by
  have hcount : (r.leave x.id).members.countP Role.clockMaster + x.clockMaster.toNat =
      r.members.countP Role.clockMaster := h.distinct.countP_eraseP hx Role.clockMaster
  rw [h.clocked.masters] at hcount
  have hflags := toNat_add_toNat h.clocked.not_both
  unfold Roles.promoteClock
  split
  next hm =>
    rw [hm, Bool.toNat_true] at hcount
    have hnone : (r.leave x.id).members.countP Role.clockMaster = 0 := by omega
    split
    next y hy =>
      obtain ⟨hmem, _⟩ := firstOf_some hy
      have hym : y.clockMaster = false := by
        have := List.countP_eq_zero.mp hnone y hmem
        simpa using this
      refine ⟨?_, ?_, fun h' => Bool.noConfusion h'⟩
      · have hone := (h.distinct.eraseP (p := fun z => z.id == x.id)).countP_modifyAt hmem
          Role.clockMaster ({ · with clockMaster := true })
        rw [hym] at hone
        change List.countP _ _ + 0 = List.countP Role.clockMaster (r.leave x.id).members + 1 at hone
        rw [hnone] at hone
        exact hone
      · rintro ⟨_, h'⟩
        exact Bool.noConfusion h'
    · refine ⟨hnone, ?_, fun h' => Bool.noConfusion h'⟩
      rintro ⟨_, h'⟩
      exact Bool.noConfusion h'
  next hm =>
    have hm' : x.clockMaster = false := Bool.eq_false_iff.mpr hm
    rw [hm', Bool.toNat_false, Nat.add_zero] at hcount
    refine ⟨hcount, h.clocked.not_both, ?_⟩
    intro ha
    obtain ⟨y, hy, e, hc, ht⟩ := h.clocked.alternate ha
    refine ⟨y, (mem_leave h).mpr ⟨hy, ?_⟩, e, hc, ht⟩
    intro hid
    have := h.distinct.eq hy hx hid
    exact hm (this ▸ hc)

theorem promoteClock_frame (r : Roles) (x : Role) :
    (r.promoteClock x).members.map (fun y => (y.id, y.streamType, y.allowedToAdjustMappingBase)) =
        r.members.map (fun y => (y.id, y.streamType, y.allowedToAdjustMappingBase)) ∧
      (r.promoteClock x).gotAVideoStream = r.gotAVideoStream ∧
      (r.promoteClock x).streamCount = r.streamCount := by
  unfold Roles.promoteClock
  split
  · split
    · exact ⟨Keyed.map_modifyAt fun _ => rfl, rfl, rfl⟩
    · exact ⟨rfl, rfl, rfl⟩
  · exact ⟨rfl, rfl, rfl⟩

theorem promoteAdjuster_frame (r : Roles) (x : Role) :
    (r.promoteAdjuster x).members.map (fun y => (y.id, y.streamType, y.clockMaster)) =
        r.members.map (fun y => (y.id, y.streamType, y.clockMaster)) ∧
      (r.promoteAdjuster x).gotAMasterClock = r.gotAMasterClock ∧
      (r.promoteAdjuster x).gotAnAlternateMasterClock = r.gotAnAlternateMasterClock ∧
      (r.promoteAdjuster x).alternateMasterContext = r.alternateMasterContext ∧
      (r.promoteAdjuster x).streamCount = r.streamCount := by
  unfold Roles.promoteAdjuster
  split
  · split
    · exact ⟨Keyed.map_modifyAt fun _ => rfl, rfl, rfl, rfl, rfl⟩
    · exact ⟨rfl, rfl, rfl, rfl, rfl⟩
  · exact ⟨rfl, rfl, rfl, rfl, rfl⟩

theorem adjusted_promoteAdjuster {u : Roles} (hd : Keyed.Distinct Role.id u.members)
    (hcount : u.members.countP Role.allowedToAdjustMappingBase + x.allowedToAdjustMappingBase.toNat =
      u.gotAVideoStream.toNat)
    (hav : ∀ y ∈ u.members, y.allowedToAdjustMappingBase = true → y.streamType = .video)
    (hv : ∀ y ∈ u.members, y.streamType = .video → u.gotAVideoStream = true) :
    (u.promoteAdjuster x).Adjusted := by
  unfold Roles.promoteAdjuster
  split
  next hm =>
    rw [hm, Bool.toNat_true] at hcount
    have hnone : u.members.countP Role.allowedToAdjustMappingBase = 0 := by
      have := Bool.toNat_le u.gotAVideoStream
      omega
    split
    next y hy =>
      obtain ⟨hmem, hyv⟩ := firstOf_some hy
      have hym : y.allowedToAdjustMappingBase = false := by
        have := List.countP_eq_zero.mp hnone y hmem
        simpa using this
      refine ⟨?_, ?_, fun _ _ _ => rfl⟩
      · have hone := hd.countP_modifyAt hmem Role.allowedToAdjustMappingBase
          ({ · with allowedToAdjustMappingBase := true })
        rw [hym, hnone] at hone
        exact hone
      · intro z hz ha
        obtain ⟨w, hw, e⟩ := Keyed.mem_modifyAt.mp hz
        by_cases hwy : w.id = y.id
        · rw [if_pos hwy] at e
          rw [← e]
          exact hd.eq hw hmem hwy ▸ hyv
        · rw [if_neg hwy] at e
          exact hav z (e ▸ hw) ha
    next hn =>
      exact ⟨hnone, hav, fun y hy ht => absurd ht (firstOf_none hn y hy)⟩
  next hm =>
    have hm' : x.allowedToAdjustMappingBase = false := Bool.eq_false_iff.mpr hm
    rw [hm', Bool.toNat_false, Nat.add_zero] at hcount
    exact ⟨hcount, hav, hv⟩

theorem Consistent.deRegister (h : r.Consistent policy) (hx : x ∈ r.members) :
    (r.deRegister x).Consistent policy := by
  obtain ⟨hm, hv, hc⟩ := (r.leave x.id).promoteClock_frame x
  have hclock := h.promoteClock hx
  unfold Roles.deRegister
  generalize (r.leave x.id).promoteClock x = u at hm hv hc hclock
  obtain ⟨hm', e1, e2, e3, hc'⟩ := u.promoteAdjuster_frame x
  have hids : u.members.map Role.id = (r.leave x.id).members.map Role.id := by
    have e := congrArg (List.map Prod.fst) hm
    simp only [List.map_map] at e
    exact e
  have hids' : (u.promoteAdjuster x).members.map Role.id = u.members.map Role.id := by
    have e := congrArg (List.map Prod.fst) hm'
    simp only [List.map_map] at e
    exact e
  have hd : Keyed.Distinct Role.id u.members := by
    unfold Keyed.Distinct
    rw [hids]
    exact h.distinct.eraseP
  have hsame : ∀ y ∈ u.members, ∃ z ∈ r.members, z.streamType = y.streamType ∧
      z.allowedToAdjustMappingBase = y.allowedToAdjustMappingBase := by
    intro y hy
    have hy' := List.mem_map_of_mem
      (f := fun y : Role => (y.id, y.streamType, y.allowedToAdjustMappingBase)) hy
    rw [hm] at hy'
    obtain ⟨z, hz, e⟩ := List.mem_map.mp hy'
    exact ⟨z, ((mem_leave h).mp hz).1, congrArg (·.2.1) e, congrArg (·.2.2) e⟩
  refine ⟨?_, hclock.congr e1 e2 e3 hm', adjusted_promoteAdjuster hd ?_ ?_ ?_, ?_⟩
  · unfold Keyed.Distinct
    rw [hids']
    exact hd
  · have hcount : (r.leave x.id).members.countP Role.allowedToAdjustMappingBase +
        x.allowedToAdjustMappingBase.toNat = r.members.countP Role.allowedToAdjustMappingBase :=
      h.distinct.countP_eraseP hx Role.allowedToAdjustMappingBase
    have hproj : ∀ l : List Role, l.countP Role.allowedToAdjustMappingBase =
        (l.map fun y => (y.id, y.streamType, y.allowedToAdjustMappingBase)).countP (·.2.2) := by
      intro l
      rw [List.countP_map]
      rfl
    rw [hproj, hm, ← hproj, hcount, hv]
    exact h.adjusted.adjusters
  · intro y hy ha
    obtain ⟨z, hz, ht, ha'⟩ := hsame y hy
    exact ht ▸ h.adjusted.adjuster_video z hz (ha'.trans ha)
  · intro y hy ht
    obtain ⟨z, hz, ht', _⟩ := hsame y hy
    rw [hv]
    exact h.adjusted.video z hz (ht'.trans ht)
  · have hl : (u.promoteAdjuster x).members.length = (r.leave x.id).members.length := by
      have e := congrArg List.length (hids'.trans hids)
      simpa only [List.length_map] using e
    have hleave : (r.leave x.id).members.length = r.members.length - 1 :=
      List.length_eraseP_of_mem hx (by simp)
    rw [hc', hc, hl, hleave, ← h.count]
    rfl

theorem alternateHere_deRegister (h : r.Consistent policy) (ha : r.AlternateHere) :
    (r.deRegister x).AlternateHere ↔
      ¬(r.alternateMasterContext = some x.id ∧ x.clockMaster = false) := by
  obtain ⟨hm, _, _⟩ := (r.leave x.id).promoteClock_frame x
  obtain ⟨hm', _, _, e3, _⟩ := ((r.leave x.id).promoteClock x).promoteAdjuster_frame x
  have hids : ∀ a, (∃ y ∈ (r.deRegister x).members, y.id = a) ↔ ∃ y ∈ (r.leave x.id).members, y.id = a := by
    intro a
    have e1 := congrArg (List.map Prod.fst) hm
    have e2 := congrArg (List.map Prod.fst) hm'
    simp only [List.map_map] at e1 e2
    have e : (r.deRegister x).members.map Role.id = (r.leave x.id).members.map Role.id := e2.trans e1
    rw [← List.mem_map, e, List.mem_map]
  have hctx : (r.deRegister x).alternateMasterContext =
      ((r.leave x.id).promoteClock x).alternateMasterContext := e3
  unfold AlternateHere
  rw [hctx]
  unfold Roles.promoteClock
  split
  next hc =>
    refine iff_of_true ?_ ?_
    · intro a
      split
      · intro h'
        cases h'
      · intro h'
        cases h'
    · rintro ⟨_, h'⟩
      rw [hc] at h'
      exact Bool.noConfusion h'
  next hc =>
    have hc' : x.clockMaster = false := Bool.eq_false_iff.mpr hc
    constructor
    · rintro hall ⟨hx', _⟩
      obtain ⟨y, hy, e⟩ := (hids x.id).mp (hall x.id hx')
      exact ((mem_leave h).mp hy).2 e
    · intro hne a hctx'
      obtain ⟨y, hy, e⟩ := ha a hctx'
      refine (hids a).mpr ⟨y, (mem_leave h).mpr ⟨hy, ?_⟩, e⟩
      intro hid
      exact hne ⟨by rw [← hid, e]; exact hctx', hc'⟩

/-- The master is of the right type after a stream has gone. -/
theorem RightType.deRegister (h : r.Consistent policy) (hr : r.RightType policy) (hx : x ∈ r.members) :
    (r.deRegister x).RightType policy := by
  obtain ⟨hm', _, _, _, _⟩ := ((r.leave x.id).promoteClock x).promoteAdjuster_frame x
  have hproj : ∀ y ∈ ((r.leave x.id).promoteClock x).members, ∃ z ∈ (r.deRegister x).members,
      z.streamType = y.streamType ∧ z.clockMaster = y.clockMaster := by
    intro y hy
    have hy' := List.mem_map_of_mem (f := fun y : Role => (y.id, y.streamType, y.clockMaster)) hy
    rw [← hm'] at hy'
    obtain ⟨z, hz, e⟩ := List.mem_map.mp hy'
    exact ⟨z, hz, congrArg (·.2.1) e, congrArg (·.2.2) e⟩
  obtain ⟨hm, _, _⟩ := (r.leave x.id).promoteClock_frame x
  rintro ⟨y, hy, ht⟩
  -- the stream of the right type was there before
  have hy' := List.mem_map_of_mem (f := fun y : Role => (y.id, y.streamType, y.clockMaster)) hy
  rw [show (r.deRegister x).members.map _ = _ from hm'] at hy'
  obtain ⟨y1, hy1, e1⟩ := List.mem_map.mp hy'
  have hy1' := List.mem_map_of_mem
    (f := fun y : Role => (y.id, y.streamType, y.allowedToAdjustMappingBase)) hy1
  rw [hm] at hy1'
  obtain ⟨y2, hy2, e2⟩ := List.mem_map.mp hy1'
  have hty : y2.streamType = y.streamType := (congrArg (·.2.1) e2).trans (congrArg (·.2.1) e1)
  obtain ⟨m, hmem, hmc, hmt⟩ := hr ⟨y2, ((mem_leave h).mp hy2).1, hty ▸ ht⟩
  suffices hs : ∃ z ∈ ((r.leave x.id).promoteClock x).members,
      z.clockMaster = true ∧ policy.possibleMaster z.streamType = true by
    obtain ⟨z, hz, hc, hzt⟩ := hs
    obtain ⟨w, hw, hwt, hwc⟩ := hproj z hz
    exact ⟨w, hw, hwc.trans hc, hwt ▸ hzt⟩
  unfold Roles.promoteClock
  split
  next hc =>
    -- the master goes, and the other stream is of its type
    have hone : r.members.countP Role.clockMaster ≤ 1 :=
      h.clocked.masters ▸ (toNat_add_toNat h.clocked.not_both).1
    have hmx : m = x := Keyed.eq_of_countP_le_one hone hmem hx hmc hc
    have htype : y2.streamType = x.streamType := by
      have h1 : policy.possibleMaster y2.streamType = true := hty ▸ ht
      have h2 : policy.possibleMaster x.streamType = true := hmx ▸ hmt
      cases policy with
      | videoClockMaster => exact (of_decide_eq_true h1).trans (of_decide_eq_true h2).symm
      | audioClockMaster => exact (of_decide_eq_true h1).trans (of_decide_eq_true h2).symm
      | systemClockMaster => exact Bool.noConfusion h1
    split
    next z hz =>
      obtain ⟨hzm, hzt⟩ := firstOf_some hz
      refine ⟨_, Keyed.mem_modifyAt.mpr ⟨z, hzm, rfl⟩, ?_, ?_⟩
      · rw [if_pos rfl]
      · rw [if_pos rfl]
        exact hzt.symm ▸ hmx ▸ hmt
    next hn => exact absurd htype (firstOf_none hn y2 hy2)
  next hc =>
    refine ⟨m, (mem_leave h).mpr ⟨hmem, ?_⟩, hmc, hmt⟩
    intro hid
    exact hc (h.distinct.eq hmem hx hid ▸ hmc)

end Roles

/-! ### Runs -/

open Lts

/-- The state a step is taken from gives out the roles as it should: a stream of the type that the policy
names finds no master of another type, and a context that is not the master is not remembered as the
alternate one when it goes. -/
def RolesMeant (policy : MasterClock) (s : OutputCoordinator) : Label → Prop
  | .registerStream r =>
    r.obtained = true → policy.possibleMaster r.streamType = true → s.gotAMasterClock = true →
      ∃ x ∈ s.roles.members, x.clockMaster = true ∧ policy.possibleMaster x.streamType = true
  | .deRegisterStream c =>
    ¬(s.alternateMasterContext = some c ∧ ∃ x ∈ s.roles.members, x.id = c ∧ x.clockMaster = false)
  | _ => True

instance (policy : MasterClock) (s : OutputCoordinator) (a : Label) :
    Decidable (RolesMeant policy s a) :=
  match a with
  | .registerStream r => inferInstanceAs (Decidable (r.obtained = true → _))
  | .deRegisterStream _ => inferInstanceAs (Decidable (¬_))
  | .resetTimeMapping _ | .establishTimeMapping .. | .adjustMappingBase ..
  | .handlePlaybackTimeDeltas .. | .synchronizeStreams .. | .joinSynchronize ..
  | .endWait .. => isTrue trivial

variable {policy : MasterClock} {s s' : OutputCoordinator} {a : Label}

theorem context_some {c : ℕ} {x : CoordinatorContext} (h : s.context c = some x) :
    x ∈ s.coordinatedContexts ∧ x.id = c :=
  Keyed.find?_some h

theorem roles_step (h : step policy s a = some s') :
    (∃ r, a = .registerStream r ∧ r.id ∉ s.roles.members.map Role.id ∧ s' = s.registerStream policy r) ∨
    (∃ c x, a = .deRegisterStream c ∧ x ∈ s.coordinatedContexts ∧ x.id = c ∧
      s' = s.deRegisterStream x) ∨
    (s'.roles = s.roles ∧ RolesMeant policy s a) := by
  cases a with
  | registerStream r =>
    dsimp only [step] at h
    split at h
    · cases h
    next hid =>
      refine Or.inl ⟨r, rfl, ?_, (Option.some.inj h).symm⟩
      unfold roles
      rw [List.map_map]
      exact hid
  | deRegisterStream c =>
    obtain ⟨x, hx, h⟩ := Option.bind_eq_some_iff.mp h
    obtain ⟨hm, hid⟩ := context_some hx
    split at h
    · cases h
    · exact Or.inr (Or.inl ⟨c, x, rfl, hm, hid, (Option.some.inj h).symm⟩)
  | resetTimeMapping c =>
    exact Or.inr (Or.inr ⟨Option.some.inj h ▸ roles_resetTimeMapping c, trivial⟩)
  | establishTimeMapping c p t now =>
    exact Or.inr (Or.inr ⟨Option.some.inj h ▸ roles_establishTimeMapping c p t now, trivial⟩)
  | adjustMappingBase c e d =>
    exact Or.inr (Or.inr ⟨Option.some.inj h ▸ roles_adjustMappingBase c e d, trivial⟩)
  | handlePlaybackTimeDeltas c d =>
    obtain ⟨x, _, h⟩ := Option.map_eq_some_iff.mp h
    exact Or.inr (Or.inr ⟨h ▸ roles_handlePlaybackTimeDeltas d x, trivial⟩)
  | synchronizeStreams c e t now =>
    obtain ⟨x, _, h⟩ := Option.bind_eq_some_iff.mp h
    split at h
    · cases h
    · exact Or.inr (Or.inr ⟨Option.some.inj h ▸ roles_synchronizeStreams x e t now, trivial⟩)
  | joinSynchronize c i r =>
    obtain ⟨x, _, h⟩ := Option.bind_eq_some_iff.mp h
    split at h
    · exact Or.inr (Or.inr ⟨Option.some.inj h ▸ roles_joinSynchronize x i r, trivial⟩)
    · cases h
  | endWait c r =>
    obtain ⟨x, _, h⟩ := Option.bind_eq_some_iff.mp h
    split at h
    · exact Or.inr (Or.inr ⟨Option.some.inj h ▸ roles_endWait x r, trivial⟩)
    · cases h

theorem consistent_step (hs : s.roles.Consistent policy) (h : step policy s a = some s') :
    s'.roles.Consistent policy := by
  obtain ⟨r, _, hid, rfl⟩ | ⟨c, x, _, hx, _, rfl⟩ | ⟨e, _⟩ := roles_step h
  · by_cases ho : r.obtained = true
    · rw [roles_registerStream policy r ho]
      exact hs.register hid r.streamType
    · unfold registerStream
      rw [if_neg ho]
      exact hs
  · rw [roles_deRegisterStream hs.distinct]
    exact hs.deRegister (List.mem_map_of_mem hx)
  · exact e ▸ hs

theorem appointed_step_iff (hs : s.roles.Consistent policy) (hi : s.roles.Appointed policy)
    (h : step policy s a = some s') : s'.roles.Appointed policy ↔ RolesMeant policy s a := by
  rw [(consistent_step hs h).appointed_iff]
  obtain ⟨halt, hright⟩ := hs.appointed_iff.mp hi
  obtain ⟨r, rfl, _, rfl⟩ | ⟨c, x, rfl, hx, rfl, rfl⟩ | ⟨e, hm⟩ := roles_step h
  · by_cases ho : r.obtained = true
    · rw [roles_registerStream policy r ho, Roles.rightType_register hs hright r.id r.streamType]
      constructor
      · rintro ⟨_, hp⟩ _
        exact hp
      · intro hp
        exact ⟨halt.register r.id r.streamType, hp ho⟩
    · unfold registerStream
      rw [if_neg ho]
      exact iff_of_true ⟨halt, hright⟩ fun h' => absurd h' ho
  · have hmem : role x ∈ s.roles.members := List.mem_map_of_mem hx
    rw [roles_deRegisterStream hs.distinct, Roles.alternateHere_deRegister hs halt]
    constructor
    · rintro ⟨hne, _⟩ ⟨hctx, y, hy, hid, hc⟩
      exact hne ⟨hctx, hs.distinct.eq hy hmem hid ▸ hc⟩
    · intro hne
      refine ⟨?_, hright.deRegister hs hmem⟩
      rintro ⟨hctx, hc⟩
      exact hne ⟨hctx, role x, hmem, rfl, hc⟩
  · rw [e]
    exact iff_of_true ⟨halt, hright⟩ hm

theorem consistent_start (speed : Rational) (playBackward : Bool) (adjustment : Rational) :
    (start speed playBackward adjustment).roles.Consistent policy where
  distinct := List.nodup_nil
  clocked := ⟨rfl, fun h => Bool.noConfusion h.1, fun h => Bool.noConfusion h⟩
  adjusted := ⟨rfl, fun _ h => absurd h List.not_mem_nil, fun _ h => absurd h List.not_mem_nil⟩
  count := rfl

theorem appointed_start (speed : Rational) (playBackward : Bool) (adjustment : Rational) :
    (start speed playBackward adjustment).roles.Appointed policy := by
  rw [(consistent_start speed playBackward adjustment).appointed_iff]
  refine ⟨?_, fun ⟨_, h, _⟩ => absurd h List.not_mem_nil⟩
  intro a h
  cases h

/-- **The clock master and the adjuster.**  In a run that starts without streams the roles are given out
as they should be throughout exactly when every registration and every de-registration is meant. -/
theorem throughout_appointed_iff {policy : MasterClock} {speed adjustment : Rational}
    {playBackward : Bool} {labels : List Label} {s' : OutputCoordinator}
    (h : run (step policy) (start speed playBackward adjustment) labels = some s') :
    Throughout (step policy) (fun s => s.roles.Appointed policy) (start speed playBackward adjustment)
      labels ↔
    Along (step policy) (RolesMeant policy) (start speed playBackward adjustment) labels :=
  throughout_iff_along_of_run (fun _ _ _ => consistent_step) (fun _ _ _ => appointed_step_iff)
    (consistent_start speed playBackward adjustment) (appointed_start speed playBackward adjustment) h

/-- An alternate master gives way to a real one, which is handed over to another stream of its type. -/
theorem throughout_appointed_iff_handOver :
    let labels := [.registerStream ⟨0, .audio, true, false⟩, .registerStream ⟨1, .video, true, false⟩,
      .registerStream ⟨2, .video, true, false⟩, .deRegisterStream 1]
    let s := start ⟨false, 1, 1⟩ false ⟨false, 1, 1⟩
    Throughout (step .videoClockMaster) (fun s => s.roles.Appointed .videoClockMaster) s labels := by
  intro labels s
  have hend : (run (step .videoClockMaster) s labels).isSome = true := by decide +kernel
  obtain ⟨s', hs⟩ := Option.isSome_iff_exists.mp hend
  exact (throughout_appointed_iff hs).mpr (by decide +kernel)

/-- The alternate master is de-registered and another audio stream takes its place as a real master: the
video stream that comes then is not the master. -/
theorem registerStream_notMaster :
    let labels := [.registerStream ⟨0, .audio, true, false⟩, .registerStream ⟨1, .audio, true, false⟩,
      .deRegisterStream 0, .registerStream ⟨2, .video, true, false⟩]
    ∃ s, run (step .videoClockMaster) (start ⟨false, 1, 1⟩ false ⟨false, 1, 1⟩) labels = some s ∧
      s.roles.members = [⟨2, .video, false, true⟩, ⟨1, .audio, true, false⟩] ∧
      ¬s.roles.Appointed .videoClockMaster := by
  refine ⟨_, rfl, rfl, ?_⟩
  intro h
  obtain ⟨x, hx, hc, ht⟩ := h.right_type ⟨⟨2, .video, false, true⟩, List.mem_cons_self, rfl⟩
  revert x
  decide +kernel

end Player2.OutputCoordinator

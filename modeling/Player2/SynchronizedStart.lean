import Player2.CoordinatorAffine
import Player2.RestartTime

/-! # A synchronized start

When the streams have come together in `SynchronizeStreams`, one of them sets up the master mapping: the
earliest playback time, or the earliest of a video stream under `PolicyVideoStartImmediate`, goes with the
result of `RestartTime`, put off by a jitter that brings the first video frame to a frame point.  Each stream
then leaves in a pass of its own, in any order.  One that is within `MAX_SYNCHRONIZATION_WINDOW` of the
mapping translates its first frame by it; one that is farther away is taken to have jumped, and its first
frame goes with the base itself. -/

namespace Player2.OutputCoordinator

open Lts

variable {u w : OutputCoordinator} {x y e : CoordinatorContext} {c : ℕ} {t : UInt64}

/-! ### Leaving -/

/-- The state in which a stream that leaves translates its first frame. -/
def leaving (w : OutputCoordinator) (c : ℕ) (t : UInt64) : OutputCoordinator :=
  if w.impossible t then ((w.pickUp c 0).anticipateJump c (w.offsetOf t)).noteOffset 0
  else (w.pickUp c (w.offsetOf t)).noteOffset (w.offsetOf t)

/-- The system time that `SynchronizeStreams` returns for the first frame. -/
def firstFrame (w : OutputCoordinator) (c : ℕ) (t : UInt64) : Option UInt64 :=
  ((w.leaving c t).translatePlaybackTimeToSystem (some c) t).2

/-- Normal play: speed one, forward, and an adjustment of one. -/
def Normal (w : OutputCoordinator) : Prop := w.play = (Rational.ofInt 1, Rational.ofInt 1, false)

variable {a b base : UInt64}

theorem Normal.elapsedSystemTime (h : w.Normal) (hlow : -2 ^ 31 ≤ signed t) (hhigh : signed t < 2 ^ 31) :
    w.elapsedSystemTime t = t := by
  have hplay : normalPlay.play = (Rational.ofInt 1, Rational.ofInt 1, false) := rfl
  rw [elapsedSystemTime_of_play (h.trans hplay.symm)]
  apply signed_inj
  have hadjustment := value_normalPlay.2
  have hspan : normalPlay.span t = signed t := one_mul _
  have hfits : normalPlay.Fits t := (fits_one_iff fairClock_normalPlay rfl).mpr (hspan.symm ▸ ⟨hlow, hhigh⟩)
  have hscaled : normalPlay.scaledTime t = signed t := hspan
  rw [signed_elapsedSystemTime fairClock_normalPlay hfits, systemTime, hscaled, hadjustment, div_one]
  exact Rounding.nearest_intCast _

/-- What a stream that leaves does to the contexts: its own is out of `SynchronizeStreams`, with the version
of the master; the others are as they were. -/
structure Left (w : OutputCoordinator) (c : ℕ) (w' : OutputCoordinator) : Prop where
  established : w'.masterTimeMappingEstablished = w.masterTimeMappingEstablished
  version : w'.masterTimeMappingVersion = w.masterTimeMappingVersion
  contexts : ∃ g : CoordinatorContext → CoordinatorContext,
    (∀ x, (g x).id = x.id ∧ (g x).inSynchronizeFn = false ∧
      (g x).basedOnMasterMappingVersion = w.masterTimeMappingVersion) ∧
    w'.coordinatedContexts = Keyed.modifyAt CoordinatorContext.id w.coordinatedContexts c g

theorem translate_taken (hest : w.masterTimeMappingEstablished = true) (hx : w.context c = some x)
    (hmapped : x.timeMappingEstablished = true) (hsys : x.baseSystemTime = w.masterBaseSystemTime)
    (t : UInt64) :
    w.translatePlaybackTimeToSystem (some c) t =
      (if w.rebases x.baseNormalizedPlaybackTime t then
          (w.rebaseMaster t (w.masterBaseSystemTime +
            w.elapsedSystemTime (t - x.baseNormalizedPlaybackTime))).rebaseContext c t
            (w.masterBaseSystemTime + w.elapsedSystemTime (t - x.baseNormalizedPlaybackTime))
        else w,
        some (w.masterBaseSystemTime + w.elapsedSystemTime (t - x.baseNormalizedPlaybackTime))) := by
  unfold translatePlaybackTimeToSystem
  rw [if_pos hest]
  dsimp only
  rw [hx]
  dsimp only
  rw [if_pos hmapped, hsys, if_pos rfl]

/-- The state in which a stream translates its first frame from a base: it has taken the mapping. -/
structure Taken (w : OutputCoordinator) (c : ℕ) (base : UInt64) (v : OutputCoordinator) : Prop where
  established : v.masterTimeMappingEstablished = w.masterTimeMappingEstablished
  version : v.masterTimeMappingVersion = w.masterTimeMappingVersion
  masterBaseSystemTime : v.masterBaseSystemTime = w.masterBaseSystemTime
  play : v.play = w.play
  line : v.line = w.line
  context : ∃ x, v.context c = some x ∧ x.timeMappingEstablished = true ∧
    x.baseSystemTime = w.masterBaseSystemTime ∧ x.baseNormalizedPlaybackTime = base
  contexts : ∃ g : CoordinatorContext → CoordinatorContext,
    (∀ x, (g x).id = x.id ∧ (g x).basedOnMasterMappingVersion = w.masterTimeMappingVersion) ∧
    v.coordinatedContexts = Keyed.modifyAt CoordinatorContext.id w.coordinatedContexts c g

theorem taken_close (hx : w.context c = some x) (h : w.impossible t = false) :
    Taken w c w.line (w.leaving c t) ∧
      (w.leaving c t).accumulatedPlaybackTimeJumps = w.accumulatedPlaybackTimeJumps := by
  unfold leaving
  rw [h, if_neg Bool.false_ne_true]
  obtain ⟨m, e⟩ := noteOffset_eq (w.pickUp c (w.offsetOf t)) (w.offsetOf t)
  rw [e]
  refine ⟨⟨rfl, rfl, rfl, rfl, rfl, ?_, ?_⟩, rfl⟩
  · have hcontext : (w.pickUp c (w.offsetOf t)).context c = some (w.withMaster (w.offsetOf t) x) :=
      context_modify (fun _ => rfl) hx
    exact ⟨_, hcontext, rfl, rfl, rfl⟩
  · exact ⟨w.withMaster (w.offsetOf t), fun _ => ⟨rfl, rfl⟩, rfl⟩

theorem taken_far (hx : w.context c = some x) (h : w.impossible t = true) :
    Taken w c t (w.leaving c t) := by
  unfold leaving
  rw [if_pos h]
  obtain ⟨m, e⟩ := noteOffset_eq ((w.pickUp c 0).anticipateJump c (w.offsetOf t)) 0
  rw [e]
  have hcontext : (w.pickUp c 0).context c = some (w.withMaster 0 x) := context_modify (fun _ => rfl) hx
  refine ⟨rfl, rfl, rfl, rfl, ?_, ?_, ?_⟩
  · show w.masterBaseNormalizedPlaybackTime - -w.offsetOf t +
      (w.accumulatedPlaybackTimeJumps + -w.offsetOf t) = w.line
    unfold line
    grind
  · have hcontext' : ((w.pickUp c 0).anticipateJump c (w.offsetOf t)).context c =
        some (((w.pickUp c 0).anticipated (w.offsetOf t)).withAnticipated (w.offsetOf t)
          (w.withMaster 0 x)) :=
      context_modify (s := (w.pickUp c 0).anticipated (w.offsetOf t)) (fun _ => rfl) hcontext
    refine ⟨_, hcontext', rfl, rfl, ?_⟩
    show w.masterBaseNormalizedPlaybackTime + w.accumulatedPlaybackTimeJumps - -w.offsetOf t = t
    unfold offsetOf
    grind
  · refine ⟨((w.pickUp c 0).anticipated (w.offsetOf t)).withAnticipated (w.offsetOf t) ∘
      w.withMaster 0, fun _ => ⟨rfl, rfl⟩, ?_⟩
    exact Keyed.modifyAt_modifyAt fun _ => rfl

/-- The system time for a time, from a base that goes with the system base of the master. -/
def timeFrom (w : OutputCoordinator) (base t : UInt64) : UInt64 :=
  w.masterBaseSystemTime + w.elapsedSystemTime (t - base)

/-- A stream leaves with the first frame translated from its base; a base that is moved takes the master
with it. -/
theorem takeMapping_spec (hest : w.masterTimeMappingEstablished = true)
    (h : Taken w c base (w.leaving c t)) :
    w.firstFrame c t = some (w.timeFrom base t) ∧ Left w c (w.takeMapping c t) ∧
      (w.takeMapping c t).play = w.play ∧
      (w.takeMapping c t).accumulatedPlaybackTimeJumps = (w.leaving c t).accumulatedPlaybackTimeJumps ∧
      if w.rebases base t then
        (w.takeMapping c t).masterBaseNormalizedPlaybackTime = t ∧
          (w.takeMapping c t).masterBaseSystemTime = w.timeFrom base t
      else
        (w.takeMapping c t).line = w.line ∧
          (w.takeMapping c t).masterBaseSystemTime = w.masterBaseSystemTime := by
  have htake : w.takeMapping c t =
      { (((w.leaving c t).translatePlaybackTimeToSystem (some c) t).1).modify c
          ({ · with inSynchronizeFn := false }) with
        streamsInSynchronize :=
          ((w.leaving c t).translatePlaybackTimeToSystem (some c) t).1.streamsInSynchronize - 1 } := rfl
  unfold firstFrame
  rw [htake]
  generalize w.leaving c t = v at h ⊢
  obtain ⟨x, hx, hmapped, hsys, hbase⟩ := h.context
  obtain ⟨g, hg, hcontexts⟩ := h.contexts
  have helapsed : v.elapsedSystemTime = w.elapsedSystemTime :=
    elapsedSystemTime_of_play h.play
  have hleave : ∀ f : CoordinatorContext → CoordinatorContext,
      (∀ x, (f x).id = x.id ∧ (f x).basedOnMasterMappingVersion = x.basedOnMasterMappingVersion) →
      ∃ g' : CoordinatorContext → CoordinatorContext,
        (∀ x, (g' x).id = x.id ∧ (g' x).inSynchronizeFn = false ∧
          (g' x).basedOnMasterMappingVersion = w.masterTimeMappingVersion) ∧
        (v.modify c f |>.modify c ({ · with inSynchronizeFn := false })).coordinatedContexts =
          Keyed.modifyAt CoordinatorContext.id w.coordinatedContexts c g' := by
    intro f hf
    refine ⟨fun x => { f (g x) with inSynchronizeFn := false }, ?_, ?_⟩
    · intro x
      exact ⟨(hf (g x)).1.trans (hg x).1, rfl, (hf (g x)).2.trans (hg x).2⟩
    · show Keyed.modifyAt _ (Keyed.modifyAt _ v.coordinatedContexts c f) c _ = _
      rw [hcontexts, Keyed.modifyAt_modifyAt fun x => (hg x).1]
      exact Keyed.modifyAt_modifyAt (f := f ∘ g) fun x => (hf (g x)).1.trans (hg x).1
  have htranslate := translate_taken (h.established.trans hest) hx hmapped
    (hsys.trans h.masterBaseSystemTime.symm) t
  rw [hbase, h.masterBaseSystemTime, helapsed] at htranslate
  have hrebases : v.rebases base t = w.rebases base t := by
    unfold rebases
    rw [helapsed]
  rw [hrebases] at htranslate
  refine ⟨by rw [htranslate]; rfl, ?_⟩
  have hstate := congrArg Prod.fst htranslate
  -- What the translation leaves is only looked at for what it has changed.
  generalize (v.translatePlaybackTimeToSystem (some c) t).1 = u at hstate
  by_cases hr : w.rebases base t = true
  · rw [if_pos hr] at hstate
    rw [if_pos hr]
    have hframe : u.masterTimeMappingEstablished = v.masterTimeMappingEstablished ∧
        u.masterTimeMappingVersion = v.masterTimeMappingVersion ∧ u.play = v.play ∧
        u.accumulatedPlaybackTimeJumps = v.accumulatedPlaybackTimeJumps := by
      rw [hstate]
      exact ⟨rfl, rfl, rfl, rfl⟩
    have hbases : u.masterBaseNormalizedPlaybackTime = t ∧ u.masterBaseSystemTime = w.timeFrom base t := by
      rw [hstate]
      exact ⟨rfl, rfl⟩
    have hcontexts' : u.coordinatedContexts = (v.modify c ({ · with
        baseNormalizedPlaybackTime := t, baseSystemTime := w.timeFrom base t })).coordinatedContexts := by
      rw [hstate]
      rfl
    obtain ⟨hestablished, hversion, hplay, hjumps⟩ := hframe
    refine ⟨⟨hestablished.trans h.established, hversion.trans h.version, ?_⟩, hplay.trans h.play, hjumps, hbases⟩
    show ∃ g', _ ∧ Keyed.modifyAt _ u.coordinatedContexts c _ = _
    rw [hcontexts']
    exact hleave _ fun _ => ⟨rfl, rfl⟩
  · rw [if_neg hr] at hstate
    rw [if_neg hr, hstate]
    refine ⟨⟨h.established, h.version, ?_⟩, h.play, rfl, h.line, h.masterBaseSystemTime⟩
    refine ⟨fun x => { g x with inSynchronizeFn := false }, fun x => ⟨(hg x).1, rfl, (hg x).2⟩, ?_⟩
    show Keyed.modifyAt _ v.coordinatedContexts c _ = _
    rw [hcontexts]
    exact Keyed.modifyAt_modifyAt fun x => (hg x).1

/-! ### Distances -/

theorem signed_sub_of_lt (ha : a.toNat < 2 ^ 62) (hb : b.toNat < 2 ^ 62) :
    signed (a - b) = (a.toNat : ℤ) - b.toNat := by
  have hsa : signed a = a.toNat := by rw [signed_eq, if_pos (by omega)]
  have hsb : signed b = b.toNat := by rw [signed_eq, if_pos (by omega)]
  rw [signed_sub (by omega) (by omega), hsa, hsb]

theorem impossible_iff (ht : t.toNat < 2 ^ 62) (hline : w.line.toNat < 2 ^ 62) :
    w.impossible t = true ↔ t.toNat + 10000000 < w.line.toNat ∨ w.line.toNat + 10000000 < t.toNat := by
  have hoffset : w.offsetOf t = t - w.line := by
    unfold offsetOf line
    grind
  have hsigned := signed_sub_of_lt ht hline
  have hzero : t - w.line = 0 → signed (t - w.line) = 0 := by
    intro h
    rw [h]
    decide
  unfold impossible inrange maxSynchronizationWindow
  rw [hoffset, hsigned]
  simp only [Bool.and_eq_true, bne_iff_ne, Bool.not_eq_true', Bool.and_eq_false_iff, decide_eq_false_iff_not]
  constructor
  · rintro ⟨-, h⟩
    omega
  · intro h
    refine ⟨?_, by omega⟩
    intro h'
    have := hzero h'
    omega

theorem Normal.timeFrom (h : w.Normal) (ht : t.toNat < 2 ^ 62) (hline : w.line.toNat < 2 ^ 62)
    (hclose : w.impossible t = false) : w.timeFrom w.line t = w.masterBaseSystemTime + (t - w.line) := by
  have hsigned := signed_sub_of_lt ht hline
  have hnear := (impossible_iff ht hline).not.mp (Bool.eq_false_iff.mp hclose)
  unfold OutputCoordinator.timeFrom
  rw [h.elapsedSystemTime (by omega) (by omega)]

theorem Normal.not_rebases (h : w.Normal) (ht : t.toNat < 2 ^ 62) (hline : w.line.toNat < 2 ^ 62)
    (hclose : w.impossible t = false) (hle : w.line.toNat ≤ t.toNat) : w.rebases w.line t = false := by
  have hsigned := signed_sub_of_lt ht hline
  have hnear := (impossible_iff ht hline).not.mp (Bool.eq_false_iff.mp hclose)
  have hsub := UInt64.toNat_sub_of_le t w.line (UInt64.le_iff_toNat_le.mpr hle)
  unfold rebases
  rw [h.elapsedSystemTime (by omega) (by omega), decide_eq_false_iff_not, UInt64.not_lt,
    UInt64.le_iff_toNat_le, hsub]
  show _ ≤ 268435456
  omega

theorem Normal.timeFrom_self (h : w.Normal) (t : UInt64) :
    w.timeFrom t t = w.masterBaseSystemTime ∧ w.rebases t t = false := by
  have hzero : w.elapsedSystemTime (t - t) = 0 := by
    have hsub : t - t = 0 := by grind
    rw [hsub]
    exact h.elapsedSystemTime (by decide) (by decide)
  unfold OutputCoordinator.timeFrom rebases
  rw [hzero]
  exact ⟨by grind, by decide⟩

/-! ### The streams leave -/

/-- The streams in `SynchronizeStreams`. -/
def synchronizing (u : OutputCoordinator) : List CoordinatorContext :=
  u.coordinatedContexts.filter fun x => x.inSynchronizeFn

/-- The streams in `SynchronizeStreams` that are earlier than one are farther away than the window. -/
def EarlierFar (u : OutputCoordinator) (e : CoordinatorContext) : Prop :=
  ∀ y ∈ u.synchronizing,
    y.synchronizingAtPlaybackTime.toNat < e.synchronizingAtPlaybackTime.toNat →
      y.synchronizingAtPlaybackTime.toNat + 10000000 < e.synchronizingAtPlaybackTime.toNat

/-- The streams in `SynchronizeStreams` are within the window of one another. -/
def Near (u : OutputCoordinator) : Prop :=
  ∀ y ∈ u.synchronizing, ∀ z ∈ u.synchronizing,
    y.synchronizingAtPlaybackTime.toNat ≤ z.synchronizingAtPlaybackTime.toNat + 10000000

/-- The streams of `u` are leaving with the mapping from the playback time of `e` to the system time
`base`. -/
structure UnderWay (u : OutputCoordinator) (e : CoordinatorContext) (base : UInt64)
    (w : OutputCoordinator) : Prop where
  established : w.masterTimeMappingEstablished = true
  version : w.masterTimeMappingVersion = u.masterTimeMappingVersion + 1
  normal : w.Normal
  distinct : Keyed.Distinct CoordinatorContext.id w.coordinatedContexts
  waiting : ∀ z ∈ w.coordinatedContexts, z.inSynchronizeFn = true →
    ∃ y ∈ u.synchronizing, y.id = z.id ∧ y.synchronizingAtPlaybackTime = z.normalizedPlaybackTime
  -- streams that cannot be synchronized move line and jumps; earlier ones move the base
  mapped : (EarlierFar u e ∧ w.line = e.synchronizingAtPlaybackTime ∧ w.masterBaseSystemTime = base) ∨
    (Near u ∧ w.accumulatedPlaybackTimeJumps = 0 ∧ ∃ o ∈ u.synchronizing,
      w.line = o.synchronizingAtPlaybackTime ∧ w.masterBaseSystemTime =
        base + (o.synchronizingAtPlaybackTime - e.synchronizingAtPlaybackTime))

/-- A first frame goes with its distance from the mapping, or with its base if that is too far. -/
def GoesWith (e : CoordinatorContext) (base : UInt64) (y : CoordinatorContext) (systemTime : UInt64) : Prop :=
  systemTime = base + (y.synchronizingAtPlaybackTime - e.synchronizingAtPlaybackTime) ∨
    systemTime = base ∧
      (y.synchronizingAtPlaybackTime.toNat + 10000000 < e.synchronizingAtPlaybackTime.toNat ∨
        e.synchronizingAtPlaybackTime.toNat + 10000000 < y.synchronizingAtPlaybackTime.toNat)

theorem UnderWay.leave (h : UnderWay u e base w)
    (hsmall : ∀ y ∈ u.synchronizing, y.synchronizingAtPlaybackTime.toNat < 2 ^ 62)
    (he : e ∈ u.synchronizing) (hy : y ∈ u.synchronizing) (hx : w.context c = some x)
    (ht : y.synchronizingAtPlaybackTime = t) :
    ∃ systemTime, w.firstFrame c t = some systemTime ∧ GoesWith e base y systemTime ∧
      Left w c (w.takeMapping c t) ∧ (w.takeMapping c t).Normal ∧
      ((EarlierFar u e ∧ (w.takeMapping c t).line = e.synchronizingAtPlaybackTime ∧
          (w.takeMapping c t).masterBaseSystemTime = base) ∨
        (Near u ∧ (w.takeMapping c t).accumulatedPlaybackTimeJumps = 0 ∧ ∃ o ∈ u.synchronizing,
          (w.takeMapping c t).line = o.synchronizingAtPlaybackTime ∧
          (w.takeMapping c t).masterBaseSystemTime =
            base + (o.synchronizingAtPlaybackTime - e.synchronizingAtPlaybackTime))) := by
  have ht62 : t.toNat < 2 ^ 62 := ht ▸ hsmall y hy
  obtain ⟨hearlier, hline, hsys⟩ | ⟨hnear, hjumps, o, ho, hline, hsys⟩ := h.mapped
  · have hline62 : w.line.toNat < 2 ^ 62 := hline ▸ hsmall e he
    cases himpossible : w.impossible t with
    | false =>
      have hclose := (impossible_iff ht62 hline62).not.mp (Bool.eq_false_iff.mp himpossible)
      have hle : w.line.toNat ≤ t.toNat := by
        have habove := hearlier y hy
        rw [hline] at hclose ⊢
        rw [← ht] at hclose ⊢
        omega
      obtain ⟨htaken, -⟩ := taken_close hx himpossible
      obtain ⟨hframe, hleft, hplay, -, hmaster⟩ := takeMapping_spec h.established htaken
      rw [h.normal.not_rebases ht62 hline62 himpossible hle, if_neg Bool.false_ne_true] at hmaster
      rw [h.normal.timeFrom ht62 hline62 himpossible] at hframe
      refine ⟨_, hframe, .inl ?_, hleft, hplay.trans h.normal, .inl ⟨hearlier, ?_, ?_⟩⟩
      · rw [hsys, hline, ht]
      · exact hmaster.1.trans hline
      · exact hmaster.2.trans hsys
    | true =>
      have hfar := (impossible_iff ht62 hline62).mp himpossible
      obtain ⟨hframe, hleft, hplay, -, hmaster⟩ :=
        takeMapping_spec h.established (taken_far hx himpossible)
      obtain ⟨hself, hstays⟩ := h.normal.timeFrom_self t
      rw [hstays, if_neg Bool.false_ne_true] at hmaster
      rw [hself] at hframe
      refine ⟨_, hframe, .inr ⟨hsys, ?_⟩, hleft, hplay.trans h.normal, .inl ⟨hearlier, ?_, ?_⟩⟩
      · rw [ht, ← hline]
        exact hfar
      · exact hmaster.1.trans hline
      · exact hmaster.2.trans hsys
  · have hline62 : w.line.toNat < 2 ^ 62 := hline ▸ hsmall o ho
    have himpossible : w.impossible t = false := by
      rw [Bool.eq_false_iff, ne_eq, impossible_iff ht62 hline62, hline, ← ht]
      have h1 := hnear y hy o ho
      have h2 := hnear o ho y hy
      omega
    obtain ⟨htaken, hkept⟩ := taken_close hx himpossible
    obtain ⟨hframe, hleft, hplay, hacc, hmaster⟩ := takeMapping_spec h.established htaken
    rw [h.normal.timeFrom ht62 hline62 himpossible] at hframe hmaster
    have htime : w.masterBaseSystemTime + (t - w.line) =
        base + (y.synchronizingAtPlaybackTime - e.synchronizingAtPlaybackTime) := by
      grind
    rw [htime] at hframe hmaster
    have hzero := hacc.trans (hkept.trans hjumps)
    refine ⟨_, hframe, .inl rfl, hleft, hplay.trans h.normal, .inr ⟨hnear, hzero, ?_⟩⟩
    split at hmaster
    · -- the base has come to this stream
      refine ⟨y, hy, ?_, hmaster.2⟩
      unfold line
      rw [hzero, hmaster.1, ht]
      exact UInt64.add_zero t
    · exact ⟨o, ho, hmaster.1.trans hline, hmaster.2.trans hsys⟩

/-! ### The earliest streams -/

theorem foldl_earlier (l : List CoordinatorContext) (first : Option CoordinatorContext)
    (h : l.foldl earlier first = some e) :
    (e ∈ l ∨ first = some e) ∧
      (∀ y ∈ l, e.synchronizingAtPlaybackTime.toNat ≤ y.synchronizingAtPlaybackTime.toNat) ∧
      ∀ y, first = some y → e.synchronizingAtPlaybackTime.toNat ≤ y.synchronizingAtPlaybackTime.toNat := by
  induction l generalizing first with
  | nil =>
    refine ⟨.inr h, by simp, ?_⟩
    intro y hy
    obtain rfl := Option.some.inj (hy.symm.trans h)
    exact le_rfl
  | cons x l ih =>
    obtain ⟨hmem, hall, hfirst⟩ := ih (earlier first x) h
    -- the choice is one of the two and not later than either
    obtain ⟨z, hz, hchoice, hzx, hzf⟩ : ∃ z, earlier first x = some z ∧ (z = x ∨ first = some z) ∧
        z.synchronizingAtPlaybackTime.toNat ≤ x.synchronizingAtPlaybackTime.toNat ∧
        ∀ y, first = some y →
          z.synchronizingAtPlaybackTime.toNat ≤ y.synchronizingAtPlaybackTime.toNat := by
      cases first with
      | none => exact ⟨x, rfl, .inl rfl, le_rfl, by simp⟩
      | some y =>
        unfold earlier
        dsimp only
        split
        next hlt =>
          refine ⟨x, rfl, .inl rfl, le_rfl, ?_⟩
          rintro _ ⟨⟩
          exact (UInt64.lt_iff_toNat_lt.mp hlt).le
        next hle =>
          refine ⟨y, rfl, .inr rfl, ?_, ?_⟩
          · exact UInt64.le_iff_toNat_le.mp (UInt64.not_lt.mp hle)
          · rintro _ ⟨⟩
            exact le_rfl
    have hez := hfirst z hz
    refine ⟨?_, ?_, fun y hy => hez.trans (hzf y hy)⟩
    · obtain hel | hef := hmem
      · exact .inl (List.mem_cons_of_mem x hel)
      · obtain rfl := Option.some.inj (hz.symm.trans hef)
        obtain rfl | hfirst' := hchoice
        · exact .inl List.mem_cons_self
        · exact .inr hfirst'
    · intro y hy
      rcases List.mem_cons.mp hy with rfl | hy
      · exact hez.trans hzx
      · exact hall y hy

variable {p : CoordinatorContext → Bool}

theorem earliest_spec (h : u.earliest p = some e) :
    e ∈ u.synchronizing ∧ p e = true ∧ ∀ y ∈ u.synchronizing, p y = true →
      e.synchronizingAtPlaybackTime.toNat ≤ y.synchronizingAtPlaybackTime.toNat := by
  have hmem : ∀ y, y ∈ u.coordinatedContexts.filter (fun x => x.inSynchronizeFn && p x) ↔
      y ∈ u.synchronizing ∧ p y = true := by
    intro y
    unfold synchronizing
    rw [List.mem_filter, List.mem_filter, Bool.and_eq_true, and_assoc]
  obtain ⟨he, hall, -⟩ := foldl_earlier _ none h
  obtain ⟨hsync, hp⟩ := (hmem e).mp (he.resolve_right (by simp))
  exact ⟨hsync, hp, fun y hy hpy => hall y ((hmem y).mpr ⟨hy, hpy⟩)⟩

theorem earliest_isSome (hx : x ∈ u.synchronizing) (hp : p x = true) :
    ∃ e, u.earliest p = some e := by
  have hsome : ∀ (l : List CoordinatorContext) y, ∃ e, l.foldl earlier (some y) = some e := by
    intro l
    induction l with
    | nil => exact fun y => ⟨y, rfl⟩
    | cons z l ih =>
      intro y
      rw [List.foldl_cons]
      unfold earlier
      dsimp only
      split
      · exact ih z
      · exact ih y
  unfold earliest
  have hmem : x ∈ u.coordinatedContexts.filter (fun x => x.inSynchronizeFn && p x) := by
    obtain ⟨hctx, hsync⟩ := List.mem_filter.mp hx
    exact List.mem_filter.mpr ⟨hctx, by rw [hsync, hp]; rfl⟩
  obtain ⟨y, l, hl⟩ := List.exists_cons_of_ne_nil (List.ne_nil_of_mem hmem)
  rw [hl]
  exact hsome l y

variable {immediate : Bool}

/-- The stream that the mapping starts with: the earliest video stream under the policy, if there is one,
and the earliest one otherwise. -/
theorem earliestContext_spec (h : u.earliestContext immediate = some e) :
    e ∈ u.synchronizing ∧ ∀ v, u.earliestVideoContext = some v →
      v = e ∨ e.synchronizingAtPlaybackTime.toNat ≤ v.synchronizingAtPlaybackTime.toNat := by
  unfold earliestContext at h
  split at h
  · cases hv : u.earliestVideoContext with
    | none =>
      rw [hv] at h
      exact ⟨(earliest_spec h).1, by simp⟩
    | some v =>
      rw [hv] at h
      obtain rfl := Option.some.inj h
      refine ⟨(earliest_spec hv).1, ?_⟩
      rintro _ ⟨⟩
      exact .inl rfl
  · refine ⟨(earliest_spec h).1, ?_⟩
    intro v hv
    exact .inr ((earliest_spec h).2.2 v (earliest_spec hv).1 rfl)

theorem earlierFar_or_near (he : u.earliestContext immediate = some e)
    (hnear : ∀ v, immediate = true → u.earliestVideoContext = some v → u.EarlierFar v ∨ u.Near) :
    u.EarlierFar e ∨ u.Near := by
  have hall : u.earliest (fun _ => true) = some e → u.EarlierFar e := fun h y hy hlt =>
    absurd hlt (Nat.not_lt.mpr ((earliest_spec h).2.2 y hy rfl))
  unfold earliestContext at he
  split at he
  next himmediate =>
    cases hv : u.earliestVideoContext with
    | none =>
      rw [hv] at he
      exact .inl (hall he)
    | some v =>
      rw [hv] at he
      obtain rfl := Option.some.inj he
      exact hnear v himmediate hv
  · exact .inl (hall he)

/-! ### The start -/

/-- What is asked of the first frame of a stream: it is not before the result of `RestartTime`, unless the
stream is earlier than the mapping, and that of the earliest video stream is at a frame point, unless the
stream cannot be synchronized. -/
structure Begins (u : OutputCoordinator) (m : Manifestors) (e y : CoordinatorContext)
    (systemTime : UInt64) : Prop where
  not_early : e.synchronizingAtPlaybackTime ≤ y.synchronizingAtPlaybackTime →
    (u.trawled m).restartTime ≤ systemTime
  frame_point : u.earliestVideoContext = some y →
    y.synchronizingAtPlaybackTime.toNat ≤ e.synchronizingAtPlaybackTime.toNat + 10000000 →
    ∃ n, systemTime.toNat =
      (u.trawled m).latestVideoManifestTime.toNat + n * (u.trawled m).videoFrameDuration.toNat

variable {r : Restart}

theorem startTimeJitter_eq {v : CoordinatorContext} (hv : u.earliestVideoContext = some v)
    (hne : v.id ≠ e.id)
    (hle : e.synchronizingAtPlaybackTime.toNat ≤ v.synchronizingAtPlaybackTime.toNat)
    (hpos : 0 < r.videoFrameDuration.toNat) :
    (u.startTimeJitter r e).toNat + (v.synchronizingAtPlaybackTime.toNat -
        e.synchronizingAtPlaybackTime.toNat) % r.videoFrameDuration.toNat =
      r.videoFrameDuration.toNat := by
  unfold startTimeJitter
  rw [hv]
  dsimp only
  rw [if_neg hne]
  have hsub := UInt64.toNat_sub_of_le _ _ (UInt64.le_iff_toNat_le.mpr hle)
  generalize v.synchronizingAtPlaybackTime - e.synchronizingAtPlaybackTime = jitter at hsub
  rw [← hsub]
  have hdiv := Nat.div_add_mod jitter.toNat r.videoFrameDuration.toNat
  have hmod := Nat.mod_lt jitter.toNat hpos
  have hmul : (r.videoFrameDuration * (jitter / r.videoFrameDuration)).toNat =
      r.videoFrameDuration.toNat * (jitter.toNat / r.videoFrameDuration.toNat) := by
    have hlt := jitter.toNat_lt
    rw [UInt64.toNat_mul, UInt64.toNat_div, Nat.mod_eq_of_lt (by omega)]
  have hrest : (jitter - r.videoFrameDuration * (jitter / r.videoFrameDuration)).toNat =
      jitter.toNat % r.videoFrameDuration.toNat := by
    rw [UInt64.toNat_sub_of_le _ _ (UInt64.le_iff_toNat_le.mpr (by omega)), hmul]
    omega
  rw [UInt64.toNat_sub_of_le _ _ (UInt64.le_iff_toNat_le.mpr (by omega)), hrest]
  omega

theorem startTimeJitter_le (he : u.earliestContext immediate = some e)
    (hpos : 0 < r.videoFrameDuration.toNat) :
    (u.startTimeJitter r e).toNat ≤ r.videoFrameDuration.toNat := by
  cases hv : u.earliestVideoContext with
  | none =>
    unfold startTimeJitter
    rw [hv]
    exact Nat.zero_le _
  | some v =>
    by_cases hne : v.id = e.id
    · unfold startTimeJitter
      rw [hv]
      dsimp only
      rw [if_pos hne]
      exact Nat.zero_le _
    · obtain rfl | hle := (earliestContext_spec he).2 v hv
      · exact absurd rfl hne
      · have := startTimeJitter_eq hv hne hle hpos
        omega

variable {m : Manifestors}

theorem GoesWith.begins {systemTime : UInt64} (hm : u.Moderate m)
    (hdistinct : Keyed.Distinct CoordinatorContext.id u.coordinatedContexts)
    (he : u.earliestContext immediate = some e) (hy : y ∈ u.synchronizing)
    (h : GoesWith e ((u.trawled m).restartTime + u.startTimeJitter (u.restart m immediate) e) y
      systemTime) : Begins u m e y systemTime := by
  obtain ⟨hpos, hduration, -, hlatest⟩ := inOrder_trawled hm
  obtain ⟨k, hframe, -, hrestart⟩ := restartTime_eq (inOrder_trawled hm)
  have hjitter := startTimeJitter_le (r := u.restart m immediate) he hpos
  have hsmall : ∀ z ∈ u.synchronizing, z.synchronizingAtPlaybackTime.toNat < 2 ^ 62 := by
    intro z hz
    obtain ⟨hctx, hsync⟩ := List.mem_filter.mp hz
    exact hm.playback z hctx hsync
  have hy62 := hsmall y hy
  have hduration' : (u.restart m immediate).videoFrameDuration = (u.trawled m).videoFrameDuration := rfl
  rw [hduration'] at hjitter
  have hbase : ((u.trawled m).restartTime + u.startTimeJitter (u.restart m immediate) e).toNat =
      (u.trawled m).restartTime.toNat + (u.startTimeJitter (u.restart m immediate) e).toNat := by
    rw [UInt64.toNat_add, Nat.mod_eq_of_lt (by omega)]
  -- from the mapping on, the system time is the base and the distance
  have htime : e.synchronizingAtPlaybackTime.toNat ≤ y.synchronizingAtPlaybackTime.toNat →
      systemTime = (u.trawled m).restartTime + u.startTimeJitter (u.restart m immediate) e +
        (y.synchronizingAtPlaybackTime - e.synchronizingAtPlaybackTime) →
      systemTime.toNat = (u.trawled m).restartTime.toNat +
        (u.startTimeJitter (u.restart m immediate) e).toNat +
        (y.synchronizingAtPlaybackTime.toNat - e.synchronizingAtPlaybackTime.toNat) := by
    intro hle hsystem
    have hsub := UInt64.toNat_sub_of_le _ _ (UInt64.le_iff_toNat_le.mpr hle)
    rw [hsystem, UInt64.toNat_add, hbase, hsub, Nat.mod_eq_of_lt (by omega)]
  constructor
  · intro hle
    have hle' := UInt64.le_iff_toNat_le.mp hle
    rw [UInt64.le_iff_toNat_le]
    obtain hsystem | ⟨hsystem, -⟩ := h
    · have := htime hle' hsystem
      omega
    · rw [hsystem, hbase]
      omega
  · intro hv hwindow
    obtain hsystem | ⟨-, hfar⟩ := h
    · by_cases hne : y.id = e.id
      · -- the mapping starts with the earliest video stream
        obtain ⟨hyctx, -⟩ := List.mem_filter.mp hy
        obtain ⟨hectx, -⟩ := List.mem_filter.mp (earliestContext_spec he).1
        obtain rfl := hdistinct.eq hyctx hectx hne
        have hzero : u.startTimeJitter (u.restart m immediate) y = 0 := by
          unfold startTimeJitter
          rw [hv]
          dsimp only
          rw [if_pos rfl]
        have := htime le_rfl hsystem
        rw [hzero] at this
        refine ⟨k, ?_⟩
        rw [this, ← hframe]
        simp
      · have hle : e.synchronizingAtPlaybackTime.toNat ≤ y.synchronizingAtPlaybackTime.toNat := by
          obtain rfl | hle := (earliestContext_spec he).2 y hv
          · exact absurd rfl hne
          · exact hle
        have heq := startTimeJitter_eq (r := u.restart m immediate) hv hne hle hpos
        rw [hduration'] at heq
        have hsum := htime hle hsystem
        have hdiv := Nat.div_add_mod (y.synchronizingAtPlaybackTime.toNat -
          e.synchronizingAtPlaybackTime.toNat) (u.trawled m).videoFrameDuration.toNat
        refine ⟨k + 1 + (y.synchronizingAtPlaybackTime.toNat - e.synchronizingAtPlaybackTime.toNat) /
          (u.trawled m).videoFrameDuration.toNat, ?_⟩
        rw [hsum, hframe, add_mul, add_mul, one_mul, mul_comm (_ / _)]
        omega
    · obtain rfl | hle := (earliestContext_spec he).2 y hv
      · omega
      · omega

/-! ### The run -/

/-- The streams of `u` that wait, in a state in which the mapping is there, and the pass of one of them
that leads to `w'`: its first frame begins as it should, and it is out of `SynchronizeStreams` with the
version of the mapping. -/
def LeavesWell (u : OutputCoordinator) (m : Manifestors) (e : CoordinatorContext)
    (w : OutputCoordinator) (c : ℕ) (w' : OutputCoordinator) : Prop :=
  ∃ y ∈ u.synchronizing, y.id = c ∧ w' = w.takeMapping c y.synchronizingAtPlaybackTime ∧
    (∃ systemTime, w.firstFrame c y.synchronizingAtPlaybackTime = some systemTime ∧
      Begins u m e y systemTime) ∧
    ∃ z, w'.context c = some z ∧ z.inSynchronizeFn = false ∧
      z.basedOnMasterMappingVersion = u.masterTimeMappingVersion + 1

/-- The step with which a stream leaves when its wait ends. -/
def Leaving (policy : MasterClock) (u : OutputCoordinator) (m : Manifestors) (e : CoordinatorContext)
    (w : OutputCoordinator) : Label → Prop
  | .endWait c r => ∀ w', step policy w (.endWait c r) = some w' →
      LeavesWell u m e (w.modify c waited) c w'
  | _ => True

theorem UnderWay.leavesWell (hm : u.Moderate m)
    (hdistinct : Keyed.Distinct CoordinatorContext.id u.coordinatedContexts)
    (he : u.earliestContext immediate = some e)
    (h : UnderWay u e ((u.trawled m).restartTime + u.startTimeJitter (u.restart m immediate) e) w)
    (hx : w.context c = some x) (hin : x.inSynchronizeFn = true) :
    LeavesWell u m e w c (w.takeMapping c x.normalizedPlaybackTime) ∧
      UnderWay u e ((u.trawled m).restartTime + u.startTimeJitter (u.restart m immediate) e)
        (w.takeMapping c x.normalizedPlaybackTime) := by
  obtain ⟨hmem, rfl⟩ := context_some hx
  obtain ⟨y, hy, hid, htime⟩ := h.waiting x hmem hin
  have hsmall : ∀ z ∈ u.synchronizing, z.synchronizingAtPlaybackTime.toNat < 2 ^ 62 := by
    intro z hz
    obtain ⟨hctx, hsync⟩ := List.mem_filter.mp hz
    exact hm.playback z hctx hsync
  obtain ⟨systemTime, hframe, hgoes, hleft, hnormal, hmapped⟩ :=
    h.leave hsmall (earliestContext_spec he).1 hy hx htime
  obtain ⟨g, hg, hcontexts⟩ := hleft.contexts
  have hctx : (w.takeMapping x.id x.normalizedPlaybackTime).context x.id = some (g x) := by
    unfold OutputCoordinator.context
    rw [hcontexts]
    exact Keyed.find?_modifyAt (fun x => (hg x).1) hx
  constructor
  · refine ⟨y, hy, hid, by rw [htime], ⟨systemTime, ?_, hgoes.begins hm hdistinct he hy⟩, g x, hctx,
      (hg x).2.1, (hg x).2.2.trans h.version⟩
    rw [htime]
    exact hframe
  · refine ⟨hleft.established.trans h.established, hleft.version.trans h.version, hnormal, ?_, ?_,
      hmapped⟩
    · rw [hcontexts]
      exact h.distinct.modifyAt fun x => (hg x).1
    · intro z hz hzin
      rw [hcontexts] at hz
      obtain ⟨z', hz', hchanged⟩ := Keyed.mem_modifyAt.mp hz
      split at hchanged
      · rw [← hchanged, (hg z').2.1] at hzin
        exact Bool.noConfusion hzin
      · exact h.waiting z (hchanged ▸ hz') hzin

theorem UnderWay.endsWait (h : UnderWay u e base w) (c : ℕ) :
    UnderWay u e base (w.modify c waited) := by
  refine ⟨h.established, h.version, h.normal, h.distinct.modifyAt fun _ => rfl, ?_, h.mapped⟩
  intro z hz hzin
  obtain ⟨z', hz', hchanged⟩ := Keyed.mem_modifyAt.mp hz
  split at hchanged
  · subst hchanged
    exact h.waiting z' hz' hzin
  · exact h.waiting z (hchanged ▸ hz') hzin

variable {policy : MasterClock}

theorem UnderWay.along (hm : u.Moderate m)
    (hdistinct : Keyed.Distinct CoordinatorContext.id u.coordinatedContexts)
    (he : u.earliestContext immediate = some e)
    (h : UnderWay u e ((u.trawled m).restartTime + u.startTimeJitter (u.restart m immediate) e) w)
    (leaves : List (ℕ × Restart)) :
    Along (step policy) (Leaving policy u m e) w (leaves.map fun l => .endWait l.1 l.2) := by
  induction leaves generalizing w with
  | nil => exact trivial
  | cons l leaves ih =>
    obtain ⟨c, r⟩ := l
    have hstep : ∀ w', step policy w (.endWait c r) = some w' →
        LeavesWell u m e (w.modify c waited) c w' ∧
          UnderWay u e ((u.trawled m).restartTime + u.startTimeJitter (u.restart m immediate) e) w' := by
      intro w' hw'
      obtain ⟨x, hx, hstep⟩ := Option.bind_eq_some_iff.mp hw'
      obtain ⟨-, rfl⟩ := context_some hx
      split at hstep
      next hin =>
        have hctx : (w.modify x.id waited).context x.id = some (waited x) :=
          context_modify (f := waited) (fun _ => rfl) hx
        have hpass : w.endWait x r =
            (w.modify x.id waited).takeMapping x.id x.normalizedPlaybackTime :=
          if_pos h.established
        rw [← Option.some.inj hstep, hpass]
        have hleaves := (h.endsWait x.id).leavesWell hm hdistinct he hctx hin
        exact hleaves
      · cases hstep
    exact ⟨fun w' hw' => (hstep w' hw').1, fun w' hw' => ih (hstep w' hw').2⟩

/-- The state in which a step makes its pass of the waiting loop, the stream that makes it and the result
of `RestartTime`: a stream has just joined the others, or its wait has ended. -/
def passing (s : OutputCoordinator) : Label → Option (OutputCoordinator × CoordinatorContext × Restart)
  | .joinSynchronize c immediate r => do
      let x ← s.context c
      if x.inStartupDelay then
        some (s.joining x.id (waitsFor immediate), joined (waitsFor immediate) x, r)
      else none
  | .endWait c r => do
      let x ← s.context c
      if x.inSynchronizeFn then some (s.modify x.id waited, waited x, r) else none
  | _ => none

theorem passing_spec {labels : List Label} {s : OutputCoordinator} {a : Label}
    (hrun : run (step policy) (start (Rational.ofInt 1) false (Rational.ofInt 1)) labels = some s)
    (h : s.passing a = some (u, x, r)) :
    step policy s a = some (u.pass r x) ∧ u.context x.id = some x ∧ x.inSynchronizeFn = true ∧
      u.AllWait ∧ Keyed.Distinct CoordinatorContext.id u.coordinatedContexts ∧ u.Normal := by
  obtain ⟨hwait, hdistinct, hplay⟩ := run_waits hrun
  cases a with
  | joinSynchronize c immediate r' =>
    obtain ⟨x', hx', hsome⟩ := Option.bind_eq_some_iff.mp h
    obtain ⟨-, rfl⟩ := context_some hx'
    split at hsome
    next hdelay =>
      obtain ⟨rfl, rfl, rfl⟩ : _ ∧ _ ∧ _ := by simpa using hsome
      refine ⟨?_, ?_, rfl, (Calm.joining x'.id _).waits hwait, ?_, hplay⟩
      · simp [step, hx', hdelay, OutputCoordinator.joinSynchronize]
      · exact context_modify (f := joined (waitsFor immediate)) (fun _ => rfl) hx'
      · exact distinct_modify (f := joined (waitsFor immediate)) (fun _ => rfl) hdistinct x'.id
    · cases hsome
  | endWait c r' =>
    obtain ⟨x', hx', hsome⟩ := Option.bind_eq_some_iff.mp h
    obtain ⟨-, rfl⟩ := context_some hx'
    split at hsome
    next hin =>
      obtain ⟨rfl, rfl, rfl⟩ : _ ∧ _ ∧ _ := by simpa using hsome
      refine ⟨?_, ?_, hin, hwait.modify fun y hy _ => hwait y hy, ?_, hplay⟩
      · simp [step, hx', hin, OutputCoordinator.endWait]
      · exact context_modify (f := waited) (fun _ => rfl) hx'
      · exact distinct_modify (f := waited) (fun _ => rfl) hdistinct x'.id
    · cases hsome
  | registerStream => cases h
  | deRegisterStream => cases h
  | resetTimeMapping => cases h
  | establishTimeMapping => cases h
  | adjustMappingBase => cases h
  | handlePlaybackTimeDeltas => cases h
  | synchronizeStreams => cases h

/-- **A synchronized start**: in every run of normal play, when a stream sets up the mapping with the result
of `RestartTime`, it leaves well, and so do the streams that are in `SynchronizeStreams` then, in any order;
under `PolicyVideoStartImmediate` if the streams before the first video stream are out of its window, or if
all streams are within the window of one another. -/
theorem synchronized_start {policy : MasterClock} {labels : List Label} {s : OutputCoordinator} {a : Label}
    (hrun : run (step policy) (start (Rational.ofInt 1) false (Rational.ofInt 1)) labels = some s)
    {m : Manifestors} {immediate : Bool} (hpass : s.passing a = some (u, x, u.restart m immediate))
    (hnone : u.masterTimeMappingEstablished = false)
    (hready : u.streamsInSynchronize = u.streamCount ∨ x.maxSynchronizeWaits ≤ x.waitCount)
    (hm : u.Moderate m)
    (hnear : ∀ v, immediate = true → u.earliestVideoContext = some v → u.EarlierFar v ∨ u.Near)
    (leaves : List (ℕ × Restart)) :
    ∃ e s', u.earliestContext immediate = some e ∧ step policy s a = some s' ∧
      LeavesWell u m e (u.establishEarliest (u.restart m immediate) e) x.id s' ∧
      Along (step policy) (Leaving policy u m e) s' (leaves.map fun l => .endWait l.1 l.2) := by
  obtain ⟨hstep, hx, hin, hwait, hdistinct, hnormal⟩ := passing_spec hrun hpass
  obtain ⟨e, he⟩ : ∃ e, u.earliestContext immediate = some e := by
    have hsync : x ∈ u.synchronizing := List.mem_filter.mpr ⟨(context_some hx).1, hin⟩
    obtain ⟨f, hf⟩ := earliest_isSome (p := fun _ => true) hsync rfl
    unfold earliestContext
    split
    · cases u.earliestVideoContext with
      | none => exact ⟨f, hf⟩
      | some v => exact ⟨v, rfl⟩
    · exact ⟨f, hf⟩
  have hunder : UnderWay u e
      ((u.trawled m).restartTime + u.startTimeJitter (u.restart m immediate) e)
      (u.establishEarliest (u.restart m immediate) e) := by
    refine ⟨rfl, rfl, hnormal, hdistinct, ?_, ?_⟩
    · intro z hz hzin
      exact ⟨z, List.mem_filter.mpr ⟨hz, hzin⟩, rfl, hwait z hz hzin⟩
    · obtain hfar | hclose := earlierFar_or_near he hnear
      · refine .inl ⟨hfar, ?_, ?_⟩
        · exact UInt64.add_zero _
        · rfl
      · refine .inr ⟨hclose, rfl, e, (earliestContext_spec he).1, ?_, ?_⟩
        · exact UInt64.add_zero _
        · rw [UInt64.sub_self, UInt64.add_zero]
          rfl
  have hfirst := hunder.leavesWell (x := x) hm hdistinct he hx hin
  have hpassed : u.pass (u.restart m immediate) x =
      (u.establishEarliest (u.restart m immediate) e).takeMapping x.id x.normalizedPlaybackTime := by
    unfold pass
    rw [hnone, if_neg Bool.false_ne_true, if_pos hready]
    have hrestart : (u.restart m immediate).videoStartImmediate = immediate := rfl
    rw [hrestart, he]
  rw [← hpassed] at hfirst
  exact ⟨e, _, he, hstep, hfirst.1, hfirst.2.along hm hdistinct he leaves⟩

/-- An audio and a video stream are in their startup delays, with their playback times. -/
def twoStreams (audio video : UInt64) : List Label :=
  [.registerStream ⟨0, .audio, true, false⟩, .registerStream ⟨1, .video, true, false⟩,
    .synchronizeStreams 0 false audio 1000000, .synchronizeStreams 1 false video 1000000]

/-- A frame of any stream queued now would be shown at once, and lasts for 40 milliseconds. -/
def atOnce : Manifestors := ⟨1000000, fun _ => 1000000, fun _ => ⟨true, Rational.ofInt 25⟩⟩

/-- One of the streams waits for the other one. -/
def oneWaits (audio video : UInt64) (first : ℕ) : OutputCoordinator :=
  (run (step .videoClockMaster) (start (Rational.ofInt 1) false (Rational.ofInt 1))
    (twoStreams audio video ++ [.joinSynchronize first false ⟨0, 1, false⟩])).getD
      (start (Rational.ofInt 1) false (Rational.ofInt 1))

/-- The context of one of them. -/
def oneOf (u : OutputCoordinator) (c : ℕ) : CoordinatorContext :=
  (u.context c).getD (Registration.context ⟨c, .none, false, false⟩)

/-- `synchronized_start` for a video stream that is a second and a half later than the audio stream. -/
theorem synchronized_start_twoStreams :
    let u := (oneWaits 0 1500000 0).joining 1 maxWaits
    ∃ e s', u.earliestContext false = some e ∧
      step .videoClockMaster (oneWaits 0 1500000 0) (.joinSynchronize 1 false (u.restart atOnce false)) =
        some s' ∧
      LeavesWell u atOnce e (u.establishEarliest (u.restart atOnce false) e) 1 s' ∧
      Along (step .videoClockMaster) (Leaving .videoClockMaster u atOnce e) s'
        [.endWait 0 (u.restart atOnce false)] := by
  intro u
  have hrun : run (step .videoClockMaster) (start (Rational.ofInt 1) false (Rational.ofInt 1))
      (twoStreams 0 1500000 ++ [.joinSynchronize 0 false ⟨0, 1, false⟩]) = some (oneWaits 0 1500000 0) := by
    decide +kernel
  exact synchronized_start (x := joined maxWaits (u.oneOf 1)) hrun (by decide +kernel) (by decide +kernel) (by decide +kernel)
    ⟨by decide +kernel, by decide +kernel, by decide +kernel, by decide +kernel⟩
    (by simp) [(0, u.restart atOnce false)]

/-- In a run of normal play the stream `x` sets up the mapping from `e` in the state `u`; the system time
is that of its first frame. -/
structure SetsUp (policy : MasterClock) (labels : List Label) (a : Label) (u : OutputCoordinator)
    (x e : CoordinatorContext) (m : Manifestors) (immediate : Bool) (systemTime : UInt64) : Prop where
  passing : (run (step policy) (start (Rational.ofInt 1) false (Rational.ofInt 1)) labels).bind
    (OutputCoordinator.passing · a) = some (u, x, u.restart m immediate)
  none : u.masterTimeMappingEstablished = false
  ready : u.streamsInSynchronize = u.streamCount ∨ x.maxSynchronizeWaits ≤ x.waitCount
  moderate : u.Moderate m
  earliest : u.earliestContext immediate = some e
  first : (u.establishEarliest (u.restart m immediate) e).firstFrame x.id x.synchronizingAtPlaybackTime =
    some systemTime

/-- A video stream that is farther than the window behind the audio stream misses the frame point; under
`PolicyVideoStartImmediate` the first frame of an earlier audio stream is before the result of
`RestartTime`. -/
theorem not_synchronized_start :
    (¬ ∀ policy labels a u x e m immediate systemTime,
      SetsUp policy labels a u x e m immediate systemTime → u.earliestVideoContext = some x →
        ∃ n, systemTime.toNat =
          (u.trawled m).latestVideoManifestTime.toNat + n * (u.trawled m).videoFrameDuration.toNat) ∧
    ¬ ∀ policy labels a u x e m immediate systemTime,
      SetsUp policy labels a u x e m immediate systemTime → (u.trawled m).restartTime ≤ systemTime := by
  constructor
  · intro h
    let u := (oneWaits 0 11010000 0).joining 1 maxWaits
    have hsets : SetsUp .videoClockMaster (twoStreams 0 11010000 ++ [.joinSynchronize 0 false ⟨0, 1, false⟩])
        (.joinSynchronize 1 false (u.restart atOnce false)) u
        (u.oneOf 1) (u.oneOf 0) atOnce false 1030000 :=
      ⟨by decide +kernel, by decide +kernel, by decide +kernel,
        ⟨by decide +kernel, by decide +kernel, by decide +kernel, by decide +kernel⟩,
        by decide +kernel, by decide +kernel⟩
    obtain ⟨n, hn⟩ := h _ _ _ _ _ _ _ _ _ hsets (by decide +kernel)
    have hlatest : (u.trawled atOnce).latestVideoManifestTime = 1000000 := by decide +kernel
    have hduration : (u.trawled atOnce).videoFrameDuration = 40000 := by decide +kernel
    change 1030000 = 1000000 + n * 40000 at hn
    omega
  · intro h
    let u := (oneWaits 0 1000000 1).joining 0 maxWaits
    have hsets : SetsUp .videoClockMaster (twoStreams 0 1000000 ++ [.joinSynchronize 1 false ⟨0, 1, false⟩])
        (.joinSynchronize 0 false (u.restart atOnce true)) u
        (u.oneOf 0) (u.oneOf 1) atOnce true 0 :=
      ⟨by decide +kernel, by decide +kernel, by decide +kernel,
        ⟨by decide +kernel, by decide +kernel, by decide +kernel, by decide +kernel⟩,
        by decide +kernel, by decide +kernel⟩
    exact absurd (h _ _ _ _ _ _ _ _ _ hsets) (by decide +kernel)

end Player2.OutputCoordinator

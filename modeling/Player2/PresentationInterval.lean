import Mathlib.Order.Defs.LinearOrder
import Mathlib.Order.MinMax
import Mathlib.Data.List.Basic
import Player2.NativeTime
import Player2.Run

/-! # The presentation interval

A presentation interval is requested for a stream, or for a playback and the streams it gets later, and
clamped when the direction of play is reversed.  `GetPresentationInterval` is to return the intersection
of the two; `INVALID_TIME` stands for a bound that is not there.

`Bounds` has intervals whose bounds may be missing, and their intersection.  `presentation_iff` says which
sequences of calls are answered with it.  The bounds in the source are compared as numbers, and
`INVALID_TIME` is a large one: it wins against a start limit.  Besides, a bound that is not there is
translated by the frame parser like a time. -/

namespace Player2.PresentationInterval

open NativeTime (Times invalidTime)

/-! ### Intervals with missing bounds -/

/-- The bounds of an interval. -/
structure Bounds (α : Type) where
  start : Option α
  stop : Option α
deriving DecidableEq

namespace Bounds

variable {α : Type} [LinearOrder α]

/-- The larger of the starts and the smaller of the ends. -/
def inter (b c : Bounds α) : Bounds α := ⟨.merge max b.start c.start, .merge min b.stop c.stop⟩

end Bounds

/-! ### The source -/

/-- The two bounds as they are kept. -/
structure Interval where
  start : UInt64
  stop : UInt64
deriving DecidableEq

/-- No bounds. -/
def Interval.absent : Interval := ⟨invalidTime, invalidTime⟩

/-- `PlayDirection_t`. -/
inductive PlayDirection
  | playForward
  | playBackward
deriving DecidableEq

/-- A stream and the interval requested for it.  What was asked for, with the bounds that were, is not in
the source. -/
structure Stream where
  id : ℕ
  requestedPresentationInterval : Interval
  asked : Bounds ℕ
deriving DecidableEq

/-- A playback, with the interval for streams to come and the reversal limits. -/
structure Playback where
  speed : Rat
  direction : PlayDirection
  presentationIntervalReversalLimit : Interval
  requestedPresentationInterval : Interval
  asked : Bounds ℕ
  listOfStreams : List Stream
deriving DecidableEq

def createPlayback : Playback where
  speed := 1
  direction := .playForward
  presentationIntervalReversalLimit := .absent
  requestedPresentationInterval := .absent
  asked := ⟨none, none⟩
  listOfStreams := []

/-- A stream asks for what it gets for the bounds that are there. -/
def Bounds.ofNative (start stop : UInt64) (normalized : Interval) : Bounds ℕ where
  start := if start = invalidTime then none else some normalized.start.toNat
  stop := if stop = invalidTime then none else some normalized.stop.toNat

/-- The two translations by the frame parser of a stream, whose times are `t` when it comes to that. -/
def translate (t : Times) (start stop : UInt64) : Interval :=
  let first := t.translatePlaybackTimeNativeToNormalized start
  let second := first.1.translatePlaybackTimeNativeToNormalized stop
  ⟨first.2, second.2⟩

/-- The translation without a frame parser. -/
def translateStandard (start stop : UInt64) : Interval where
  start := if start = invalidTime then invalidTime else (start * 300 + 13) / 27
  stop := if stop = invalidTime then invalidTime else (stop * 300 + 13) / 27

namespace Playback

def addStream (p : Playback) : Playback :=
  { p with
    listOfStreams := ⟨p.listOfStreams.length, p.requestedPresentationInterval, p.asked⟩ :: p.listOfStreams }

/-- What `SetPresentationInterval` does to a stream that the loop comes to. -/
def setStream (start stop : UInt64) (times : ℕ → Times) (s : Stream) : Stream :=
  let normalized := translate (times s.id) start stop
  { s with
    requestedPresentationInterval := normalized
    asked := .ofNative start stop normalized }

/-- The normalized times after the loop over all streams. -/
def lastNormalized (p : Playback) (start stop : UInt64) (times : ℕ → Times) : Interval :=
  match p.listOfStreams.getLast? with
  | none => translateStandard start stop
  | some s => translate (times s.id) start stop

/-- `SetPresentationInterval` for a playback, or for one of its streams.  The frame parsers go on with
their work, so their times may be any; a translation does not fail. -/
def setPresentationInterval (p : Playback) (stream : Option ℕ) (start stop : UInt64)
    (times : ℕ → Times) : Playback :=
  match stream with
  | some k =>
    { p with
      listOfStreams := p.listOfStreams.map fun s => if s.id = k then setStream start stop times s else s
      presentationIntervalReversalLimit := .absent }
  | none =>
    { p with
      listOfStreams := p.listOfStreams.map (setStream start stop times)
      presentationIntervalReversalLimit := .absent
      requestedPresentationInterval := p.lastNormalized start stop times
      asked := .ofNative start stop (p.lastNormalized start stop times) }

/-- The clamp of `SetPlaybackSpeed` at the time that is played; it is `INVALID_TIME` if the system time
cannot be translated. -/
def clamp (p : Playback) (direction : PlayDirection) (normalizedTimeAtStartOfDrain : UInt64) : Playback :=
  match direction with
  | .playForward =>
    { p with
      presentationIntervalReversalLimit :=
        { p.presentationIntervalReversalLimit with start := normalizedTimeAtStartOfDrain } }
  | .playBackward =>
    { p with
      presentationIntervalReversalLimit :=
        { p.presentationIntervalReversalLimit with stop := normalizedTimeAtStartOfDrain } }

/-- `SetPlaybackSpeed`: whether the policy is to clamp, and the time played. -/
def setPlaybackSpeed (p : Playback) (speed : Rat) (direction : PlayDirection) (policy : Bool)
    (now : Option UInt64) : Playback :=
  let p := { p with presentationIntervalReversalLimit := .absent }
  let p :=
    if p.direction ≠ direction then
      -- a playback that stands still is set going for the drain, by a call for its own direction
      let p := if p.speed = 0 then { p with presentationIntervalReversalLimit := .absent, speed := 1 } else p
      if policy then p.clamp direction (now.getD invalidTime) else p
    else p
  { p with speed := speed, direction := direction }

def getPresentationInterval (p : Playback) (s : Stream) : Interval where
  start :=
    let limit := p.presentationIntervalReversalLimit.start
    if limit = invalidTime then s.requestedPresentationInterval.start
    else max limit s.requestedPresentationInterval.start
  stop :=
    let limit := p.presentationIntervalReversalLimit.stop
    if limit = invalidTime then s.requestedPresentationInterval.stop
    else min limit s.requestedPresentationInterval.stop

end Playback

/-! ### Runs -/

/-- A call of the player.  A playback is named by its place in the list, a stream by its playback and its
number there; `none` stands for all of them. -/
inductive Call
  | createPlayback
  | addStream (playback : ℕ)
  | setPresentationInterval (playback : Option ℕ) (stream : Option (ℕ × ℕ))
      (intervalStartNativeTime intervalEndNativeTime : UInt64) (times : ℕ → Times)
  | setPlaybackSpeed (playback : ℕ) (speed : Rat) (direction : PlayDirection) (policy : Bool)
      (now : Option UInt64)
  | getPresentationInterval (playback stream : ℕ)

/-- The check of `SetPresentationInterval`. -/
def consistent (playback : Option ℕ) (stream : Option (ℕ × ℕ)) : Bool :=
  match stream with
  | none => playback.isSome
  | some s => playback.isNone || playback = some s.1

/-- A call.  `SetPresentationInterval` accepts a stream without its playback and looks for the streams of
that first, so that there is no state after it. -/
def step (player : List Playback) : Call → Option (List Playback)
  | .createPlayback => some (player ++ [createPlayback])
  | .addStream i => some (player.modify i Playback.addStream)
  | .setPresentationInterval playback stream start stop times =>
    if consistent playback stream then
      playback.map fun i =>
        player.modify i fun p => p.setPresentationInterval (stream.map Prod.snd) start stop times
    else some player
  | .setPlaybackSpeed i speed direction policy now =>
    some (player.modify i fun p => p.setPlaybackSpeed speed direction policy now)
  | .getPresentationInterval _ _ => some player

/-! ### The specification -/

/-- A time that is kept, unless it is `INVALID_TIME`. -/
def bound (t : UInt64) : Option ℕ := if t = invalidTime then none else some t.toNat

/-- The bounds that an interval stands for. -/
def Interval.bounds (i : Interval) : Bounds ℕ := ⟨bound i.start, bound i.stop⟩

/-- What is asked of a call: it returns, and the interval returned is the intersection of what was asked
for and the reversal limits. -/
def Meets (player : List Playback) (c : Call) : Prop :=
  match c with
  | .getPresentationInterval i k =>
    ∀ p ∈ player[i]?, ∀ s ∈ p.listOfStreams, s.id = k →
      (p.getPresentationInterval s).bounds = p.presentationIntervalReversalLimit.bounds.inter s.asked
  | c => (step player c).isSome

/-- The condition on a call.  For a bound that was not asked for, what is kept instead of it must lose
against the limit, and be `INVALID_TIME` where there is no limit. -/
def Fine (player : List Playback) (c : Call) : Prop :=
  match c with
  | .getPresentationInterval i k =>
    ∀ p ∈ player[i]?, ∀ s ∈ p.listOfStreams, s.id = k →
      (s.asked.start = none →
        if p.presentationIntervalReversalLimit.start = invalidTime then
          s.requestedPresentationInterval.start = invalidTime
        else s.requestedPresentationInterval.start ≤ p.presentationIntervalReversalLimit.start) ∧
      (s.asked.stop = none →
        if p.presentationIntervalReversalLimit.stop = invalidTime then
          s.requestedPresentationInterval.stop = invalidTime
        else p.presentationIntervalReversalLimit.stop ≤ s.requestedPresentationInterval.stop)
  | .setPresentationInterval playback stream _ _ _ => playback = none → stream = none
  | _ => True

/-! ### Single bounds -/

section

variable {limit requested : UInt64} {asked : Option ℕ}

theorem bound_of_ne (h : requested ≠ invalidTime) : bound requested = some requested.toNat := if_neg h

theorem bound_inj : bound limit = bound requested ↔ limit = requested := by
  constructor
  · intro h
    unfold bound at h
    split at h <;> split at h
    next hl hr => exact hl.trans hr.symm
    next => cases h
    next => cases h
    next => exact UInt64.toNat_inj.mp (Option.some.inj h)
  · rintro rfl
    rfl

/-- A bound that was asked for is kept. -/
def Tracks (requested : UInt64) (asked : Option ℕ) : Prop :=
  ∀ t, asked = some t → requested ≠ invalidTime ∧ requested.toNat = t

theorem toNat_max (a b : UInt64) : (max a b).toNat = max a.toNat b.toNat := by
  have hle := UInt64.le_iff_toNat_le (a := a) (b := b)
  rw [UInt64.max_def]
  split
  next h =>
    have hab := hle.mp h
    omega
  next h =>
    have hba := Nat.lt_of_not_le (hle.not.mp h)
    omega

theorem toNat_min (a b : UInt64) : (min a b).toNat = min a.toNat b.toNat := by
  have hle := UInt64.le_iff_toNat_le (a := a) (b := b)
  rw [UInt64.min_def]
  split
  next h =>
    have hab := hle.mp h
    omega
  next h =>
    have hba := Nat.lt_of_not_le (hle.not.mp h)
    omega

theorem start_iff (h : Tracks requested asked) :
    bound (if limit = invalidTime then requested else max limit requested) =
        .merge max (bound limit) asked ↔
      (asked = none →
        if limit = invalidTime then requested = invalidTime else requested ≤ limit) := by
  cases asked with
  | some t =>
    obtain ⟨hne, rfl⟩ := h t rfl
    refine iff_of_true ?_ nofun
    by_cases hlimit : limit = invalidTime
    · rw [if_pos hlimit, bound, bound, if_neg hne, if_pos hlimit, Option.merge_none_left]
    · have hmax : max limit requested ≠ invalidTime := by
        rw [UInt64.max_def]
        split
        · exact hne
        · exact hlimit
      rw [if_neg hlimit, bound_of_ne hmax, bound_of_ne hlimit, Option.merge_some_some, toNat_max]
  | none =>
    rw [Option.merge_none_right, bound_inj]
    by_cases hlimit : limit = invalidTime
    · simp [hlimit]
    · simp only [if_neg hlimit, forall_const]
      rw [← UInt64.toNat_inj, toNat_max, UInt64.le_iff_toNat_le]
      exact max_eq_left_iff

theorem stop_iff (h : Tracks requested asked) :
    bound (if limit = invalidTime then requested else min limit requested) =
        .merge min (bound limit) asked ↔
      (asked = none →
        if limit = invalidTime then requested = invalidTime else limit ≤ requested) := by
  cases asked with
  | some t =>
    obtain ⟨hne, rfl⟩ := h t rfl
    refine iff_of_true ?_ nofun
    by_cases hlimit : limit = invalidTime
    · rw [if_pos hlimit, bound, bound, if_neg hne, if_pos hlimit, Option.merge_none_left]
    · have hmin : min limit requested ≠ invalidTime := by
        rw [UInt64.min_def]
        split
        · exact hlimit
        · exact hne
      rw [if_neg hlimit, bound_of_ne hmin, bound_of_ne hlimit, Option.merge_some_some, toNat_min]
  | none =>
    rw [Option.merge_none_right, bound_inj]
    by_cases hlimit : limit = invalidTime
    · simp [hlimit]
    · simp only [if_neg hlimit, forall_const]
      rw [← UInt64.toNat_inj, toNat_min, UInt64.le_iff_toNat_le]
      exact min_eq_left_iff

end

/-! ### What is kept -/

theorem div_ne_invalidTime (x : UInt64) : x / 27 ≠ invalidTime := by
  intro h
  have hquot := congrArg UInt64.toNat h
  have hinvalid : invalidTime.toNat = 0xfeedfacedeadbeef := rfl
  have h27 : (27 : UInt64).toNat = 27 := rfl
  have hlt := x.toNat_lt
  rw [UInt64.toNat_div, hinvalid, h27] at hquot
  omega

/-- Both bounds that were asked for are kept. -/
structure Interval.Tracks (i : Interval) (asked : Bounds ℕ) : Prop where
  start : PresentationInterval.Tracks i.start asked.start
  stop : PresentationInterval.Tracks i.stop asked.stop

theorem Interval.tracks_ofNative {start stop : UInt64} {i : Interval}
    (hstart : start ≠ invalidTime → i.start ≠ invalidTime)
    (hstop : stop ≠ invalidTime → i.stop ≠ invalidTime) : i.Tracks (.ofNative start stop i) := by
  constructor
  · intro t ht
    unfold Bounds.ofNative at ht
    by_cases h : start = invalidTime
    · simp [h] at ht
    · rw [if_neg h] at ht
      exact ⟨hstart h, Option.some.inj ht⟩
  · intro t ht
    unfold Bounds.ofNative at ht
    by_cases h : stop = invalidTime
    · simp [h] at ht
    · rw [if_neg h] at ht
      exact ⟨hstop h, Option.some.inj ht⟩

theorem translate_tracks (t : Times) (start stop : UInt64) :
    (translate t start stop).Tracks (.ofNative start stop (translate t start stop)) :=
  Interval.tracks_ofNative (fun _ => div_ne_invalidTime _) (fun _ => div_ne_invalidTime _)

theorem translateStandard_tracks (start stop : UInt64) :
    (translateStandard start stop).Tracks (.ofNative start stop (translateStandard start stop)) := by
  refine Interval.tracks_ofNative (fun h => ?_) (fun h => ?_)
  · rw [translateStandard, if_neg h]
    exact div_ne_invalidTime _
  · rw [translateStandard, if_neg h]
    exact div_ne_invalidTime _

/-- A playback and its streams keep what was asked for. -/
structure Playback.Sound (p : Playback) : Prop where
  own : p.requestedPresentationInterval.Tracks p.asked
  streams : ∀ s ∈ p.listOfStreams, s.requestedPresentationInterval.Tracks s.asked

namespace Playback

variable {p : Playback}

theorem createPlayback_sound : createPlayback.Sound :=
  ⟨⟨nofun, nofun⟩, nofun⟩

theorem Sound.addStream (h : p.Sound) : p.addStream.Sound :=
  ⟨h.own, List.forall_mem_cons.mpr ⟨h.own, h.streams⟩⟩

theorem lastNormalized_tracks (start stop : UInt64) (times : ℕ → Times) :
    (p.lastNormalized start stop times).Tracks
      (.ofNative start stop (p.lastNormalized start stop times)) := by
  unfold lastNormalized
  split
  · exact translateStandard_tracks start stop
  · exact translate_tracks _ start stop

theorem Sound.setPresentationInterval (h : p.Sound) (stream : Option ℕ) (start stop : UInt64)
    (times : ℕ → Times) : (p.setPresentationInterval stream start stop times).Sound := by
  cases stream with
  | none =>
    refine ⟨lastNormalized_tracks start stop times, ?_⟩
    intro s hs
    obtain ⟨s, -, rfl⟩ := List.mem_map.mp hs
    exact translate_tracks _ start stop
  | some k =>
    refine ⟨h.own, ?_⟩
    intro s hs
    obtain ⟨s, hmem, rfl⟩ := List.mem_map.mp hs
    split
    · exact translate_tracks _ start stop
    · exact h.streams s hmem

theorem Sound.clamp (h : p.Sound) (direction : PlayDirection) (time : UInt64) :
    (p.clamp direction time).Sound := by
  cases direction <;> exact ⟨h.own, h.streams⟩

theorem Sound.setPlaybackSpeed (h : p.Sound) (speed : Rat) (direction : PlayDirection) (policy : Bool)
    (now : Option UInt64) : (p.setPlaybackSpeed speed direction policy now).Sound := by
  unfold Playback.setPlaybackSpeed
  extract_lets erased started clamped
  have herased : erased.Sound := ⟨h.own, h.streams⟩
  have hstarted : started.Sound := by
    unfold started
    split
    · exact ⟨herased.own, herased.streams⟩
    · exact herased
  have hclamped : clamped.Sound := by
    unfold clamped
    split
    · split
      · exact hstarted.clamp direction _
      · exact hstarted
    · exact herased
  exact ⟨hclamped.own, hclamped.streams⟩

end Playback

theorem forall_mem_modify {ι : Type} {q : ι → Prop} {f : ι → ι} (hf : ∀ x, q x → q (f x)) {l : List ι}
    (h : ∀ x ∈ l, q x) (i : ℕ) : ∀ x ∈ l.modify i f, q x := by
  intro x hx
  obtain ⟨j, hj⟩ := List.mem_iff_getElem?.mp hx
  rw [List.getElem?_modify] at hj
  obtain ⟨y, hy, rfl⟩ := Option.map_eq_some_iff.mp hj
  have hmem := h y (List.mem_of_getElem? hy)
  split
  · exact hf y hmem
  · exact hmem

theorem step_sound {player player' : List Playback} {c : Call} (h : ∀ p ∈ player, p.Sound)
    (hstep : step player c = some player') : ∀ p ∈ player', p.Sound := by
  cases c with
  | createPlayback =>
    obtain rfl := Option.some.inj hstep
    rw [List.forall_mem_append]
    exact ⟨h, List.forall_mem_singleton.mpr Playback.createPlayback_sound⟩
  | addStream i =>
    obtain rfl := Option.some.inj hstep
    exact forall_mem_modify (fun p hp => hp.addStream) h i
  | setPresentationInterval playback stream start stop times =>
    rw [step] at hstep
    split at hstep
    · obtain ⟨i, -, rfl⟩ := Option.map_eq_some_iff.mp hstep
      exact forall_mem_modify (fun p hp => hp.setPresentationInterval _ start stop times) h i
    · obtain rfl := Option.some.inj hstep
      exact h
  | setPlaybackSpeed i speed direction policy now =>
    obtain rfl := Option.some.inj hstep
    exact forall_mem_modify (fun p hp => hp.setPlaybackSpeed speed direction policy now) h i
  | getPresentationInterval i k =>
    obtain rfl := Option.some.inj hstep
    exact h

/-! ### Exactness -/

theorem getPresentationInterval_iff {p : Playback} {s : Stream}
    (h : s.requestedPresentationInterval.Tracks s.asked) :
    (p.getPresentationInterval s).bounds = p.presentationIntervalReversalLimit.bounds.inter s.asked ↔
      (s.asked.start = none →
        if p.presentationIntervalReversalLimit.start = invalidTime then
          s.requestedPresentationInterval.start = invalidTime
        else s.requestedPresentationInterval.start ≤ p.presentationIntervalReversalLimit.start) ∧
      (s.asked.stop = none →
        if p.presentationIntervalReversalLimit.stop = invalidTime then
          s.requestedPresentationInterval.stop = invalidTime
        else p.presentationIntervalReversalLimit.stop ≤ s.requestedPresentationInterval.stop) := by
  rw [Bounds.inter, Interval.bounds, Bounds.mk.injEq]
  exact and_congr (start_iff h.start) (stop_iff h.stop)

theorem step_meets_iff {player : List Playback} {c : Call} (h : ∀ p ∈ player, p.Sound) :
    Meets player c ↔ Fine player c := by
  cases c with
  | createPlayback => exact iff_of_true rfl trivial
  | addStream i => exact iff_of_true rfl trivial
  | setPlaybackSpeed i speed direction policy now => exact iff_of_true rfl trivial
  | setPresentationInterval playback stream start stop times =>
    change (step player _).isSome = true ↔ (playback = none → stream = none)
    rw [step]
    cases playback <;> cases stream <;> simp [consistent]
    split <;> rfl
  | getPresentationInterval i k =>
    refine forall_congr' fun p => forall_congr' fun hp => forall_congr' fun s => forall_congr' fun hs => ?_
    have hsound := h p (List.mem_of_getElem? hp)
    exact forall_congr' fun _ => getPresentationInterval_iff (hsound.streams s hs)

/-- **The presentation interval**: exactly the sequences of calls that meet the condition are answered with
the intersection of what was asked for and the reversal limits. -/
theorem presentation_iff (calls : List Call) :
    Lts.Along step Meets [] calls ↔ Lts.Along step Fine [] calls := by
  refine Lts.along_iff_of_keeping (R := fun _ _ => True) (J := fun player => ∀ p ∈ player, p.Sound)
    ?_ ?_ nofun (Lts.along_true [] calls)
  · intro player c player' h _ _ hstep
    exact step_sound h hstep
  · intro player c h _
    exact step_meets_iff h

instance (player : List Playback) (c : Call) : Decidable (Meets player c) :=
  match c with
  | .getPresentationInterval i k =>
    inferInstanceAs (Decidable (∀ p ∈ player[i]?, ∀ s ∈ p.listOfStreams, s.id = k →
      (p.getPresentationInterval s).bounds = p.presentationIntervalReversalLimit.bounds.inter s.asked))
  | .createPlayback => inferInstanceAs (Decidable (_ = true))
  | .addStream _ => inferInstanceAs (Decidable (_ = true))
  | .setPresentationInterval _ _ _ _ _ => inferInstanceAs (Decidable (_ = true))
  | .setPlaybackSpeed _ _ _ _ _ => inferInstanceAs (Decidable (_ = true))

/-- Play is reversed and reversed again; the limit for the start does not take effect. -/
theorem not_presentation : ¬ Lts.Along step Meets []
    [.createPlayback, .addStream 0, .setPlaybackSpeed 0 1 .playBackward true (some 2000),
      .setPlaybackSpeed 0 1 .playForward true (some 1000), .getPresentationInterval 0 0] := by
  decide +kernel

end Player2.PresentationInterval

import Mathlib.Tactic.Linarith
import Mathlib.Tactic.Ring
import Mathlib.Algebra.BigOperators.Group.List.Basic
import Mathlib.Data.List.Infix
import Player2.NativeTime

/-! # Synthesized playback times of audio frames

An audio frame that comes without a playback time is given the time of the frame before it plus the
duration of that frame, in whole microseconds; the part of the duration that is lost in the division
goes into an accumulated error.  The lost part is counted in units of one microsecond over the
sampling frequency, but it is compared with the sampling frequency times 1000000, so the carry
comes only when a million microseconds are lost.

`given_real` says what the time is over a whole run: the time of the first frame, the whole
durations and the carries, unless the time became `unspecifiedTime` on the way, where it stays.
Therefore the times keep within a microsecond of the ideal ones exactly while less than two
microseconds are lost altogether (`Tracks`). -/

namespace Player2.AudioTimes

open NativeTime (invalidTime unspecifiedTime validTime translatePlaybackTimeNormalizedToNative)

/-! ### The source -/

/-- The playback times of `ParsedFrameParameters`. -/
structure ParsedFrame where
  normalizedPlaybackTime : UInt64
  nativePlaybackTime : UInt64
deriving DecidableEq

/-- The fields of `FrameParser_Audio_c` that deal with time. -/
structure Audio where
  lastNormalizedPlaybackTime : UInt64
  nextFrameNormalizedPlaybackTime : UInt64
  nextFramePlaybackTimeAccumulatedError : UInt64
  ptsJitterTollerenceThreshold : Int64
deriving DecidableEq

namespace Audio

def handleInvalidPlaybackTime (a : Audio) (_ : ParsedFrame) : ParsedFrame where
  normalizedPlaybackTime := a.nextFrameNormalizedPlaybackTime
  nativePlaybackTime :=
    if validTime a.nextFrameNormalizedPlaybackTime then
      translatePlaybackTimeNormalizedToNative a.nextFrameNormalizedPlaybackTime
    else a.nextFrameNormalizedPlaybackTime

/-- The change of playback time is reported as unexpected. -/
def unexpectedChange (a : Audio) (p : ParsedFrame) : Bool :=
  let realDelta := (p.normalizedPlaybackTime - a.lastNormalizedPlaybackTime).toInt64
  let syntheticDelta :=
    (a.nextFrameNormalizedPlaybackTime - a.lastNormalizedPlaybackTime).toInt64
  let deltaDelta := realDelta - syntheticDelta
  a.lastNormalizedPlaybackTime != unspecifiedTime &&
    (decide (deltaDelta < -a.ptsJitterTollerenceThreshold) ||
      decide (deltaDelta > a.ptsJitterTollerenceThreshold))

/-- `HandleCurrentFrameNormalizedPlaybackTime`, with whether it reports an unexpected change. -/
def handleCurrentFrameNormalizedPlaybackTime (a : Audio) (p : ParsedFrame) :
    Audio × ParsedFrame × Bool :=
  if p.normalizedPlaybackTime = invalidTime then (a, a.handleInvalidPlaybackTime p, false)
  else ({ a with nextFramePlaybackTimeAccumulatedError := 0 }, p, a.unexpectedChange p)

/-- The whole microseconds that a frame takes. -/
def frameDuration (sampleCount samplingFrequency : UInt32) : UInt64 :=
  sampleCount.toUInt64 * 1000000 / samplingFrequency.toUInt64

def generateNextFrameNormalizedPlaybackTime (a : Audio) (p : ParsedFrame)
    (sampleCount samplingFrequency : UInt32) : Audio :=
  if p.normalizedPlaybackTime = unspecifiedTime then a
  else
    let frameDuration := frameDuration sampleCount samplingFrequency
    let next := p.normalizedPlaybackTime + frameDuration
    let error := a.nextFramePlaybackTimeAccumulatedError +
      (sampleCount.toUInt64 * 1000000 - frameDuration * samplingFrequency.toUInt64)
    if error > samplingFrequency.toUInt64 * 1000000 then
      { a with
        lastNormalizedPlaybackTime := p.normalizedPlaybackTime
        nextFrameNormalizedPlaybackTime := next + 1
        nextFramePlaybackTimeAccumulatedError := error - samplingFrequency.toUInt64 * 1000000 }
    else
      { a with
        lastNormalizedPlaybackTime := p.normalizedPlaybackTime
        nextFrameNormalizedPlaybackTime := next
        nextFramePlaybackTimeAccumulatedError := error }

/-- One frame, as `ReadHeaders` of a parser handles it. -/
def frame (a : Audio) (p : ParsedFrame) (sampleCount samplingFrequency : UInt32) :
    Audio × ParsedFrame :=
  let handled := a.handleCurrentFrameNormalizedPlaybackTime p
  (handled.1.generateNextFrameNormalizedPlaybackTime handled.2.1 sampleCount samplingFrequency,
    handled.2.1)

end Audio

/-- A frame that comes without a playback time. -/
def missing : ParsedFrame := ⟨invalidTime, invalidTime⟩

/-- The normalized time that a frame is given, when it comes after a frame with the times of `p` and
frames without one, with the sample counts `samples`. -/
def given (f : UInt32) : Audio → ParsedFrame → List UInt32 → UInt64
  | a, p, [] => (a.handleCurrentFrameNormalizedPlaybackTime p).2.1.normalizedPlaybackTime
  | a, p, s :: samples => given f (a.frame p s f).1 missing samples

/-! ### The specification -/

/-- The whole microseconds that frames take, each by itself. -/
def durations (f : UInt32) (samples : List UInt32) : ℕ :=
  (samples.map fun s => s.toNat * 1000000 / f.toNat).sum

/-- What is lost in these, in units of one microsecond over the sampling frequency. -/
def lost (f : UInt32) (samples : List UInt32) : ℕ :=
  (samples.map fun s => s.toNat * 1000000 % f.toNat).sum

/-- The ideal time after the samples. -/
def ideal (pts : UInt64) (f : UInt32) (samples : List UInt32) : ℕ :=
  pts.toNat + (samples.map UInt32.toNat).sum * 1000000 / f.toNat

/-- A time is within a microsecond of another. -/
def Within (t : UInt64) (x : ℕ) : Prop := |(t.toNat : ℤ) - x| ≤ 1

instance (t : UInt64) (x : ℕ) : Decidable (Within t x) := inferInstanceAs (Decidable (_ ≤ _))

/-- The times of the run track the ideal ones: less than two microseconds are lost in it, the times
stay in 64 bits, and no frame is given the time that stands for an unspecified one, where the
times stop, until a microsecond before the end. -/
def Tracks (pts : UInt64) (f : UInt32) (samples : List UInt32) : Prop :=
  lost f samples < 2 * f.toNat ∧ pts.toNat + durations f samples < 2 ^ 64 ∧
    ∀ before, before <+: samples → before ≠ samples →
      pts.toNat + durations f before = unspecifiedTime.toNat →
        ideal pts f samples ≤ unspecifiedTime.toNat + 1

theorem unspecifiedTime_lt : unspecifiedTime.toNat + 1 < 2 ^ 64 := by decide

/-! ### Durations -/

@[simp] theorem durations_nil (f : UInt32) : durations f [] = 0 := rfl

@[simp] theorem durations_cons (f s : UInt32) (samples : List UInt32) :
    durations f (s :: samples) = s.toNat * 1000000 / f.toNat + durations f samples := by
  simp [durations]

@[simp] theorem lost_nil (f : UInt32) : lost f [] = 0 := rfl

@[simp] theorem lost_cons (f s : UInt32) (samples : List UInt32) :
    lost f (s :: samples) = s.toNat * 1000000 % f.toNat + lost f samples := by
  simp [lost]

theorem durations_append (f : UInt32) (xs ys : List UInt32) :
    durations f (xs ++ ys) = durations f xs + durations f ys := by
  simp [durations]

theorem lost_append (f : UInt32) (xs ys : List UInt32) :
    lost f (xs ++ ys) = lost f xs + lost f ys := by
  simp [lost]

variable {f : UInt32} {xs ys samples : List UInt32}

theorem durations_le (h : xs <+: ys) :
    durations f xs ≤ durations f ys := by
  obtain ⟨zs, rfl⟩ := h
  rw [durations_append]
  omega

theorem lost_le (h : xs <+: ys) : lost f xs ≤ lost f ys := by
  obtain ⟨zs, rfl⟩ := h
  rw [lost_append]
  omega

theorem sum_eq (f : UInt32) (samples : List UInt32) :
    (samples.map UInt32.toNat).sum * 1000000 = durations f samples * f.toNat + lost f samples := by
  induction samples with
  | nil => simp
  | cons s samples ih =>
    have hs := Nat.div_add_mod' (s.toNat * 1000000) f.toNat
    rw [durations_cons, lost_cons, Nat.add_mul, ← Nat.add_assoc, Nat.add_right_comm _ _ (_ % _),
      hs, Nat.add_assoc, ← ih, ← Nat.add_mul]
    simp

theorem ideal_eq (hf : 0 < f.toNat) (pts : UInt64) (samples : List UInt32) :
    ideal pts f samples = pts.toNat + durations f samples + lost f samples / f.toNat := by
  rw [ideal, sum_eq, Nat.add_comm (_ * _), Nat.add_mul_div_right _ _ hf]
  omega

theorem ideal_le (hf : 0 < f.toNat) (pts : UInt64)
    (h : xs <+: ys) : ideal pts f xs ≤ ideal pts f ys := by
  rw [ideal_eq hf, ideal_eq hf]
  have hd := durations_le (f := f) h
  have hl := Nat.div_le_div_right (c := f.toNat) (lost_le (f := f) h)
  omega

/-! ### One frame -/

theorem toNat_samples (s : UInt32) : (s.toUInt64 * 1000000).toNat = s.toNat * 1000000 := by
  have hs := s.toNat_lt
  rw [UInt64.toNat_mul, UInt32.toNat_toUInt64]
  change s.toNat * 1000000 % 2 ^ 64 = _
  omega

theorem toNat_frameDuration (s f : UInt32) :
    (Audio.frameDuration s f).toNat = s.toNat * 1000000 / f.toNat := by
  rw [Audio.frameDuration, UInt64.toNat_div, toNat_samples, UInt32.toNat_toUInt64]

theorem toNat_error {e : UInt64} (s : UInt32) (hf : 0 < f.toNat)
    (he : e.toNat ≤ f.toNat * 1000000) :
    (e + (s.toUInt64 * 1000000 - Audio.frameDuration s f * f.toUInt64)).toNat =
      e.toNat + s.toNat * 1000000 % f.toNat := by
  have hdiv := Nat.div_add_mod' (s.toNat * 1000000) f.toNat
  have hlt := f.toNat_lt
  have hslt := s.toNat_lt
  have hmul : (Audio.frameDuration s f * f.toUInt64).toNat =
      s.toNat * 1000000 / f.toNat * f.toNat := by
    rw [UInt64.toNat_mul, toNat_frameDuration, UInt32.toNat_toUInt64, Nat.mod_eq_of_lt]
    omega
  have hsub : (s.toUInt64 * 1000000 - Audio.frameDuration s f * f.toUInt64).toNat =
      s.toNat * 1000000 % f.toNat := by
    rw [UInt64.toNat_sub_of_le, toNat_samples, hmul]
    · omega
    · rw [UInt64.le_iff_toNat_le, toNat_samples, hmul]
      omega
  rw [UInt64.toNat_add, hsub, Nat.mod_eq_of_lt]
  omega

variable {a : Audio} {p : ParsedFrame}

/-- The time after a frame is its time and its duration, perhaps with a carry, which is taken out of
the accumulated error. -/
theorem generate_next (s : UInt32) (hf : 0 < f.toNat)
    (he : a.nextFramePlaybackTimeAccumulatedError.toNat ≤ f.toNat * 1000000)
    (hp : p.normalizedPlaybackTime ≠ unspecifiedTime) {x : ℕ}
    (hx : p.normalizedPlaybackTime.toNat = x % 2 ^ 64) :
    let a' := a.generateNextFrameNormalizedPlaybackTime p s f
    ∃ carry,
      a'.nextFrameNormalizedPlaybackTime.toNat =
        (x + s.toNat * 1000000 / f.toNat + carry) % 2 ^ 64 ∧
      a'.nextFramePlaybackTimeAccumulatedError.toNat + carry * (f.toNat * 1000000) =
        a.nextFramePlaybackTimeAccumulatedError.toNat + s.toNat * 1000000 % f.toNat ∧
      a'.nextFramePlaybackTimeAccumulatedError.toNat ≤ f.toNat * 1000000 := by
  have herror := toNat_error s hf he
  have hnext : (p.normalizedPlaybackTime + Audio.frameDuration s f).toNat =
      (x + s.toNat * 1000000 / f.toNat) % 2 ^ 64 := by
    rw [UInt64.toNat_add, toNat_frameDuration, hx, Nat.mod_add_mod]
  have hmod := Nat.mod_lt (s.toNat * 1000000) hf
  simp only [Audio.generateNextFrameNormalizedPlaybackTime, if_neg hp]
  split
  · rename_i hcarry
    rw [gt_iff_lt, UInt64.lt_iff_toNat_lt, toNat_samples, herror] at hcarry
    refine ⟨1, ?_, ?_, ?_⟩
    · rw [UInt64.toNat_add, hnext, Nat.mod_add_mod]
      rfl
    all_goals
      rw [UInt64.toNat_sub_of_le _ _ (by
        rw [UInt64.le_iff_toNat_le, toNat_samples, herror]
        omega), toNat_samples, herror]
      omega
  · rename_i hcarry
    rw [gt_iff_lt, UInt64.lt_iff_toNat_lt, toNat_samples, herror] at hcarry
    refine ⟨0, ?_, ?_, ?_⟩
    · rw [hnext, Nat.add_zero]
    · rw [herror]
      omega
    · rw [herror]
      omega

/-! ### A run of frames -/

theorem handle_missing (a : Audio) :
    a.handleCurrentFrameNormalizedPlaybackTime missing =
      (a, a.handleInvalidPlaybackTime missing, false) := by
  simp [Audio.handleCurrentFrameNormalizedPlaybackTime, missing]

theorem handle_real (a : Audio) (hp : p.normalizedPlaybackTime ≠ invalidTime) :
    a.handleCurrentFrameNormalizedPlaybackTime p =
      ({ a with nextFramePlaybackTimeAccumulatedError := 0 }, p, a.unexpectedChange p) := by
  simp [Audio.handleCurrentFrameNormalizedPlaybackTime, hp]

theorem given_unspecified (samples : List UInt32)
    (ha : a.nextFrameNormalizedPlaybackTime = unspecifiedTime) :
    given f a missing samples = unspecifiedTime := by
  induction samples with
  | nil => rw [given, handle_missing, Audio.handleInvalidPlaybackTime, ha]
  | cons s samples ih =>
    have hframe : (a.frame missing s f).1 = a := by
      simp [Audio.frame, handle_missing, Audio.handleInvalidPlaybackTime,
        Audio.generateNextFrameNormalizedPlaybackTime, ha]
    rw [given, hframe, ih]

/-- Over a run of frames the durations add up, with the carries, unless a frame is given the
unspecified time on the way. -/
theorem given_missing (hf : 0 < f.toNat) (samples : List UInt32) :
    ∀ (a : Audio) (x : ℕ), a.nextFrameNormalizedPlaybackTime.toNat = x % 2 ^ 64 →
      a.nextFramePlaybackTimeAccumulatedError.toNat ≤ f.toNat * 1000000 →
      ∃ before carries, before <+: samples ∧
        carries * (f.toNat * 1000000) ≤
          a.nextFramePlaybackTimeAccumulatedError.toNat + lost f before ∧
        (given f a missing samples).toNat = (x + durations f before + carries) % 2 ^ 64 ∧
        (before ≠ samples → given f a missing samples = unspecifiedTime) := by
  induction samples with
  | nil =>
    intro a x hx he
    refine ⟨[], 0, List.prefix_rfl, by simp, ?_, fun h => absurd rfl h⟩
    rw [given, handle_missing]
    simpa [Audio.handleInvalidPlaybackTime] using hx
  | cons s samples ih =>
    intro a x hx he
    by_cases hstop : a.nextFrameNormalizedPlaybackTime = unspecifiedTime
    · have hgiven := given_unspecified (f := f) (s :: samples) hstop
      refine ⟨[], 0, List.nil_prefix, by simp, ?_, fun _ => hgiven⟩
      rw [hgiven, ← hstop]
      simpa using hx
    · obtain ⟨carry, hnext, herror, hle⟩ :=
        generate_next (a := a) (p := a.handleInvalidPlaybackTime missing) s hf he hstop hx
      have hframe : (a.frame missing s f).1 =
          a.generateNextFrameNormalizedPlaybackTime (a.handleInvalidPlaybackTime missing) s f := by
        rw [Audio.frame, handle_missing]
      rw [← hframe] at hnext herror hle
      obtain ⟨before, carries, hbefore, hcarries, hgiven, hstop⟩ := ih _ _ hnext hle
      refine ⟨s :: before, carry + carries, ?_, ?_, ?_, ?_⟩
      · exact List.cons_prefix_cons.mpr ⟨rfl, hbefore⟩
      · rw [Nat.add_mul, lost_cons]
        omega
      · rw [given, hgiven, durations_cons]
        congr 1
        omega
      · intro hne
        exact hstop fun h => hne (by rw [h])

theorem given_real (hf : 0 < f.toNat) (a : Audio)
    (hp : validTime p.normalizedPlaybackTime) (samples : List UInt32) :
    ∃ before carries, before <+: samples ∧
      carries * (f.toNat * 1000000) ≤ lost f before ∧
      (given f a p samples).toNat =
        (p.normalizedPlaybackTime.toNat + durations f before + carries) % 2 ^ 64 ∧
      (before ≠ samples → given f a p samples = unspecifiedTime) := by
  have hvalid : p.normalizedPlaybackTime ≠ invalidTime ∧
      p.normalizedPlaybackTime ≠ unspecifiedTime := by
    simpa [validTime] using hp
  have hlt : p.normalizedPlaybackTime.toNat = p.normalizedPlaybackTime.toNat % 2 ^ 64 :=
    (Nat.mod_eq_of_lt p.normalizedPlaybackTime.toNat_lt).symm
  cases samples with
  | nil =>
    refine ⟨[], 0, List.prefix_rfl, by simp, ?_, fun h => absurd rfl h⟩
    rw [given, handle_real a hvalid.1]
    simp
  | cons s samples =>
    let reset := { a with nextFramePlaybackTimeAccumulatedError := 0 }
    obtain ⟨carry, hnext, herror, hle⟩ :=
      generate_next (a := reset) s hf (Nat.zero_le _) hvalid.2 hlt
    have hframe : (a.frame p s f).1 =
        reset.generateNextFrameNormalizedPlaybackTime p s f := by
      rw [Audio.frame, handle_real a hvalid.1]
    rw [← hframe] at hnext herror hle
    obtain ⟨before, carries, hbefore, hcarries, hgiven, hstop⟩ :=
      given_missing hf samples _ _ hnext hle
    have hzero : reset.nextFramePlaybackTimeAccumulatedError.toNat = 0 := rfl
    refine ⟨s :: before, carry + carries, ?_, ?_, ?_, ?_⟩
    · exact List.cons_prefix_cons.mpr ⟨rfl, hbefore⟩
    · rw [Nat.add_mul, lost_cons]
      omega
    · rw [given, hgiven, durations_cons]
      congr 1
      omega
    · intro hne
      exact hstop fun h => hne (by rw [h])

theorem given_append (xs ys : List UInt32) :
    ∀ a : Audio, given f a missing xs = unspecifiedTime →
      given f a missing (xs ++ ys) = unspecifiedTime := by
  induction xs with
  | nil =>
    intro a ha
    rw [given, handle_missing] at ha
    exact given_unspecified ys ha
  | cons x xs ih =>
    intro a ha
    exact ih _ ha

theorem given_stops (hp : validTime p.normalizedPlaybackTime) (h : xs <+: ys)
    (hxs : given f a p xs = unspecifiedTime) : given f a p ys = unspecifiedTime := by
  have hvalid : p.normalizedPlaybackTime ≠ invalidTime ∧
      p.normalizedPlaybackTime ≠ unspecifiedTime := by
    simpa [validTime] using hp
  obtain ⟨zs, rfl⟩ := h
  cases xs with
  | nil =>
    rw [given, handle_real a hvalid.1] at hxs
    exact absurd hxs hvalid.2
  | cons x xs => exact given_append xs zs _ hxs

/-! ### The times of a run -/

/-- A million microseconds carried are a million microseconds lost, so the carries never make up
for two microseconds. -/
theorem carries_le {carries n : ℕ} (hf : 0 < f.toNat)
    (h : carries * (f.toNat * 1000000) ≤ n) :
    carries ≤ n / f.toNat / 1000000 := by
  rw [Nat.div_div_eq_div_mul, Nat.le_div_iff_mul_le (by positivity)]
  exact h

theorem lost_lt_iff (hf : 0 < f.toNat) (samples : List UInt32) :
    lost f samples < 2 * f.toNat ↔ lost f samples / f.toNat < 2 :=
  (Nat.div_lt_iff_lt_mul hf).symm

theorem given_of_lost (hf : 0 < f.toNat) (a : Audio)
    (hp : validTime p.normalizedPlaybackTime)
    (hlost : lost f samples < 2 * f.toNat)
    (hsmall : p.normalizedPlaybackTime.toNat + durations f samples < 2 ^ 64) :
    ∃ before, before <+: samples ∧
      (given f a p samples).toNat = p.normalizedPlaybackTime.toNat + durations f before ∧
      (before ≠ samples → given f a p samples = unspecifiedTime) := by
  obtain ⟨before, carries, hbefore, hcarries, hgiven, hstop⟩ := given_real hf a hp samples
  have hcarry := carries_le hf hcarries
  have hdurations := durations_le (f := f) hbefore
  have hbound := Nat.div_le_div_right (c := f.toNat) (lost_le (f := f) hbefore)
  rw [lost_lt_iff hf] at hlost
  have hzero : carries = 0 := by omega
  refine ⟨before, hbefore, ?_, hstop⟩
  omega

/-- A time within a microsecond of the ideal one has less than two microseconds lost before it, and
the ideal time is in 64 bits up to a microsecond. -/
theorem lost_of_within (hf : 0 < f.toNat) (a : Audio)
    (hp : validTime p.normalizedPlaybackTime)
    (h : Within (given f a p samples) (ideal p.normalizedPlaybackTime f samples)) :
    lost f samples < 2 * f.toNat ∧
      p.normalizedPlaybackTime.toNat + durations f samples < 2 ^ 64 := by
  obtain ⟨before, carries, hbefore, hcarries, hgiven, hstop⟩ := given_real hf a hp samples
  have hcarry := carries_le hf hcarries
  have hdurations := durations_le (f := f) hbefore
  have hbound := Nat.div_le_div_right (c := f.toNat) (lost_le (f := f) hbefore)
  have hideal := ideal_eq hf p.normalizedPlaybackTime samples
  unfold Within at h
  rw [abs_le] at h
  have hmod : (given f a p samples).toNat =
      p.normalizedPlaybackTime.toNat + durations f before + carries := by
    omega
  rw [lost_lt_iff hf]
  refine ⟨by omega, ?_⟩
  by_cases hall : before = samples
  · rw [← hall]
    omega
  · have hlast := unspecifiedTime_lt
    rw [← hstop hall] at hlast
    omega

theorem within_iff_tracks (hf : 0 < f.toNat) (a : Audio)
    (hp : validTime p.normalizedPlaybackTime) (samples : List UInt32) :
    Within (given f a p samples) (ideal p.normalizedPlaybackTime f samples) ↔
      Tracks p.normalizedPlaybackTime f samples := by
  have hideal := ideal_eq hf p.normalizedPlaybackTime samples
  constructor
  · intro h
    obtain ⟨hlost, hsmall⟩ := lost_of_within hf a hp h
    refine ⟨hlost, hsmall, fun before hbefore _ hunspecified => ?_⟩
    -- the frame after these is given the unspecified time, and so are all that follow
    obtain ⟨earlier, hearlier, hgiven, hstop⟩ := given_of_lost hf a hp
      (lt_of_le_of_lt (lost_le hbefore) hlost)
      (lt_of_le_of_lt (Nat.add_le_add_left (durations_le hbefore) _) hsmall)
    have hreached : given f a p before = unspecifiedTime := by
      by_cases hall : earlier = before
      · rw [← UInt64.toNat_inj, hgiven, hall, hunspecified]
      · exact hstop hall
    unfold Within at h
    rw [given_stops hp hbefore hreached, abs_le] at h
    omega
  · rintro ⟨hlost, hsmall, hunspecified⟩
    obtain ⟨before, hbefore, hgiven, hstop⟩ := given_of_lost hf a hp hlost hsmall
    have hdurations := durations_le (f := f) hbefore
    unfold Within
    rw [abs_le]
    rw [lost_lt_iff hf] at hlost
    generalize lost f samples / f.toNat = whole at hideal hlost
    by_cases hall : before = samples
    · rw [hall] at hgiven
      omega
    · have hreached := hunspecified before hbefore hall (by rw [← hgiven, hstop hall])
      rw [hstop hall] at hgiven ⊢
      omega

theorem Tracks.of_prefix {pts : UInt64} (hf : 0 < f.toNat)
    (hys : Tracks pts f ys) (h : xs <+: ys) : Tracks pts f xs := by
  refine ⟨lt_of_le_of_lt (lost_le h) hys.1,
    lt_of_le_of_lt (Nat.add_le_add_left (durations_le h) _) hys.2.1, ?_⟩
  intro before hbefore hne hunspecified
  refine le_trans (ideal_le hf pts h) (hys.2.2 before (hbefore.trans h) ?_ hunspecified)
  rintro rfl
  exact hne (hbefore.eq_of_length_le h.length_le)

/-- In a run of frames that follow one with a playback time, every frame is given a time within a
microsecond of the ideal one just when the run tracks. -/
theorem times_within_iff (f : UInt32) (hf : 0 < f) (a : Audio) (p : ParsedFrame)
    (hp : validTime p.normalizedPlaybackTime) (samples : List UInt32) :
    (∀ taken, taken <+: samples →
        Within (given f a p taken) (ideal p.normalizedPlaybackTime f taken)) ↔
      Tracks p.normalizedPlaybackTime f samples := by
  have hpos : 0 < f.toNat := UInt32.lt_iff_toNat_lt.mp hf
  constructor
  · intro h
    exact (within_iff_tracks hpos a hp samples).mp (h samples List.prefix_rfl)
  · intro h taken htaken
    exact (within_iff_tracks hpos a hp taken).mpr (h.of_prefix hpos htaken)

/-- Four frames of 1152 samples at 44100 Hz. -/
theorem times_within_iff_mpeg :
    (∀ taken, taken <+: List.replicate 4 1152 →
        Within (given 44100 ⟨unspecifiedTime, unspecifiedTime, 0, 1000⟩ ⟨0, 0⟩ taken)
          (ideal 0 44100 taken)) ↔
      Tracks 0 44100 (List.replicate 4 1152) :=
  times_within_iff 44100 (by decide) ⟨unspecifiedTime, unspecifiedTime, 0, 1000⟩ ⟨0, 0⟩ (by decide)
    (List.replicate 4 1152)

/-- The sixth of such frames is two microseconds early. -/
theorem not_times_within :
    ¬ ∀ (f : UInt32) (a : Audio) (p : ParsedFrame) (samples : List UInt32), 0 < f →
      validTime p.normalizedPlaybackTime → (∀ s ∈ samples, 0 < s) →
        ∀ taken, taken <+: samples →
          Within (given f a p taken) (ideal p.normalizedPlaybackTime f taken) := by
  intro h
  exact absurd (h 44100 ⟨unspecifiedTime, unspecifiedTime, 0, 1000⟩ ⟨0, 0⟩ (List.replicate 5 1152)
    (by decide) (by decide) (by simp) _ List.prefix_rfl) (by decide +kernel)

end Player2.AudioTimes

import Mathlib.Data.List.Chain
import Mathlib.Data.Nat.Bitwise
import Mathlib.Algebra.Order.Ring.Abs
import Mathlib.Algebra.Order.Group.Unbundled.Int
import Player2.Alignment

/-! # Native and normalized times

Native playback times are 33 bit counts of a 90 kHz clock, normalized times are 64 bit counts of
microseconds.  `FrameParser_Base_c` keeps a baseline that counts the wraps of the native times; it
is adjusted when two successive times lie in the last and the first quarter of the 33 bit range.

The specification has no wraps: `unwrap x n` is the time nearest to the time `x` that `n` can stand
for, over the integers, and `unwrapped` unwraps a sequence of times one after the other.  The
baseline and the native time add up to the unwrapped time modulo 2⁶⁴ (`Times.Represents`).  The
conversion to microseconds is on unsigned words, so it is right exactly while the unwrapped time is
`Representable`; in particular times before the first wrap backward are not. -/

namespace Player2.NativeTime

/-! ### The source -/

def invalidTime : UInt64 := 0xfeedfacedeadbeef
def unspecifiedTime : UInt64 := invalidTime + 1

def validTime (t : UInt64) : Bool := t != invalidTime && t != unspecifiedTime

/-- The fields of the frame parser, and the last native time of the playback it belongs to. -/
structure Times where
  nativeTimeBaseLine : UInt64
  lastNativeTimeUsedInBaseline : UInt64
  lastNativeTime : UInt64
deriving DecidableEq

namespace Times

/-- The base line for the first native time. -/
def settle (t : Times) (nativeTime : UInt64) : Times :=
  if t.lastNativeTimeUsedInBaseline = invalidTime then
    { t with
      nativeTimeBaseLine :=
        if validTime t.lastNativeTime then
          (t.lastNativeTime - nativeTime + 0x0000000100000000) &&& 0xfffffffe00000000
        else 0
      lastNativeTimeUsedInBaseline := nativeTime }
  else t

/-- The base line after a wrap, forward or reverse. -/
def adjust (t : Times) (nativeTime : UInt64) : Times :=
  let wrapMask : UInt64 := 0x0000000180000000
  let wrapOffset : UInt64 := 0x0000000200000000
  { t with
    nativeTimeBaseLine :=
      if t.lastNativeTimeUsedInBaseline &&& wrapMask = wrapMask ∧ nativeTime &&& wrapMask = 0 then
        t.nativeTimeBaseLine + wrapOffset
      else if t.lastNativeTimeUsedInBaseline &&& wrapMask = 0 ∧ nativeTime &&& wrapMask = wrapMask then
        t.nativeTimeBaseLine - wrapOffset
      else t.nativeTimeBaseLine
    lastNativeTimeUsedInBaseline := nativeTime }

def translatePlaybackTimeNativeToNormalized (t : Times) (nativeTime : UInt64) : Times × UInt64 :=
  let t := (t.settle nativeTime).adjust nativeTime
  ({ t with lastNativeTime := t.nativeTimeBaseLine + nativeTime },
    ((t.nativeTimeBaseLine + nativeTime) * 300 + 13) / 27)

/-- A sequence of native times, each with the normalized time it is given. -/
def translated : Times → List UInt64 → List (UInt64 × UInt64)
  | _, [] => []
  | t, nativeTime :: rest =>
    let r := t.translatePlaybackTimeNativeToNormalized nativeTime
    (nativeTime, r.2) :: translated r.1 rest

end Times

def translatePlaybackTimeNormalizedToNative (normalized : UInt64) : UInt64 :=
  (normalized * 27 + 150) / 300 &&& 0x00000001ffffffff

/-! ### The specification -/

/-- A native time. -/
def Native (n : UInt64) : Prop := n.toNat < 2 ^ 33

/-- The signed difference of two native times, modulo 2³³. -/
def difference (a b : UInt64) : ℤ := Int.bmod (b.toNat - a.toNat) (2 ^ 33)

/-- Two successive native times are less than a quarter of the range apart. -/
def Close (a b : UInt64) : Prop := |difference a b| < 2 ^ 31

/-- Successive times keep their distance, in microseconds, up to a unit. -/
def Spaced (p q : UInt64 × UInt64) : Prop :=
  |27 * ((q.2.toNat : ℤ) - p.2.toNat) - 300 * difference p.1 q.1| ≤ 27

/-- The normalized time gives the native one back, up to a tick. -/
def Returns (p : UInt64 × UInt64) : Prop :=
  |difference p.1 (translatePlaybackTimeNormalizedToNative p.2)| ≤ 1

/-- A sequence of native times is translated as it should be. -/
def Faithful (ps : List (UInt64 × UInt64)) : Prop := ps.IsChain Spaced ∧ ∀ p ∈ ps, Returns p

/-- The time nearest to `x` that the native time can stand for. -/
def unwrap (x : ℤ) (nativeTime : UInt64) : ℤ := x - Int.bmod (x - nativeTime.toNat) (2 ^ 33)

/-- Unwrap a sequence of native times, each next to the one before. -/
def unwrapped : ℤ → List UInt64 → List ℤ
  | _, [] => []
  | x, nativeTime :: rest => unwrap x nativeTime :: unwrapped (unwrap x nativeTime) rest

/-- The time that the first native time is unwrapped next to. -/
def Times.origin (t : Times) (nativeTime : UInt64) : ℤ :=
  if validTime t.lastNativeTime then t.lastNativeTime.toNat else nativeTime.toNat

/-- The conversion of the time to microseconds does not leave 64 bits.  The times modulo 2⁶²
are a matter of the modulus: `300 * 2 ^ 62` is a multiple of 2⁶⁴. -/
def Representable (x : ℤ) : Prop := x % 2 ^ 62 < 61489146912365172

/-! ### The masks -/

theorem toNat_and_wrapMask {n : UInt64} (hn : Native n) :
    (n &&& 0x0000000180000000).toNat = n.toNat / 2 ^ 31 * 2 ^ 31 := by
  have hmask := Alignment.and_shiftLeft_mask n.toNat 31 2
  have hquarter : n.toNat / 2 ^ 31 < 2 ^ 2 := by
    unfold Native at hn
    omega
  rw [Nat.shiftRight_eq_div_pow, Nat.mod_eq_of_lt hquarter] at hmask
  have hconst : (0x0000000180000000 : UInt64).toNat = (2 ^ 2 - 1) <<< 31 := by decide
  rw [UInt64.toNat_and, hconst, hmask, Nat.shiftLeft_eq]

theorem and_wrapMask_eq_wrapMask {n : UInt64} (hn : Native n) :
    n &&& 0x0000000180000000 = 0x0000000180000000 ↔ 3 * 2 ^ 31 ≤ n.toNat := by
  rw [← UInt64.toNat_inj, toNat_and_wrapMask hn]
  unfold Native at hn
  change _ = 6442450944 ↔ _
  omega

theorem and_wrapMask_eq_zero {n : UInt64} (hn : Native n) :
    n &&& 0x0000000180000000 = 0 ↔ n.toNat < 2 ^ 31 := by
  rw [← UInt64.toNat_inj, toNat_and_wrapMask hn]
  change _ = 0 ↔ _
  omega

theorem toNat_and_lineMask (n : UInt64) :
    (n &&& 0xfffffffe00000000).toNat = n.toNat / 2 ^ 33 * 2 ^ 33 := by
  have hmask := Alignment.and_shiftLeft_mask n.toNat 33 31
  have hlt := n.toNat_lt
  have hhigh : n.toNat / 2 ^ 33 < 2 ^ 31 := by omega
  rw [Nat.shiftRight_eq_div_pow, Nat.mod_eq_of_lt hhigh] at hmask
  have hconst : (0xfffffffe00000000 : UInt64).toNat = (2 ^ 31 - 1) <<< 33 := by decide
  rw [UInt64.toNat_and, hconst, hmask, Nat.shiftLeft_eq]

/-! ### The base line counts the wraps -/

theorem bmod_two_pow (x : ℤ) : Int.bmod x (2 ^ 33) = (x + 2 ^ 32) % 2 ^ 33 - 2 ^ 32 := by
  unfold Int.bmod
  dsimp only
  split <;> omega

/-- Base line and last native time add up to `x` modulo 2⁶⁴. -/
structure Times.Represents (t : Times) (x : ℤ) : Prop where
  nativeTime : Native t.lastNativeTimeUsedInBaseline
  line : t.nativeTimeBaseLine.toNat % 2 ^ 33 = 0
  sum : ((t.nativeTimeBaseLine.toNat : ℤ) + t.lastNativeTimeUsedInBaseline.toNat) % 2 ^ 64 =
    x % 2 ^ 64

namespace Times

theorem ne_invalidTime {n : UInt64} (hn : Native n) : n ≠ invalidTime := by
  rintro rfl
  unfold Native at hn
  exact absurd hn (by decide)

theorem Represents.settle {t : Times} {x : ℤ} (h : t.Represents x) (nativeTime : UInt64) :
    t.settle nativeTime = t := by
  rw [Times.settle, if_neg (ne_invalidTime h.nativeTime)]

theorem settle_represents {t : Times} (ht : t.lastNativeTimeUsedInBaseline = invalidTime)
    {nativeTime : UInt64} (hn : Native nativeTime) :
    (t.settle nativeTime).Represents (unwrap (t.origin nativeTime) nativeTime) := by
  rw [Times.settle, if_pos ht]
  unfold Native at hn
  cases hv : validTime t.lastNativeTime with
  | false =>
    have hunwrap : unwrap (t.origin nativeTime) nativeTime = nativeTime.toNat := by
      simp [unwrap, origin, hv]
    rw [hunwrap]
    exact ⟨hn, by simp, by simp⟩
  | true =>
    have hsum : (t.lastNativeTime - nativeTime + 0x0000000100000000).toNat =
        (2 ^ 64 - nativeTime.toNat + t.lastNativeTime.toNat + 2 ^ 32) % 2 ^ 64 := by
      rw [UInt64.toNat_add, UInt64.toNat_sub]
      change (_ + 4294967296) % _ = _
      omega
    rw [unwrap, origin, if_pos hv, bmod_two_pow]
    refine ⟨hn, ?_, ?_⟩
    · rw [if_pos rfl, toNat_and_lineMask, hsum]
      omega
    · rw [if_pos rfl, toNat_and_lineMask, hsum]
      dsimp only
      omega

/-- **One native time**: the base line follows the wrap. -/
theorem adjust_represents {t : Times} {x : ℤ} (h : t.Represents x) {nativeTime : UInt64}
    (hn : Native nativeTime) (hclose : Close t.lastNativeTimeUsedInBaseline nativeTime) :
    (t.adjust nativeTime).Represents (unwrap x nativeTime) := by
  have hadd : (t.nativeTimeBaseLine + 0x0000000200000000).toNat =
      (t.nativeTimeBaseLine.toNat + 2 ^ 33) % 2 ^ 64 := UInt64.toNat_add _ _
  have hsub : (t.nativeTimeBaseLine - 0x0000000200000000).toNat =
      (2 ^ 64 - 2 ^ 33 + t.nativeTimeBaseLine.toNat) % 2 ^ 64 := UInt64.toNat_sub _ _
  obtain ⟨hlast, hline, hx⟩ := h
  unfold Close difference at hclose
  rw [bmod_two_pow, abs_lt] at hclose
  unfold adjust unwrap
  simp only [and_wrapMask_eq_wrapMask hlast, and_wrapMask_eq_wrapMask hn,
    and_wrapMask_eq_zero hlast, and_wrapMask_eq_zero hn, bmod_two_pow]
  unfold Native at hn hlast
  refine ⟨hn, ?_, ?_⟩
  · dsimp only
    split
    · omega
    · split <;> omega
  · dsimp only
    split
    · omega
    · split <;> omega

end Times

/-! ### The conversions -/

section conversion
variable {u v : UInt64} {x y : ℤ}

/-- The conversion to microseconds. -/
def normalized (u : UInt64) : UInt64 := (u * 300 + 13) / 27

theorem normalized_spec (u : UInt64) : ∃ q r : ℕ, r < 27 ∧
    u.toNat % 2 ^ 62 * 300 + 13 = q * 2 ^ 64 + 27 * (normalized u).toNat + r ∧
      27 * (normalized u).toNat + r < 2 ^ 64 := by
  have hvalue : (normalized u).toNat = (u.toNat * 300 % 2 ^ 64 + 13) % 2 ^ 64 / 27 := by
    unfold normalized
    rw [UInt64.toNat_div, UInt64.toNat_add, UInt64.toNat_mul]
    rfl
  refine ⟨(u.toNat % 2 ^ 62 * 300 + 13) / 2 ^ 64,
    (u.toNat * 300 % 2 ^ 64 + 13) % 2 ^ 64 % 27, ?_, ?_, ?_⟩ <;> omega

theorem native_spec (n : UInt64) :
    (translatePlaybackTimeNormalizedToNative n).toNat =
      (n.toNat * 27 % 2 ^ 64 + 150) % 2 ^ 64 / 300 % 2 ^ 33 := by
  have hmask := Nat.and_two_pow_sub_one_eq_mod ((n.toNat * 27 % 2 ^ 64 + 150) % 2 ^ 64 / 300) 33
  have hconst : (0x00000001ffffffff : UInt64).toNat = 2 ^ 33 - 1 := by decide
  unfold translatePlaybackTimeNormalizedToNative
  rw [UInt64.toNat_and, hconst, UInt64.toNat_div, UInt64.toNat_add, UInt64.toNat_mul, ← hmask]
  rfl

/-- The way back in integers: `b` is `w` up to what the roundings and the overflows lose. -/
structure Roundtrip (q e w b : ℤ) : Prop where
  rounding : 0 ≤ e ∧ e < 326
  overflow_nonneg : 0 ≤ q
  range : 0 ≤ w ∧ w < 2 ^ 62
  balance : 300 * b + e = 300 * w + 163 - q * 2 ^ 64
  fits : 0 ≤ b ∧ 300 * b + e < 2 ^ 64 + 27

theorem native_normalized_spec (u : UInt64) : ∃ q e b : ℤ,
    Roundtrip q e ((u.toNat : ℤ) % 2 ^ 62) b ∧
      ((translatePlaybackTimeNormalizedToNative (normalized u)).toNat : ℤ) = b % 2 ^ 33 := by
  obtain ⟨q, r, hr, hq, hlt⟩ := normalized_spec u
  have hw := Nat.mod_lt u.toNat (show 0 < 2 ^ 62 by decide)
  have hfit : (normalized u).toNat * 27 % 2 ^ 64 = (normalized u).toNat * 27 :=
    Nat.mod_eq_of_lt (by omega)
  rw [native_spec, hfit]
  generalize (normalized u).toNat = n at hq hlt
  have hback := Nat.div_add_mod ((n * 27 + 150) % 2 ^ 64) 300
  have hsmall := Nat.mod_lt ((n * 27 + 150) % 2 ^ 64) (show 0 < 300 by decide)
  have hlast := Nat.mod_lt (n * 27 + 150) (show 0 < 2 ^ 64 by decide)
  have hover := Nat.div_add_mod (n * 27 + 150) (2 ^ 64)
  generalize (n * 27 + 150) % 2 ^ 64 = c at hback hsmall hlast hover ⊢
  refine ⟨(q + (n * 27 + 150) / 2 ^ 64 : ℕ), (r + c % 300 : ℕ), (c / 300 : ℕ),
    ⟨⟨?_, ?_⟩, ?_, ⟨?_, ?_⟩, ?_, ?_, ?_⟩, ?_⟩ <;> omega

theorem Roundtrip.near_iff {q e w b : ℤ} (h : Roundtrip q e w b) :
    |Int.bmod (b % 2 ^ 33 - w % 2 ^ 33) (2 ^ 33)| ≤ 1 ↔ w < 61489146912365172 := by
  obtain ⟨⟨he0, he⟩, hq, ⟨hw0, hw⟩, hbalance, hb0, hb⟩ := h
  rw [bmod_two_pow, abs_le]
  constructor
  · intro hnear
    obtain ⟨m, d, hd, hm⟩ : ∃ m d : ℤ, b - w = d + 2 ^ 33 * m ∧ -1 ≤ d ∧ d ≤ 1 :=
      ⟨b / 2 ^ 33 - w / 2 ^ 33 + (b % 2 ^ 33 - w % 2 ^ 33 + 2 ^ 32) / 2 ^ 33,
        (b % 2 ^ 33 - w % 2 ^ 33 + 2 ^ 32) % 2 ^ 33 - 2 ^ 32, by omega, by omega, by omega⟩
    have hcancel : 75 * m + q * 2 ^ 29 = 0 := by omega
    have hfew : q ≤ 74 := by
      omega
    have hdvd : (75 : ℤ) ∣ q * 2 ^ 29 :=
      ⟨-m, (eq_neg_of_add_eq_zero_right hcancel).trans (Int.mul_neg 75 m).symm⟩
    have hzero : q = 0 :=
      Int.eq_zero_of_dvd_of_nonneg_of_lt hq (Int.lt_add_one_of_le hfew)
        (Int.dvd_of_dvd_mul_left_of_gcd_one hdvd (by decide))
    omega
  · intro hrep
    have hzero : q = 0 := by omega
    have hsame : b = w := by omega
    rw [hsame]
    omega

theorem returns_iff {nativeTime : UInt64} (hu : u.toNat % 2 ^ 33 = nativeTime.toNat) :
    Returns (nativeTime, normalized u) ↔ Representable u.toNat := by
  obtain ⟨q, e, b, h, hback⟩ := native_normalized_spec u
  have hnative : (nativeTime.toNat : ℤ) = (u.toNat : ℤ) % 2 ^ 62 % 2 ^ 33 := by omega
  rw [Returns, difference, hback, hnative]
  exact h.near_iff

theorem normalized_spaced {d : ℤ} (hd : |d| < 2 ^ 31) (hu : Representable u.toNat)
    (hv : Representable v.toNat) (huv : (u.toNat + d) % 2 ^ 64 = v.toNat) :
    |27 * (((normalized v).toNat : ℤ) - (normalized u).toNat) - 300 * d| ≤ 27 := by
  obtain ⟨q, r, hr, hq, hlt⟩ := normalized_spec u
  obtain ⟨q', r', hr', hq', hlt'⟩ := normalized_spec v
  unfold Representable at hu hv
  rw [abs_lt] at hd
  have hstep : (v.toNat : ℤ) % 2 ^ 62 = u.toNat % 2 ^ 62 + d := by omega
  have hzero : q = 0 := by omega
  have hzero' : q' = 0 := by omega
  rw [abs_le]
  omega

end conversion

/-! ### Sequences of native times -/

theorem representable_congr {x y : ℤ} (h : x % 2 ^ 64 = y % 2 ^ 64) :
    Representable x ↔ Representable y := by
  have hmod : x % 2 ^ 62 = y % 2 ^ 62 := by omega
  rw [Representable, Representable, hmod]

theorem unwrap_unwrap (x : ℤ) (nativeTime : UInt64) :
    unwrap (unwrap x nativeTime) nativeTime = unwrap x nativeTime := by
  unfold unwrap
  rw [bmod_two_pow, bmod_two_pow]
  omega

theorem difference_self (n : UInt64) : difference n n = 0 := by
  rw [difference, bmod_two_pow]
  omega

namespace Times
section
variable {t : Times} {x : ℤ}

/-- The word that is converted. -/
def time (t : Times) : UInt64 := t.nativeTimeBaseLine + t.lastNativeTimeUsedInBaseline

theorem Represents.time (h : t.Represents x) : (t.time.toNat : ℤ) % 2 ^ 64 = x % 2 ^ 64 := by
  rw [← h.sum, Times.time, UInt64.toNat_add]
  omega

theorem Represents.time_native (h : t.Represents x) :
    t.time.toNat % 2 ^ 33 = t.lastNativeTimeUsedInBaseline.toNat := by
  have hline := h.line
  have hnative := h.nativeTime
  unfold Native at hnative
  rw [Times.time, UInt64.toNat_add]
  omega

/-- The pair of a native and a normalized time that was made last. -/
def last (t : Times) : UInt64 × UInt64 := (t.lastNativeTimeUsedInBaseline, normalized t.time)

theorem Represents.returns_iff (h : t.Represents x) : Returns t.last ↔ Representable x := by
  rw [last, NativeTime.returns_iff h.time_native]
  apply representable_congr
  exact h.time

theorem translate_represents (h : t.Represents x) {nativeTime : UInt64} (hn : Native nativeTime)
    (hclose : Close t.lastNativeTimeUsedInBaseline nativeTime) :
    (t.translatePlaybackTimeNativeToNormalized nativeTime).1.Represents (unwrap x nativeTime) ∧
      (nativeTime, (t.translatePlaybackTimeNativeToNormalized nativeTime).2) =
        (t.translatePlaybackTimeNativeToNormalized nativeTime).1.last := by
  have hadjust := adjust_represents h hn hclose
  rw [translatePlaybackTimeNativeToNormalized, h.settle]
  exact ⟨⟨hadjust.nativeTime, hadjust.line, hadjust.sum⟩, rfl⟩

theorem Represents.spaced (h : t.Represents x) {nativeTime : UInt64} {t' : Times}
    (h' : t'.Represents (unwrap x nativeTime)) (hlast : t'.lastNativeTimeUsedInBaseline = nativeTime)
    (hclose : Close t.lastNativeTimeUsedInBaseline nativeTime) (hx : Representable x)
    (hx' : Representable (unwrap x nativeTime)) : Spaced t.last t'.last := by
  have htime := h.time
  have htime' := h'.time
  refine normalized_spaced ?_ ((representable_congr htime).mpr hx)
    ((representable_congr htime').mpr hx') ?_
  · rw [last, last, hlast]
    exact hclose
  · have hlt := t'.time.toNat_lt
    have hmod := h.time_native
    unfold Close at hclose
    dsimp only [last]
    rw [hlast]
    unfold difference at hclose ⊢
    unfold unwrap at htime'
    rw [bmod_two_pow] at hclose htime' ⊢
    rw [abs_lt] at hclose
    omega

theorem translated_returns_iff (natives : List UInt64) (h : t.Represents x)
    (hn : ∀ n ∈ natives, Native n)
    (hclose : (t.lastNativeTimeUsedInBaseline :: natives).IsChain Close) :
    (∀ p ∈ t.translated natives, Returns p) ↔ ∀ y ∈ unwrapped x natives, Representable y := by
  induction natives generalizing t x with
  | nil => simp [translated, unwrapped]
  | cons nativeTime rest ih =>
    obtain ⟨hnative, hrest⟩ := List.forall_mem_cons.mp hn
    obtain ⟨hclose, hchain⟩ := List.isChain_cons_cons.mp hclose
    obtain ⟨h', heq⟩ := translate_represents h hnative hclose
    rw [translated, unwrapped, List.forall_mem_cons, List.forall_mem_cons, heq, h'.returns_iff]
    exact and_congr_right fun _ => ih h' hrest hchain

theorem translated_spaced (natives : List UInt64) (h : t.Represents x)
    (hn : ∀ n ∈ natives, Native n)
    (hclose : (t.lastNativeTimeUsedInBaseline :: natives).IsChain Close) (hx : Representable x)
    (hrep : ∀ y ∈ unwrapped x natives, Representable y) :
    (t.last :: t.translated natives).IsChain Spaced := by
  induction natives generalizing t x with
  | nil => exact List.isChain_singleton _
  | cons nativeTime rest ih =>
    obtain ⟨hnative, hrest⟩ := List.forall_mem_cons.mp hn
    obtain ⟨hclose, hchain⟩ := List.isChain_cons_cons.mp hclose
    obtain ⟨hx', hrep⟩ := List.forall_mem_cons.mp hrep
    obtain ⟨h', heq⟩ := translate_represents h hnative hclose
    rw [translated, heq, List.isChain_cons_cons]
    constructor
    · exact h.spaced h' rfl hclose hx hx'
    · exact ih h' hrest hchain hx' hrep

end

theorem translated_settle {t : Times} (ht : t.lastNativeTimeUsedInBaseline = invalidTime)
    {nativeTime : UInt64} (hn : Native nativeTime) (rest : List UInt64) :
    t.translated (nativeTime :: rest) = (t.settle nativeTime).translated (nativeTime :: rest) := by
  have hsettle := (settle_represents ht hn).settle nativeTime
  rw [translated, translated, translatePlaybackTimeNativeToNormalized,
    translatePlaybackTimeNativeToNormalized, hsettle]

end Times

/-- **Translating native times**: a sequence of native times that are close to one another is
translated as it should be exactly if all the unwrapped times are representable. -/
theorem translated_faithful_iff {t : Times} (ht : t.lastNativeTimeUsedInBaseline = invalidTime)
    {nativeTime : UInt64} {rest : List UInt64} (hn : ∀ n ∈ nativeTime :: rest, Native n)
    (hclose : (nativeTime :: rest).IsChain Close) :
    Faithful (t.translated (nativeTime :: rest)) ↔
      ∀ x ∈ unwrapped (t.origin nativeTime) (nativeTime :: rest), Representable x := by
  have hnative := hn nativeTime List.mem_cons_self
  have h := Times.settle_represents ht hnative
  have hlast : (t.settle nativeTime).lastNativeTimeUsedInBaseline = nativeTime := by
    rw [Times.settle, if_pos ht]
  have hchain :
      ((t.settle nativeTime).lastNativeTimeUsedInBaseline :: nativeTime :: rest).IsChain Close := by
    rw [hlast, List.isChain_cons_cons]
    refine ⟨?_, hclose⟩
    rw [Close, difference_self]
    decide
  have hunwrapped : unwrapped (unwrap (t.origin nativeTime) nativeTime) (nativeTime :: rest) =
      unwrapped (t.origin nativeTime) (nativeTime :: rest) := by
    rw [unwrapped, unwrapped, unwrap_unwrap]
  have hreturns := Times.translated_returns_iff (nativeTime :: rest) h hn hchain
  rw [hunwrapped] at hreturns
  rw [Times.translated_settle ht hnative, Faithful, hreturns]
  constructor
  · exact And.right
  · intro hrep
    refine ⟨?_, hrep⟩
    have hspaced := Times.translated_spaced (nativeTime :: rest) h hn hchain
      (hrep _ List.mem_cons_self) (hunwrapped ▸ hrep)
    exact hspaced.tail

/-- The times of a frame parser and a playback that are new. -/
def Times.start : Times := ⟨0, invalidTime, invalidTime⟩

/-- A wrap backward before any wrap forward. -/
theorem not_translated_faithful_wrap_backward :
    (∀ n ∈ ([0, 0x1ffffffff] : List UInt64), Native n) ∧
      ([0, 0x1ffffffff] : List UInt64).IsChain Close ∧
        ¬ Faithful (Times.start.translated [0, 0x1ffffffff]) := by
  refine ⟨?_, ?_, ?_⟩
  · rw [List.forall_mem_cons, List.forall_mem_singleton]
    unfold Native
    decide +kernel
  · unfold Close
    decide +kernel
  · rintro ⟨-, hreturns⟩
    have hlast := hreturns (0x1ffffffff, (Times.start.translated [0, 0x1ffffffff])[1].2) (by decide)
    revert hlast
    unfold Returns
    decide +kernel

/-- A wrap forward and one backward. -/
theorem translated_faithful_two_wraps :
    Faithful (Times.start.translated [0x1fffffff0, 0x10, 0x1fffffff0]) := by
  refine (translated_faithful_iff rfl ?_ ?_).mpr ?_
  · rw [List.forall_mem_cons, List.forall_mem_cons, List.forall_mem_singleton]
    unfold Native
    decide +kernel
  · unfold Close
    decide +kernel
  · unfold Representable
    decide +kernel

end Player2.NativeTime

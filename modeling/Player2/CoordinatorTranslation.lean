import Mathlib.Algebra.Order.Group.Unbundled.Int
import Mathlib.Algebra.Order.Ring.Abs
import Mathlib.Order.Monotone.Basic
import Player2.CoordinatorWaiting

/-! # Translating playback time to system time

`TranslatePlaybackTimeToSystem` moves the base of the mapping when the elapsed time is large, to the time
that it has just translated.  The base of the master goes with that of a stream whose system base is the
same, whether or not the two have the same playback base: a stream that has not followed a jump yet drags
the master back to where it was before.

Even for one mapping alone the move is seen.  An elapsed time goes through an operator that takes an `int`,
so a mapping repeats itself every 2³² microseconds of playback time.  If it were the same from both bases,
up to a microsecond, it would be additive up to a microsecond, and then it would not come back to where it
started (`orbit_eq_zero`).  So a call leaves the mappings as they were exactly when it does not move a base
(`translate_unmoved`). -/

namespace Player2.OutputCoordinator

open Lts

/-! ### Mappings as functions -/

/-- The mapping of a stream or of the master, as a function; `none` where none is established. -/
def mappingOf (s : OutputCoordinator) (c : Option ℕ) (t : UInt64) : Option UInt64 :=
  (s.translatePlaybackTimeToSystem c t).2

/-- The same up to one microsecond. -/
def near : Option UInt64 → Option UInt64 → Prop
  | some a, some b => a - b = 0 ∨ a - b = 1 ∨ b - a = 1
  | none, none => True
  | _, _ => False

/-- A call leaves all mappings as they were. -/
def Unmoved (s : OutputCoordinator) (c : Option ℕ) (t : UInt64) : Prop :=
  ∀ c' u, near (s.mappingOf c' u) ((s.translatePlaybackTimeToSystem c t).1.mappingOf c' u)

/-- A call moves a base: the mapping is established and the elapsed system time is large. -/
def Moves (s : OutputCoordinator) (c : Option ℕ) (t : UInt64) : Prop :=
  s.masterTimeMappingEstablished = true ∧
    match c with
    | none => s.rebases s.masterBaseNormalizedPlaybackTime t = true
    | some c => ∃ x ∈ s.context c, x.timeMappingEstablished = true ∧
        s.rebases x.baseNormalizedPlaybackTime t = true

instance (s : OutputCoordinator) (c : Option ℕ) (t : UInt64) : Decidable (s.Moves c t) :=
  match c with
  | none => inferInstanceAs (Decidable (_ ∧ s.rebases _ _ = true))
  | some c => inferInstanceAs (Decidable (_ ∧ ∃ x ∈ s.context c, _ ∧ s.rebases _ _ = true))

/-- The speed is not negative and a fraction of 32-bit numbers, and so is the adjustment, which is at least
one half. -/
structure SaneClock (s : OutputCoordinator) : Prop where
  speed_positive : s.speed.negative = false
  speed_lt : s.speed.numerator.toNat < 2 ^ 32
  adjustment_pos : 0 < s.systemClockAdjustment.numerator.toNat
  adjustment_lt : s.systemClockAdjustment.denominator.toNat < 2 ^ 32
  adjustment_le : s.systemClockAdjustment.denominator.toNat ≤
    2 * s.systemClockAdjustment.numerator.toNat

/-! ### Words -/

theorem signed_eq (t : UInt64) :
    signed t = if t.toNat < 2 ^ 63 then (t.toNat : ℤ) else t.toNat - 2 ^ 64 := by
  have h : signed t = t.toBitVec.toInt := rfl
  rw [h, BitVec.toInt_eq_toNat_cond]
  have e : t.toBitVec.toNat = t.toNat := rfl
  rw [e]
  split <;> split <;> omega

theorem toNat_ofInt_numerator (v : Int32) : (Rational.ofInt v).numerator.toNat ≤ 2 ^ 31 := by
  have h1 := v.toInt_lt
  have h2 := v.le_toInt
  have hs : signed (Rational.wordOf v) = v.toInt := Int32.toInt_toInt64 v
  rw [signed_eq] at hs
  have hl := (Rational.wordOf v).toNat_lt
  unfold Rational.ofInt
  dsimp only
  split
  next h =>
    have hv : v.toInt < 0 := by simpa [Int32.lt_iff_toInt_lt] using h
    rw [UInt64.toNat_neg]
    have h64 : UInt64.size = 2 ^ 64 := rfl
    rw [h64]
    split at hs
    · omega
    · omega
  next h =>
    have hv : 0 ≤ v.toInt := by simpa [Int32.lt_iff_toInt_lt] using h
    split at hs
    · omega
    · omega

variable {a b t d : UInt64}

/-- Rounding a quotient adds at most one, whether or not a common factor is divided out before. -/
theorem part_le (f : UInt64) (neg : Bool) (ha : a.toNat < 2 ^ 63) (hb : 0 < b.toNat) :
    let r := Rational.ofFactor a b f neg
    ((r.numerator + r.denominator / 2) / r.denominator).toNat ≤ a.toNat / b.toNat + 1 := by
  have hround : ∀ n d : ℕ, 0 < d → (n + d / 2) / d ≤ n / d + 1 := by
    intro n d hd
    have : n + d / 2 ≤ n + d := by omega
    calc (n + d / 2) / d ≤ (n + d) / d := Nat.div_le_div_right this
      _ = n / d + 1 := Nat.add_div_right n hd
  have hword : ∀ n d : UInt64, n.toNat < 2 ^ 63 → 0 < d.toNat →
      ((n + d / 2) / d).toNat ≤ n.toNat / d.toNat + 1 := by
    intro n d hn hd
    have hl := d.toNat_lt
    have h2 : (2 : UInt64).toNat = 2 := rfl
    rw [UInt64.toNat_div, UInt64.toNat_add, UInt64.toNat_div, h2, Nat.mod_eq_of_lt (by omega)]
    exact hround _ _ hd
  unfold Rational.ofFactor
  split
  next h =>
    obtain ⟨hf, h1, h2⟩ := h
    have hf0 : 0 < f.toNat := by
      rcases Nat.eq_zero_or_pos f.toNat with h | h
      · exact absurd (UInt64.toNat_inj.mp h) hf
      · exact h
    have e1 : f.toNat * (a / f).toNat = a.toNat := by
      have := congrArg UInt64.toNat h1
      rw [UInt64.toNat_mul, UInt64.toNat_div] at this
      rw [UInt64.toNat_div]
      rw [Nat.mod_eq_of_lt (Nat.lt_of_le_of_lt (Nat.mul_div_le _ _) a.toNat_lt)] at this
      exact this
    have e2 : f.toNat * (b / f).toNat = b.toNat := by
      have := congrArg UInt64.toNat h2
      rw [UInt64.toNat_mul, UInt64.toNat_div] at this
      rw [Nat.mod_eq_of_lt (Nat.lt_of_le_of_lt (Nat.mul_div_le _ _) b.toNat_lt)] at this
      exact this
    have hb' : 0 < (b / f).toNat := by
      rcases Nat.eq_zero_or_pos (b / f).toNat with h | h
      · rw [h, Nat.mul_zero] at e2
        omega
      · exact h
    have ha' : (a / f).toNat < 2 ^ 63 := by
      exact Nat.lt_of_le_of_lt (Nat.div_le_self _ _) ha
    refine (hword _ _ ha' hb').trans ?_
    rw [← e1, ← e2, Nat.mul_div_mul_left _ _ hf0]
  · exact hword a b ha hb

theorem signed_sub (h : -2 ^ 63 ≤ signed a - signed b)
    (h' : signed a - signed b < 2 ^ 63) :
    signed (a - b) = signed a - signed b := by
  have e : signed (a - b) = (signed a - signed b).bmod (2 ^ 64) := by
    unfold signed
    rw [UInt64.toInt64_sub, Int64.toInt_sub]
  rw [e]
  exact Int.bmod_eq_of_le (by omega) (by omega)

theorem signed_inj (h : signed a = signed b) : a = b := by
  have ha := a.toNat_lt
  have hb := b.toNat_lt
  rw [signed_eq, signed_eq] at h
  apply UInt64.toNat_inj.mp
  split at h <;> split at h <;> omega

/-! ### The elapsed time -/

variable {s : OutputCoordinator}

theorem elapsedSystemTime_of_low (h : t.toUInt32 = 0) :
    s.elapsedSystemTime t = s.elapsedSystemTime 0 := by
  have hneg : (if s.playBackward then -t else t).toUInt32 =
      (if s.playBackward then -(0 : UInt64) else 0).toUInt32 := by
    split
    · rw [UInt64.toUInt32_neg, h]
      rfl
    · rw [h]
      rfl
  unfold elapsedSystemTime speedScale
  dsimp only
  generalize (if s.playBackward then -t else t) = u at hneg
  generalize (if s.playBackward then -(0 : UInt64) else 0) = z at hneg
  have hint : Rational.intOf u = Rational.intOf z := by
    unfold Rational.intOf
    rw [hneg]
  split
  · rw [hint]
  · rw [hint]

theorem elapsedSystemTime_bound (hc : s.SaneClock) (t : UInt64) :
    |signed (s.elapsedSystemTime t)| ≤ 2 ^ 33 := by
  unfold elapsedSystemTime
  generalize Rational.intOf (s.speedScale t) = v
  have hv := toNat_ofInt_numerator v
  have hm := hc.adjustment_lt
  have hle := hc.adjustment_le
  have hpos := hc.adjustment_pos
  generalize s.systemClockAdjustment = f at hm hle hpos
  have hmul : (Rational.ofInt v).numerator.toNat * f.denominator.toNat ≤ 2 ^ 31 * f.denominator.toNat :=
    Nat.mul_le_mul_right _ hv
  have ha : ((Rational.ofInt v).numerator * f.denominator).toNat =
      (Rational.ofInt v).numerator.toNat * f.denominator.toNat := by
    rw [UInt64.toNat_mul]
    exact Nat.mod_eq_of_lt (by omega)
  have hq : (Rational.ofInt v).numerator.toNat * f.denominator.toNat / f.numerator.toNat ≤ 2 ^ 32 := by
    refine Nat.div_le_of_le_mul ?_
    calc (Rational.ofInt v).numerator.toNat * f.denominator.toNat
        ≤ 2 ^ 31 * f.denominator.toNat := hmul
      _ ≤ f.numerator.toNat * 2 ^ 32 := by omega
  obtain ⟨factor, neg, e⟩ := intDiv_eq v f
  have hpart := part_le factor neg (show ((Rational.ofInt v).numerator *
    f.denominator).toNat < 2 ^ 63 by omega) hpos
  have hword : ∀ p : UInt64, p.toNat ≤ 2 ^ 32 + 1 → |signed p| ≤ 2 ^ 33 ∧ |signed (-p)| ≤ 2 ^ 33 := by
    intro p hp
    have h1 := signed_eq p
    have h2 := signed_eq (-p)
    have hs : UInt64.size = 2 ^ 64 := rfl
    rw [UInt64.toNat_neg, hs] at h2
    rw [abs_le, abs_le]
    split at h1 <;> split at h2 <;> omega
  rw [e]
  unfold Rational.roundedLongLongIntegerPart
  dsimp only at hpart ⊢
  rw [ha] at hpart
  split
  · exact (hword _ (by omega)).2
  · exact (hword _ (by omega)).1

/-! ### A base that is moved -/

/-- What is additive up to one, and comes back to nothing after some multiples of `d`, is nothing at `d`:
it could only rise, or only fall. -/
theorem orbit_eq_zero {e : UInt64 → ℤ} {n : ℕ} (hn : 0 < n)
    (hd : e (UInt64.ofNat n * d) = 0) (h : ∀ x, |e (x + d) - e x - e d| ≤ 1) : e d = 0 := by
  have hsucc : ∀ k : ℕ, UInt64.ofNat (k + 1) * d = UInt64.ofNat k * d + d := by
    intro k
    rw [UInt64.ofNat_add]
    grind
  have hone : UInt64.ofNat 1 * d = d := by
    have : UInt64.ofNat 1 = 1 := rfl
    rw [this, UInt64.one_mul]
  have hstep : ∀ k : ℕ, |e (UInt64.ofNat (k + 1) * d) - e (UInt64.ofNat k * d) - e d| ≤ 1 := by
    intro k
    rw [hsucc]
    exact h _
  rcases Int.lt_trichotomy (e d) 0 with hneg | hz | hpos
  · have hanti : Antitone fun k : ℕ => e (UInt64.ofNat k * d) := by
      refine antitone_nat_of_succ_le ?_
      intro k
      have := (abs_le.mp (hstep k)).2
      omega
    have := hanti hn
    simp only [hd, hone] at this
    omega
  · exact hz
  · have hmono : Monotone fun k : ℕ => e (UInt64.ofNat k * d) := by
      refine monotone_nat_of_le_succ ?_
      intro k
      have := (abs_le.mp (hstep k)).1
      omega
    have := hmono hn
    simp only [hd, hone] at this
    omega

theorem elapsedSystemTime_period (hc : s.SaneClock) (d : UInt64) :
    s.elapsedSystemTime (UInt64.ofNat (2 ^ 32) * d) = 0 := by
  rw [elapsedSystemTime_of_low, elapsedSystemTime_zero hc.speed_positive hc.speed_lt]
  have h : (UInt64.ofNat (2 ^ 32)).toUInt32 = 0 := by decide +kernel
  rw [UInt64.toUInt32_mul, h, UInt32.zero_mul]

theorem exists_far_of_rebases (hc : s.SaneClock)
    (hr : rebaseTimeTriggerValue < s.elapsedSystemTime d) :
    ∃ x, ¬(s.elapsedSystemTime (x + d) - (s.elapsedSystemTime d + s.elapsedSystemTime x) = 0 ∨
      s.elapsedSystemTime (x + d) - (s.elapsedSystemTime d + s.elapsedSystemTime x) = 1 ∨
      s.elapsedSystemTime d + s.elapsedSystemTime x - s.elapsedSystemTime (x + d) = 1) := by
  by_contra hall
  push Not at hall
  have hadd : ∀ x, |signed (s.elapsedSystemTime (x + d)) - signed (s.elapsedSystemTime x) -
      signed (s.elapsedSystemTime d)| ≤ 1 := by
    intro x
    have b1 := abs_le.mp (elapsedSystemTime_bound hc (x + d))
    have b2 := abs_le.mp (elapsedSystemTime_bound hc x)
    have b3 := abs_le.mp (elapsedSystemTime_bound hc d)
    have h := hall x
    generalize s.elapsedSystemTime (x + d) = a at b1 h ⊢
    generalize s.elapsedSystemTime x = b at b2 h ⊢
    generalize s.elapsedSystemTime d = c at b3 h ⊢
    have e1 : signed (a - b) = signed a - signed b := signed_sub (by omega) (by omega)
    have e2 : signed (a - b - c) = signed a - signed b - signed c := by
      rw [signed_sub (by omega) (by omega), e1]
    have hw : a - b - c = 0 ∨ a - b - c = 1 ∨ a - b - c = -1 := by grind
    rw [← e2]
    rcases hw with e | e | e <;> rw [e] <;> decide
  have hz := orbit_eq_zero (e := fun x => signed (s.elapsedSystemTime x)) (d := d) (Nat.two_pow_pos 32)
    (by rw [elapsedSystemTime_period hc]; rfl) hadd
  have hs := signed_eq (s.elapsedSystemTime d)
  have hlt : rebaseTimeTriggerValue.toNat < (s.elapsedSystemTime d).toNat := UInt64.lt_iff_toNat_lt.mp hr
  have ht : rebaseTimeTriggerValue.toNat = 0x10000000 := rfl
  have hl := (s.elapsedSystemTime d).toNat_lt
  split at hs <;> omega

/-! ### Calls -/

theorem near_refl (a : Option UInt64) : near a a := by
  cases a with
  | none => exact trivial
  | some a => exact Or.inl (UInt64.sub_self a)

theorem translate_eq_self {c : Option ℕ} (h : ¬s.Moves c t) :
    (s.translatePlaybackTimeToSystem c t).1 = s := by
  unfold translatePlaybackTimeToSystem
  split
  next hest =>
    cases c with
    | none =>
      dsimp only
      rw [if_neg fun hr => h ⟨hest, hr⟩]
    | some c =>
      dsimp only
      split
      next x hx =>
        split
        next hmap =>
          rw [if_neg fun hr => h ⟨hest, x, hx, hmap, hr⟩]
        · rfl
      · rfl
  · rfl

theorem mappingOf_none (hest : s.masterTimeMappingEstablished = true) (u : UInt64) :
    s.mappingOf none u =
      some (s.masterBaseSystemTime + s.elapsedSystemTime (u - s.masterBaseNormalizedPlaybackTime)) := by
  unfold mappingOf translatePlaybackTimeToSystem
  rw [if_pos hest]

theorem mappingOf_some {c : ℕ} {x : CoordinatorContext} (hest : s.masterTimeMappingEstablished = true)
    (hx : s.context c = some x) (hmap : x.timeMappingEstablished = true) (u : UInt64) :
    s.mappingOf (some c) u =
      some (x.baseSystemTime + s.elapsedSystemTime (u - x.baseNormalizedPlaybackTime)) := by
  unfold mappingOf translatePlaybackTimeToSystem
  rw [if_pos hest]
  dsimp only
  rw [hx]
  dsimp only
  rw [if_pos hmap]

theorem exists_not_near (hc : s.SaneClock) (system : UInt64) {base t : UInt64} (hr : s.rebases base t = true) :
    ∃ u, ¬near (some (system + s.elapsedSystemTime (u - base)))
      (some (system + s.elapsedSystemTime (t - base) + s.elapsedSystemTime (u - t))) := by
  obtain ⟨x, hx⟩ := exists_far_of_rebases hc (of_decide_eq_true hr)
  refine ⟨t + x, ?_⟩
  have e1 : t + x - base = x + (t - base) := by grind
  have e2 : t + x - t = x := by grind
  rw [e1, e2]
  have e3 : ∀ a b c : UInt64, system + a - (system + b + c) = a - (b + c) ∧
      system + b + c - (system + a) = b + c - a := by
    intro a b c
    constructor <;> grind
  change ¬(_ ∨ _ ∨ _)
  rw [(e3 _ _ _).1, (e3 _ _ _).2]
  exact hx

theorem not_unmoved_none (hc : s.SaneClock) (h : s.Moves none t) :
    ¬s.Unmoved none t := by
  obtain ⟨hest, hr⟩ := h
  obtain ⟨u, hu⟩ := exists_not_near hc s.masterBaseSystemTime hr
  intro hall
  apply hu
  have h := hall none u
  rw [mappingOf_none hest] at h
  unfold translatePlaybackTimeToSystem at h
  rw [if_pos hest] at h
  dsimp only at h
  rw [if_pos hr, mappingOf_none (by exact hest)] at h
  exact h

theorem not_unmoved_some (hc : s.SaneClock) {c : ℕ} (h : s.Moves (some c) t) :
    ¬s.Unmoved (some c) t := by
  obtain ⟨hest, x, hx, hmap, hr⟩ := h
  rw [Option.mem_def] at hx
  obtain ⟨u, hu⟩ := exists_not_near hc x.baseSystemTime hr
  intro hall
  apply hu
  have h := hall (some c) u
  rw [mappingOf_some hest hx hmap] at h
  unfold translatePlaybackTimeToSystem at h
  rw [if_pos hest] at h
  dsimp only at h
  rw [hx] at h
  dsimp only at h
  rw [if_pos hmap] at h
  rw [if_pos hr] at h
  -- the base of the master may be moved too, which is no matter to the stream
  generalize x.baseSystemTime + s.elapsedSystemTime (t - x.baseNormalizedPlaybackTime) =
    systemTime at h
  have hframe : ∀ m : OutputCoordinator, m.masterTimeMappingEstablished = true →
      m.context c = some x → m.elapsedSystemTime = s.elapsedSystemTime →
      (m.rebaseContext c t systemTime).mappingOf (some c) u =
        some (systemTime + s.elapsedSystemTime (u - t)) := by
    intro m hm hmx he
    have hctx : (m.rebaseContext c t systemTime).context c =
        some { x with baseNormalizedPlaybackTime := t, baseSystemTime := systemTime } :=
      context_modify (fun _ => rfl) hmx
    have hest' : (m.rebaseContext c t systemTime).masterTimeMappingEstablished = true := hm
    rw [mappingOf_some hest' hctx hmap, ← he]
    rfl
  split at h
  · rw [hframe (s.rebaseMaster t systemTime) hest hx rfl] at h
    exact h
  · rw [hframe s hest hx rfl] at h
    exact h

theorem translate_unmoved (s : OutputCoordinator) (c : Option ℕ) (t : UInt64) :
    (¬s.Moves c t → s.Unmoved c t) ∧ (s.SaneClock → s.Unmoved c t → ¬s.Moves c t) := by
  constructor
  · intro h c' u
    rw [translate_eq_self h]
    exact near_refl _
  · intro hc hu hm
    cases c with
    | none => exact not_unmoved_none hc hm hu
    | some c => exact not_unmoved_some hc hm hu

/-! ### Runs -/

/-- A step of the coordinator, or a time that is translated for a stream or for the playback. -/
def translatingStep (policy : MasterClock) (s : OutputCoordinator) :
    Label ⊕ Option ℕ × UInt64 → Option OutputCoordinator
  | .inl a => step policy s a
  | .inr (c, t) => some (s.translatePlaybackTimeToSystem c t).1

/-- What a call of `TranslatePlaybackTimeToSystem` is to meet. -/
def AtCalls (P : OutputCoordinator → Option ℕ → UInt64 → Prop) (s : OutputCoordinator) :
    Label ⊕ Option ℕ × UInt64 → Prop
  | .inl _ => True
  | .inr (c, t) => P s c t

/-- No call moves a base. -/
def Stays (s : OutputCoordinator) (c : Option ℕ) (t : UInt64) : Prop := ¬s.Moves c t

instance (s : OutputCoordinator) : DecidablePred (AtCalls Stays s)
  | .inl _ => inferInstanceAs (Decidable True)
  | .inr (c, t) => inferInstanceAs (Decidable (¬s.Moves c t))

theorem SaneClock.of_play {s' : OutputCoordinator} (hc : s.SaneClock) (h : s'.play = s.play) :
    s'.SaneClock := by
  obtain ⟨e1, hrest⟩ := Prod.mk.inj h
  obtain ⟨e2, -⟩ := Prod.mk.inj hrest
  refine ⟨?_, ?_, ?_, ?_, ?_⟩
  · rw [e1]
    exact hc.speed_positive
  · rw [e1]
    exact hc.speed_lt
  · rw [e2]
    exact hc.adjustment_pos
  · rw [e2]
    exact hc.adjustment_lt
  · rw [e2]
    exact hc.adjustment_le

/-- **Translating a time moves a mapping exactly when it moves a base.**  In a run in which no call moves a
base, every call leaves all mappings as they were; and with a sane clock there is no other such run. -/
theorem run_unmoved_iff (policy : MasterClock) (speed adjustment : Rational) (playBackward : Bool)
    (events : List (Label ⊕ Option ℕ × UInt64)) :
    (Along (translatingStep policy) (AtCalls Stays) (start speed playBackward adjustment) events →
      Along (translatingStep policy) (AtCalls Unmoved) (start speed playBackward adjustment) events) ∧
    ((start speed playBackward adjustment).SaneClock →
      Along (translatingStep policy) (AtCalls Unmoved) (start speed playBackward adjustment) events →
      Along (translatingStep policy) (AtCalls Stays) (start speed playBackward adjustment) events) := by
  constructor
  · refine along_of_along (J := fun _ => True) (fun _ _ _ _ _ _ => trivial) ?_ trivial
    intro s a _ hp
    cases a with
    | inl a => exact trivial
    | inr e => exact (s.translate_unmoved e.1 e.2).1 hp
  · intro hc
    refine along_of_along (J := SaneClock) ?_ ?_ hc
    · intro s a s' hs _ hstep
      cases a with
      | inl a => exact hs.of_play (play_step hstep)
      | inr e =>
        obtain rfl := Option.some.inj hstep
        exact hs.of_play (Calm.translate e.1 e.2).play
    · intro s a hs hp
      cases a with
      | inl a => exact trivial
      | inr e => exact (s.translate_unmoved e.1 e.2).2 hs hp

/-- A stream that is translated for while another one has not followed its jump, and soon enough. -/
theorem run_unmoved_iff_early :
    let jump : Deltas := ⟨true, 1000000, 6000000, false, 4, false⟩
    let events := [.inl (.registerStream ⟨0, .video, true, false⟩),
      .inl (.registerStream ⟨1, .audio, true, false⟩),
      .inl (.establishTimeMapping none 1000000 1000000 0), .inl (.handlePlaybackTimeDeltas 0 jump),
      .inr (some 1, 201000000), .inr (none, 201000000)]
    Along (translatingStep .videoClockMaster) (AtCalls Unmoved) (start ⟨false, 1, 1⟩ false ⟨false, 1, 1⟩)
      events := by
  intro jump events
  exact (run_unmoved_iff .videoClockMaster ⟨false, 1, 1⟩ ⟨false, 1, 1⟩ false events).1 (by decide +kernel)

/-- Two streams, of which the first has made a jump of five seconds that the second has not followed: a
time that the second translates moves the mapping of the playback by these five seconds. -/
theorem translatePlaybackTimeToSystem_moves :
    let jump : Deltas := ⟨true, 1000000, 6000000, false, 4, false⟩
    let labels := [.registerStream ⟨0, .video, true, false⟩, .registerStream ⟨1, .audio, true, false⟩,
      .establishTimeMapping none 1000000 1000000 0, .handlePlaybackTimeDeltas 0 jump]
    ∃ s, run (step .videoClockMaster) (start ⟨false, 1, 1⟩ false ⟨false, 1, 1⟩) labels = some s ∧
      s.mappingOf none 301000000 = some 296000000 ∧
      (s.translatePlaybackTimeToSystem (some 1) 301000000).1.mappingOf none 301000000 =
        some 301000000 ∧
      ¬s.Unmoved (some 1) 301000000 := by
  intro jump labels
  obtain ⟨s, hs⟩ := Option.isSome_iff_exists.mp (show (run (step .videoClockMaster)
    (start ⟨false, 1, 1⟩ false ⟨false, 1, 1⟩) labels).isSome = true by decide +kernel)
  have hmaps : (run (step .videoClockMaster) (start ⟨false, 1, 1⟩ false ⟨false, 1, 1⟩) labels).map
      (fun s => (s.mappingOf none 301000000,
        (s.translatePlaybackTimeToSystem (some 1) 301000000).1.mappingOf none 301000000)) =
      some (some 296000000, some 301000000) := by
    decide +kernel
  rw [hs] at hmaps
  obtain ⟨e1, e2⟩ := Prod.mk.inj (Option.some.inj hmaps)
  refine ⟨s, hs, e1, e2, ?_⟩
  intro hall
  have h := hall none 301000000
  rw [e1, e2] at h
  revert h
  unfold near
  decide

end Player2.OutputCoordinator

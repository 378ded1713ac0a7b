import Mathlib.Data.Nat.Log
import Mathlib.Data.UInt
import Player2.RationalBounds

/-! # The precision that an assignment keeps

When a term has more than 32 bits, `Restrict` shifts both until the larger one has 32 of them, so the unit in
the last place is `2 ^ (place + 1)`.  As far as that keeps a bit of both terms, the number changes by at most
four of these units, relative to the smaller term (`near_of_rounded`, `near_of_scaled`, `near_of_cut`).

Three things go wrong at the edges.  A denominator of less than half a unit is lost, be it by rounding or because
scaling takes it away, and leaves a fraction by zero.  A term just below a power of two rounds up to `2 ^ 32`,
which has 33 bits, unless a reduction follows.  And when the shift is by 32, `1 << 31` is a negative `int`, so that
half a unit is taken away instead of added, and a term of less than that becomes `2 ^ 32 - 1`.

`meaningful_iff` says for which numbers none of this happens. -/

namespace Player2.Rational

/-! ### Fractions whose terms are rounded -/

section
variable {n d N D h : ℕ}

/-- Two fractions differ by at most `8 * h`, relative to the smaller term of the first. -/
def NearBy (h n d N D : ℕ) : Prop :=
  N * d * min n d ≤ n * D * min n d + 8 * (h * n * D) ∧ n * D * min n d ≤ N * d * min n d + 8 * (h * n * D)

theorem NearBy.of_cross {e : ℕ} (h1 : N * d ≤ n * D + e) (h2 : n * D ≤ N * d + e)
    (he : e * min n d ≤ 8 * (h * n * D)) : NearBy h n d N D := by
  have h1' := Nat.mul_le_mul_right (min n d) h1
  have h2' := Nat.mul_le_mul_right (min n d) h2
  rw [Nat.add_mul] at h1' h2'
  exact ⟨by omega, by omega⟩

theorem near_of_rounded (hN : 2 * (h * N) ≤ n + h) (hN' : n ≤ 2 * (h * N) + h) (hD : 2 * (h * D) ≤ d + h)
    (hD' : d ≤ 2 * (h * D) + h) (hpos : 0 < D) : NearBy h n d N D := by
  have hup := Nat.mul_le_mul_left N hD'
  have hlow := Nat.mul_le_mul_right D hN
  have hup' := Nat.mul_le_mul_left N hD
  have hlow' := Nat.mul_le_mul_right D hN'
  have e1 : N * (2 * (h * D) + h) = 2 * (h * N) * D + h * N := by ring
  have e2 : N * (2 * (h * D)) = 2 * (h * N) * D := by ring
  have e3 : (n + h) * D = n * D + h * D := by ring
  have e4 : (2 * (h * N) + h) * D = 2 * (h * N) * D + h * D := by ring
  have e5 : N * (d + h) = N * d + h * N := by ring
  refine NearBy.of_cross (e := h * N + h * D) (by omega) (by omega) ?_
  have hmn : min n d ≤ n := Nat.min_le_left _ _
  have hmd : min n d ≤ 3 * (h * D) := by
    have hone : h ≤ h * D := Nat.le_mul_of_pos_right h hpos
    have := Nat.min_le_right n d
    omega
  have hfirst : h * N * min n d ≤ 3 * (h * n * D) := by
    rcases Nat.eq_zero_or_pos N with rfl | hNpos
    · simp
    · have hle : h * N ≤ n := by
        have hone : h ≤ h * N := Nat.le_mul_of_pos_right h hNpos
        omega
      calc h * N * min n d ≤ n * (3 * (h * D)) := Nat.mul_le_mul hle hmd
        _ = 3 * (h * n * D) := by ring
  have hsecond : h * D * min n d ≤ h * n * D := by
    calc h * D * min n d ≤ h * D * n := Nat.mul_le_mul_left _ hmn
      _ = h * n * D := by ring
  rw [Nat.add_mul]
  omega

theorem near_of_scaled (h1 : N * d ≤ n * D + d) (h2 : n * D ≤ N * d + d) (hD : d < 2 * h * (D + 1))
    (hpos : 0 < D) : NearBy h n d N D := by
  refine NearBy.of_cross h1 h2 ?_
  have hd : d ≤ 4 * (h * D) := by
    have hone : h ≤ h * D := Nat.le_mul_of_pos_right h hpos
    have e : 2 * h * (D + 1) = 2 * (h * D) + 2 * h := by ring
    omega
  calc d * min n d ≤ 4 * (h * D) * n := Nat.mul_le_mul hd (Nat.min_le_left _ _)
    _ = 4 * (h * n * D) := by ring
    _ ≤ 8 * (h * n * D) := Nat.mul_le_mul_right _ (by decide)

theorem near_of_cut (hN : 2 * (h * N) + h ≤ n) (hN' : n ≤ 2 * (h * N) + 3 * h) (hD : 2 * (h * D) + h ≤ d)
    (hD' : d ≤ 2 * (h * D) + 3 * h) (hpos : 0 < D) : NearBy h n d N D := by
  have hup := Nat.mul_le_mul_left N hD'
  have hlow := Nat.mul_le_mul_right D hN
  have hup' := Nat.mul_le_mul_left N hD
  have hlow' := Nat.mul_le_mul_right D hN'
  have e1 : N * (2 * (h * D) + 3 * h) = 2 * (h * N) * D + 3 * (h * N) := by ring
  have e2 : N * (2 * (h * D) + h) = 2 * (h * N) * D + h * N := by ring
  have e3 : (2 * (h * N) + h) * D = 2 * (h * N) * D + h * D := by ring
  have e4 : (2 * (h * N) + 3 * h) * D = 2 * (h * N) * D + 3 * (h * D) := by ring
  have hmn : min n d ≤ n := Nat.min_le_left _ _
  have hmd : min n d ≤ 5 * (h * D) := by
    have hone : h ≤ h * D := Nat.le_mul_of_pos_right h hpos
    have := Nat.min_le_right n d
    omega
  have hfirst : 3 * (h * N) * min n d ≤ 8 * (h * n * D) := by
    have hle : 2 * (h * N) ≤ n := by omega
    have hprod := Nat.mul_le_mul hle hmd
    have e : n * (5 * (h * D)) = 5 * (h * n * D) := by ring
    have e' : 3 * (h * N) * min n d * 2 = 2 * (h * N) * min n d * 3 := by ring
    omega
  have hsecond : 3 * (h * D) * min n d ≤ 8 * (h * n * D) := by
    calc 3 * (h * D) * min n d ≤ 3 * (h * D) * n := Nat.mul_le_mul_left _ hmn
      _ = 3 * (h * n * D) := by ring
      _ ≤ 8 * (h * n * D) := Nat.mul_le_mul_right _ (by decide)
  have h1 := Nat.mul_le_mul_right (min n d) (show N * d ≤ n * D + 3 * (h * N) by omega)
  have h2 := Nat.mul_le_mul_right (min n d) (show n * D ≤ N * d + 3 * (h * D) by omega)
  rw [Nat.add_mul] at h1 h2
  exact ⟨by omega, by omega⟩

theorem near_of_lost (hd : d ≤ h) (hN : N ≤ n) (hD : h ≤ D) : NearBy h n d N D := by
  have hm : min n d ≤ h := (Nat.min_le_right n d).trans hd
  constructor
  · have hle : N * d * min n d ≤ h * n * D := by
      calc N * d * min n d ≤ n * D * h := Nat.mul_le_mul (Nat.mul_le_mul hN (hd.trans hD)) hm
        _ = h * n * D := by ring
    omega
  · have hle : n * D * min n d ≤ h * n * D := by
      calc n * D * min n d ≤ n * D * h := Nat.mul_le_mul_left _ hm
        _ = h * n * D := by ring
    omega

theorem NearBy.relative (hnear : NearBy h n d N D) (hd : 0 < d) (hD : 0 < D) (hzero : n = 0 → N = 0) :
    |(N : ℚ) / D - n / d| ≤ n / d * (8 * h / (min n d : ℕ)) := by
  rcases Nat.eq_zero_or_pos n with rfl | hn
  · simp [hzero rfl]
  have hm : 0 < min n d := lt_min hn hd
  have hm' : (0 : ℚ) < (min n d : ℕ) := by exact_mod_cast hm
  obtain ⟨h1, h2⟩ := hnear
  generalize min n d = m at h1 h2 hm'
  have h1' : (N : ℚ) * d * m ≤ n * D * m + 8 * (h * n * D) := by exact_mod_cast h1
  have h2' : (n : ℚ) * D * m ≤ N * d * m + 8 * (h * n * D) := by exact_mod_cast h2
  have hdiff : (N : ℚ) / D - n / d = (N * d * m - n * D * m) / (D * d * m) := by
    field_simp
  have hright : (n : ℚ) / d * (8 * h / m) = 8 * (h * n * D) / (D * d * m) := by
    field_simp
  rw [hdiff, hright, abs_div, abs_of_pos (by positivity : (0 : ℚ) < D * d * m)]
  gcongr
  rw [abs_le]
  constructor <;> linarith

end

/-! ### How far a number is shifted -/

variable {r : Rational} {s : ℕ} {shift : UInt64}

/-- How far the larger term is beyond 33 bits: both terms are shifted by one more. -/
def place (r : Rational) : ℕ := Nat.log 2 (max r.numerator.toNat r.denominator.toNat) - 32

/-- The larger term has `33 + s` bits. -/
structure Placed (r : Rational) (s : ℕ) : Prop where
  le : s ≤ 31
  numerator : r.numerator.toNat < 2 ^ (33 + s)
  denominator : r.denominator.toNat < 2 ^ (33 + s)
  large : 2 ^ (32 + s) ≤ max r.numerator.toNat r.denominator.toNat

theorem Placed.place_eq (h : Placed r s) : r.place = s := by
  have hlog : Nat.log 2 (max r.numerator.toNat r.denominator.toNat) = 32 + s := by
    refine Nat.log_eq_of_pow_le_of_lt_pow h.large (max_lt ?_ ?_)
    · exact h.numerator.trans_eq (by congr 1; omega)
    · exact h.denominator.trans_eq (by congr 1; omega)
  unfold place
  omega

theorem restrict_of_large (h : 2 ^ 32 ≤ max r.numerator.toNat r.denominator.toNat) :
    ∃ shift : UInt64, Placed r shift.toNat ∧ r.restrict = ((r.scaled shift).shifted shift).reduced := by
  have htmp := toNat_or_shiftRight r.numerator r.denominator
  have hne : (r.numerator ||| r.denominator) >>> 32 ≠ 0 := by
    intro h0
    rw [h0, UInt64.toNat_zero] at htmp
    obtain ⟨h1, h2⟩ := Nat.or_eq_zero_iff.mp htmp.symm
    omega
  have hrestrict : ∀ shift, shiftOf ((r.numerator ||| r.denominator) >>> 32) = shift →
      r.restrict = ((r.scaled shift).shifted shift).reduced := by
    rintro shift rfl
    unfold restrict
    rw [if_pos hne]
  have hhigh := highestIn_shiftOf hne (toNat_or_shiftRight_lt _ _)
  generalize shiftOf ((r.numerator ||| r.denominator) >>> 32) = shift at hhigh hrestrict
  obtain ⟨hle, hupper, hlower⟩ := hhigh
  have hterm : ∀ x : ℕ, x / 2 ^ 32 ≤ ((r.numerator ||| r.denominator) >>> 32).toNat →
      x < 2 ^ (33 + shift.toNat) := by
    intro x hx
    have hpow := Nat.pow_add 2 32 (shift.toNat + 1)
    rw [show 33 + shift.toNat = 32 + (shift.toNat + 1) by omega]
    omega
  refine ⟨shift, ⟨by omega, ?_, ?_, ?_⟩, hrestrict shift rfl⟩
  · exact hterm _ (Nat.left_le_or.trans_eq htmp.symm)
  · exact hterm _ (Nat.right_le_or.trans_eq htmp.symm)
  · have hpow := Nat.pow_add 2 32 shift.toNat
    by_contra hsmall
    have hor : r.numerator.toNat / 2 ^ 32 ||| r.denominator.toNat / 2 ^ 32 < 2 ^ shift.toNat :=
      Nat.or_lt_two_pow (by omega) (by omega)
    omega

/-! ### Terms of 33 bits -/

theorem reduced_of_one (h : r.numerator.toNat = 1 ∨ r.denominator.toNat = 1) : r.reduced = r := by
  refine if_neg ?_
  rintro ⟨hd, hn, -⟩
  rcases h with h | h
  · exact hn (UInt64.toNat_inj.mp h)
  · exact hd (UInt64.toNat_inj.mp h)

theorem reduced_of_not_dvd (h : ¬ r.denominator.toNat ∣ r.numerator.toNat)
    (h' : ¬ r.numerator.toNat ∣ r.denominator.toNat)
    (hten : ¬ (10 ∣ r.numerator.toNat ∧ 10 ∣ r.denominator.toNat)) : r.reduced = r := by
  have hten' : ¬ (10 * (r.numerator / 10) = r.numerator ∧ 10 * (r.denominator / 10) = r.denominator) := by
    intro hboth
    exact hten ⟨mul_div_eq_iff.mp hboth.1, mul_div_eq_iff.mp hboth.2⟩
  have hloop : reduceByTen 20 r = r := if_neg hten'
  unfold reduced
  rw [if_neg (fun hdvd => h (mul_div_eq_iff.mp hdvd)), if_neg (fun hdvd => h' (mul_div_eq_iff.mp hdvd)), hloop,
    ite_self]

theorem reduced_of_dvd (hd : r.denominator.toNat ≠ 1) (hn : r.numerator.toNat ≠ 1) (h0 : r.denominator ≠ 0)
    (h : r.denominator.toNat ∣ r.numerator.toNat) :
    r.reduced.numerator.toNat = r.numerator.toNat / r.denominator.toNat ∧ r.reduced.denominator.toNat = 1 := by
  have hguard : r.denominator ≠ 1 ∧ r.numerator ≠ 1 ∧ r.denominator ≠ 0 :=
    ⟨fun h1 => hd (by rw [h1]; rfl), fun h1 => hn (by rw [h1]; rfl), h0⟩
  unfold reduced
  rw [if_pos hguard, if_pos (mul_div_eq_iff.mpr h)]
  exact ⟨UInt64.toNat_div .., rfl⟩

theorem reduced_of_dvd' (hd : r.denominator.toNat ≠ 1) (hn : r.numerator.toNat ≠ 1) (h0 : r.denominator ≠ 0)
    (hnot : ¬ r.denominator.toNat ∣ r.numerator.toNat) (h : r.numerator.toNat ∣ r.denominator.toNat) :
    r.reduced.numerator.toNat = r.numerator.toNat / r.numerator.toNat ∧
      r.reduced.denominator.toNat = r.denominator.toNat / r.numerator.toNat := by
  have hguard : r.denominator ≠ 1 ∧ r.numerator ≠ 1 ∧ r.denominator ≠ 0 :=
    ⟨fun h1 => hd (by rw [h1]; rfl), fun h1 => hn (by rw [h1]; rfl), h0⟩
  unfold reduced
  rw [if_pos hguard, if_neg (fun hdvd => hnot (mul_div_eq_iff.mp hdvd)), if_pos (mul_div_eq_iff.mpr h)]
  exact ⟨UInt64.toNat_div .., UInt64.toNat_div ..⟩

/-- Both terms have at most 32 bits. -/
def InRange (r : Rational) : Prop := r.numerator.toNat < 2 ^ 32 ∧ r.denominator.toNat < 2 ^ 32

/-- Which terms the reduction brings into range when one of them is `2 ^ 32`. -/
def Reducible (n d : ℕ) : Prop :=
  (n = 2 ^ 32 → d ∣ 2 ^ 32 ∧ d ≠ 1) ∧ (d = 2 ^ 32 → n = 0 ∨ n ∣ 2 ^ 32 ∧ n ≠ 1)

theorem inRange_reduced_iff (hn : r.numerator.toNat ≤ 2 ^ 32) (hd : r.denominator.toNat ≤ 2 ^ 32)
    (h0 : r.denominator ≠ 0) : InRange r.reduced ↔ Reducible r.numerator.toNat r.denominator.toNat := by
  have hpos := toNat_pos h0
  have hten : ¬ 10 ∣ 2 ^ 32 := by decide
  unfold InRange Reducible
  by_cases hnfull : r.numerator.toNat = 2 ^ 32
  · by_cases hdvd : r.denominator.toNat ∣ 2 ^ 32 ∧ r.denominator.toNat ≠ 1
    · obtain ⟨e1, e2⟩ := reduced_of_dvd hdvd.2 (by omega) h0 (hnfull ▸ hdvd.1)
      have hsmall : 2 ^ 32 / r.denominator.toNat < 2 ^ 32 := Nat.div_lt_self (by decide) (by omega)
      rw [e1, e2, hnfull]
      exact iff_of_true ⟨hsmall, by decide⟩ ⟨fun _ => hdvd, fun _ => .inr ⟨dvd_refl _, by decide⟩⟩
    · have hself : r.reduced = r := by
        by_cases hone : r.denominator.toNat = 1
        · exact reduced_of_one (.inr hone)
        · refine reduced_of_not_dvd ?_ ?_ ?_
          · exact fun h => hdvd ⟨hnfull ▸ h, hone⟩
          · intro h
            have hle := Nat.le_of_dvd hpos h
            exact hdvd ⟨by rw [show r.denominator.toNat = 2 ^ 32 by omega], hone⟩
          · exact fun h => hten (hnfull ▸ h.1)
      rw [hself, hnfull]
      simp only [lt_irrefl, false_and, true_imp_iff, hdvd]
  · by_cases hdfull : r.denominator.toNat = 2 ^ 32
    · by_cases hzero : r.numerator.toNat = 0
      · obtain ⟨e1, e2⟩ := reduced_of_dvd (by omega) (by omega) h0 (hzero ▸ dvd_zero _)
        rw [e1, e2, hzero]
        simp
      · have hnot : ¬ r.denominator.toNat ∣ r.numerator.toNat := by
          intro h
          have hle := Nat.le_of_dvd (by omega) h
          omega
        by_cases hdvd : r.numerator.toNat ∣ 2 ^ 32 ∧ r.numerator.toNat ≠ 1
        · obtain ⟨e1, e2⟩ := reduced_of_dvd' (by omega) hdvd.2 h0 hnot (hdfull ▸ hdvd.1)
          have hsmall : 2 ^ 32 / r.numerator.toNat < 2 ^ 32 := Nat.div_lt_self (by decide) (by omega)
          rw [e1, e2, hdfull, Nat.div_self (by omega)]
          exact iff_of_true ⟨by decide, hsmall⟩ ⟨fun hfull => absurd hfull hnfull, fun _ => .inr hdvd⟩
        · have hself : r.reduced = r := by
            by_cases hone : r.numerator.toNat = 1
            · exact reduced_of_one (.inl hone)
            · exact reduced_of_not_dvd hnot (fun h => hdvd ⟨hdfull ▸ h, hone⟩) fun h => hten (hdfull ▸ h.2)
          rw [hself, hdfull]
          simp only [lt_irrefl, and_false, true_imp_iff, hdvd, hzero, or_self]
    · have h1 := numerator_reduced_le r
      have h2 := denominator_reduced_le r
      exact iff_of_true ⟨by omega, by omega⟩ ⟨fun hfull => absurd hfull hnfull, fun hfull => absurd hfull hdfull⟩

/-! ### The terms that are left -/

/-- The units of `2 ^ (s + 1)` that are nearest to a term. -/
def units (s x : ℕ) : ℕ := (x + 2 ^ s) / 2 ^ (s + 1)

theorem units_eq (s x : ℕ) : units s x = (x + 2 ^ s) / (2 * 2 ^ s) := by
  unfold units
  rw [Nat.pow_succ, Nat.mul_comm]

theorem units_near (s x : ℕ) :
    2 * (2 ^ s * units s x) ≤ x + 2 ^ s ∧ x < 2 * (2 ^ s * units s x) + 2 ^ s := by
  have hpos : 0 < 2 * 2 ^ s := by simp
  have h1 := Nat.mul_div_le (x + 2 ^ s) (2 * 2 ^ s)
  have h2 := Nat.lt_mul_div_succ (x + 2 ^ s) hpos
  rw [← units_eq] at h1 h2
  rw [Nat.mul_add, Nat.mul_one, Nat.mul_assoc] at h2
  rw [Nat.mul_assoc] at h1
  exact ⟨h1, by omega⟩

theorem units_ne_zero_iff {x : ℕ} : units s x ≠ 0 ↔ 2 ^ s ≤ x := by
  have hpos : 0 < 2 * 2 ^ s := by simp
  rw [units_eq, Nat.ne_zero_iff_zero_lt, Nat.div_pos_iff]
  omega

theorem units_le {x : ℕ} (h : x < 2 ^ (33 + s)) : units s x ≤ 2 ^ 32 := by
  have hpow : 2 ^ (33 + s) = 2 ^ 33 * 2 ^ s := Nat.pow_add 2 33 s
  have hpos := Nat.two_pow_pos s
  refine Nat.le_of_lt_succ ((Nat.div_lt_iff_lt_mul (by omega)).mpr ?_)
  omega

theorem units_full_iff {x : ℕ} (h : x < 2 ^ (33 + s)) : units s x = 2 ^ 32 ↔ 2 ^ (33 + s) ≤ x + 2 ^ s := by
  have hpow : 2 ^ (33 + s) = 2 ^ 33 * 2 ^ s := Nat.pow_add 2 33 s
  have hle := units_le h
  have hiff : 2 ^ 32 ≤ units s x ↔ 2 ^ (33 + s) ≤ x + 2 ^ s := by
    rw [units_eq, Nat.le_div_iff_mul_le (by simp)]
    omega
  omega

theorem toNat_shift {x : UInt64} (hs : shift.toNat ≤ 30) (hx : x.toNat < 2 ^ (33 + shift.toNat)) :
    ((x + wordOf (intOf (1 <<< shift))) >>> (shift + 1)).toNat = units shift.toNat x.toNat := by
  have hhalf := toNat_half hs
  have hsum := toNat_succ hs
  have hx' : x.toNat < 2 ^ 63 := hx.trans_le (Nat.pow_le_pow_right (by decide) (by omega))
  have hsmall : 2 ^ shift.toNat ≤ 2 ^ 30 := Nat.pow_le_pow_right (by decide) hs
  unfold units
  rw [UInt64.toNat_shiftRight, hsum, Nat.mod_eq_of_lt (by omega : shift.toNat + 1 < 64),
    Nat.shiftRight_eq_div_pow, UInt64.toNat_add, hhalf, Nat.mod_eq_of_lt (by omega)]

/-- A term that is shifted by 32: the negative `1 << 31` takes half a unit away. -/
def cut (x : ℕ) : ℕ := (x + (2 ^ 64 - 2 ^ 31)) % 2 ^ 64 / 2 ^ 32

theorem toNat_cut {x : UInt64} (hs : shift.toNat = 31) :
    ((x + wordOf (intOf (1 <<< shift))) >>> (shift + 1)).toNat = cut x.toNat := by
  obtain rfl : shift = 31 := UInt64.toNat_inj.mp hs
  have hhalf : (wordOf (intOf ((1 : UInt64) <<< 31))).toNat = 2 ^ 64 - 2 ^ 31 := by decide
  have hsum : ((31 : UInt64) + 1).toNat % 64 = 32 := by decide
  unfold cut
  rw [UInt64.toNat_shiftRight, hsum, Nat.shiftRight_eq_div_pow, UInt64.toNat_add, hhalf]

theorem cut_of_lt {x : ℕ} (h : x < 2 ^ 31) : cut x = 2 ^ 32 - 1 := by
  unfold cut
  omega

theorem cut_of_ge {x : ℕ} (h : 2 ^ 31 ≤ x) (hlt : x < 2 ^ 64) : cut x = (x - 2 ^ 31) / 2 ^ 32 := by
  unfold cut
  omega

theorem cut_lt (x : ℕ) : cut x < 2 ^ 32 := by
  unfold cut
  omega

theorem terms_of_spare (h : Placed r shift.toNat) (h0 : r.denominator ≠ 0)
    (hspare : r.denominator.toNat < 2 ^ (31 - shift.toNat)) :
    let e := r.denominator.toNat / 2 ^ (shift.toNat + 1)
    ((r.scaled shift).shifted shift).numerator.toNat =
        units shift.toNat (r.numerator.toNat * (e * 2 ^ (shift.toNat + 1)) / r.denominator.toNat) ∧
      ((r.scaled shift).shifted shift).denominator.toNat = e := by
  obtain ⟨enum, eden⟩ := toNat_shifted_scaled h.numerator h0 hspare
  refine ⟨enum, eden.trans ?_⟩
  rw [Nat.pow_succ, Nat.mul_comm _ 2]
  exact shifted_denominator (Nat.two_pow_pos _) _

theorem scaled_of_ge (h : Placed r shift.toNat) (hspare : 2 ^ (31 - shift.toNat) ≤ r.denominator.toNat) :
    r.scaled shift = r := by
  refine if_neg ?_
  rw [UInt64.lt_iff_toNat_lt, toNat_spare h.le]
  omega

theorem terms_of_ge (h : Placed r shift.toNat) (hs : shift.toNat ≤ 30)
    (hspare : 2 ^ (31 - shift.toNat) ≤ r.denominator.toNat) :
    ((r.scaled shift).shifted shift).numerator.toNat = units shift.toNat r.numerator.toNat ∧
      ((r.scaled shift).shifted shift).denominator.toNat = units shift.toNat r.denominator.toNat := by
  rw [scaled_of_ge h hspare]
  exact ⟨toNat_shift hs h.numerator, toNat_shift hs h.denominator⟩

theorem terms_of_cut (h : Placed r shift.toNat) (h0 : r.denominator ≠ 0) (hs : shift.toNat = 31) :
    ((r.scaled shift).shifted shift).numerator.toNat = cut r.numerator.toNat ∧
      ((r.scaled shift).shifted shift).denominator.toNat = cut r.denominator.toNat := by
  have hspare : 2 ^ (31 - shift.toNat) ≤ r.denominator.toNat := by
    rw [hs]
    exact toNat_pos h0
  rw [scaled_of_ge h hspare]
  exact ⟨toNat_cut hs, toNat_cut hs⟩

/-! ### What an assignment is to keep -/

/-- An assignment of `r` keeps a meaningful number.  A number out of range changes by four units in the last place,
relative to the smaller term; one that is far from the limits of the range does not become zero. -/
structure Meaningful (r r' : Rational) : Prop where
  inRange : InRange r'
  denominator : r'.denominator ≠ 0
  same : InRange r → r'.value = r.value
  near : ¬ InRange r →
    |r'.value - r.value| ≤ |r.value| * (4 * 2 ^ (r.place + 1) / (min r.numerator.toNat r.denominator.toNat : ℕ))
  nonzero : 1 / 2 ^ 30 ≤ |r.value| → |r.value| ≤ 2 ^ 30 → r'.value ≠ 0

/-- The numbers that an assignment keeps: those in range; those of which at least a bit of the denominator is kept
and no term is rounded up to `2 ^ 32`, unless the other one then divides it; and of those with a term of 64 bits the
ones with no term that is below half a unit, or whose denominator is cut to nothing. -/
def Restrictable (r : Rational) : Prop :=
  let n := r.numerator.toNat
  let d := r.denominator.toNat
  let s := r.place
  let unit := 2 ^ (s + 1)
  InRange r ∨
  (s ≤ 30 ∧ d < 2 ^ (31 - s) ∧ unit ≤ d ∧ (unit ∣ d → units s n = 2 ^ 32 → d / unit ∣ 2 ^ 32 ∧ d / unit ≠ 1)) ∨
  (s ≤ 30 ∧ 2 ^ (31 - s) ≤ d ∧ 2 ^ s ≤ d ∧ Reducible (units s n) (units s d)) ∨
  (s = 31 ∧ 2 ^ 31 ≤ n ∧ (d < 2 ^ 31 ∨ 3 * 2 ^ 31 ≤ d))

theorem inRange_iff : InRange r ↔ max r.numerator.toNat r.denominator.toNat < 2 ^ 32 := max_lt_iff.symm

theorem Placed.not_inRange (h : Placed r s) : ¬ InRange r := by
  have hpow : 2 ^ 32 ≤ 2 ^ (32 + s) := Nat.pow_le_pow_right (by decide) (by omega)
  have hlarge := h.large
  rw [inRange_iff]
  omega

theorem meaningful_of_inRange (hd : r.denominator ≠ 0) (h : InRange r) : Meaningful r r.restrict := by
  have hkeeps := keeps_restrict hd h.1 h.2
  refine ⟨⟨hkeeps.numerator.trans_lt h.1, ?_⟩, hkeeps.denominator, fun _ => hkeeps.value, fun hnot => absurd h hnot,
    fun hsmall _ => ?_⟩
  · rw [restrict_of_lt h.1 h.2]
    exact (denominator_reduced_le r).trans_lt h.2
  · rw [hkeeps.value, ← abs_pos]
    exact lt_of_lt_of_le (by positivity) hsmall

theorem negative_shifted_scaled (r : Rational) (shift : UInt64) :
    ((r.scaled shift).shifted shift).negative = r.negative := by
  unfold scaled
  dsimp only
  split <;> rfl

/-- What is to be known of the terms that are left. -/
structure Faithful (s n d N D : ℕ) : Prop where
  near : NearBy (2 ^ s) n d N D
  zero : n = 0 → N = 0
  nonzero : d ≤ 2 ^ 30 * n → n ≤ 2 ^ 30 * d → N ≠ 0

theorem meaningful_of_faithful {t : Rational} (hplaced : Placed r s) (hd : r.denominator ≠ 0)
    (hneg : t.negative = r.negative) (h0 : t.denominator ≠ 0) (hrange : InRange t.reduced)
    (h : Faithful s r.numerator.toNat r.denominator.toNat t.numerator.toNat t.denominator.toNat) :
    Meaningful r t.reduced := by
  have hkeeps := keeps_reduced h0
  have hd' := denominator_pos hd
  have h0' := denominator_pos h0
  refine ⟨hrange, hkeeps.denominator, fun hin => absurd hin hplaced.not_inRange, fun _ => ?_, fun hlow hhigh => ?_⟩
  · rw [hkeeps.value, abs_value_sub hneg, abs_value, hplaced.place_eq]
    refine (h.near.relative (toNat_pos hd) (toNat_pos h0) h.zero).trans_eq ?_
    push_cast
    ring
  · rw [abs_value] at hlow hhigh
    rw [div_le_div_iff₀ (by positivity) hd', one_mul] at hlow
    rw [div_le_iff₀ hd'] at hhigh
    have hN : t.numerator.toNat ≠ 0 := by
      refine h.nonzero ?_ ?_
      · rw [Nat.mul_comm]
        exact_mod_cast hlow
      · exact_mod_cast hhigh
    rw [hkeeps.value, ← abs_pos, abs_value]
    positivity

theorem Meaningful.terms {t : Rational} (h : Meaningful r t.reduced) (hn : t.numerator.toNat ≤ 2 ^ 32)
    (hd : t.denominator.toNat ≤ 2 ^ 32) :
    t.denominator ≠ 0 ∧ Reducible t.numerator.toNat t.denominator.toNat := by
  have h0 : t.denominator ≠ 0 := by
    intro h0
    have hself : t.reduced = t := if_neg fun hguard => hguard.2.2 h0
    exact h.denominator (hself.symm ▸ h0)
  exact ⟨h0, (inRange_reduced_iff hn hd h0).mp h.inRange⟩

/-! ### A denominator that is scaled -/

section
variable {n d : ℕ}

theorem scaled_full_iff (hn : n < 2 ^ (33 + s)) (hd : 0 < d) (hspare : d < 2 ^ 31) {d' : ℕ} (hle : d' ≤ d) :
    2 ^ (33 + s) ≤ n * d' / d + 2 ^ s ↔ d' = d ∧ 2 ^ (33 + s) ≤ n + 2 ^ s := by
  have hpow : 2 ^ (33 + s) = 2 ^ 33 * 2 ^ s := Nat.pow_add 2 33 s
  have hdiv := Nat.div_mul_le_self (n * d') d
  constructor
  · intro h
    rcases hle.lt_or_eq with hlt | rfl
    · exfalso
      have hbelow : n * d' + n ≤ n * d := by
        exact Nat.mul_le_mul_left _ hlt
      have hsteps : n ≤ (n - n * d' / d) * d := by
        rw [Nat.sub_mul]
        omega
      have hfew : (n - n * d' / d) * d ≤ 2 ^ s * d := Nat.mul_le_mul_right _ (by omega)
      have hfew' : 2 ^ s * d ≤ 2 ^ s * 2 ^ 31 := Nat.mul_le_mul_left _ hspare.le
      have hquotient : n * d' / d ≤ n := Nat.div_le_of_le_mul (by rw [Nat.mul_comm d]; exact Nat.mul_le_mul_left _ hle)
      omega
    · rw [Nat.mul_div_cancel _ hd] at h
      exact ⟨rfl, h⟩
  · rintro ⟨rfl, h⟩
    rwa [Nat.mul_div_cancel _ hd]

theorem faithful_scaled (hd : 0 < d) (hlarge : 2 ^ (32 + s) ≤ n) (he : 0 < d / 2 ^ (s + 1)) :
    Faithful s n d (units s (n * (d / 2 ^ (s + 1) * 2 ^ (s + 1)) / d)) (d / 2 ^ (s + 1)) := by
  have hh := Nat.two_pow_pos s
  have hunit : 2 ^ (s + 1) = 2 * 2 ^ s := by
    rw [Nat.pow_succ, Nat.mul_comm]
  rw [hunit] at he ⊢
  have hcut := Nat.lt_mul_div_succ d (by omega : 0 < 2 * 2 ^ s)
  obtain ⟨hcross1, hcross2⟩ := cross_products (n := n) hh hd (d / (2 * 2 ^ s))
  rw [← units_eq] at hcross1 hcross2
  generalize d / (2 * 2 ^ s) = e at he hcut hcross1 hcross2 ⊢
  refine ⟨near_of_scaled hcross1 hcross2 hcut he, ?_, fun _ _ => ?_⟩
  · rintro rfl
    rw [Nat.zero_mul, Nat.zero_div, units_eq]
    exact Nat.div_eq_of_lt (by omega)
  · rw [units_ne_zero_iff, Nat.le_div_iff_mul_le hd]
    have hpow : 2 ^ (32 + s) = 2 ^ 32 * 2 ^ s := Nat.pow_add 2 32 s
    have hdouble : d ≤ 2 * (e * (2 * 2 ^ s)) := by
      have hone : 2 * 2 ^ s ≤ e * (2 * 2 ^ s) := Nat.le_mul_of_pos_left _ he
      rw [Nat.mul_add, Nat.mul_one, Nat.mul_comm _ e] at hcut
      omega
    calc 2 ^ s * d ≤ 2 ^ s * (2 * (e * (2 * 2 ^ s))) := Nat.mul_le_mul_left _ hdouble
      _ = 2 * 2 ^ s * (e * (2 * 2 ^ s)) := by ring
      _ ≤ n * (e * (2 * 2 ^ s)) := Nat.mul_le_mul_right _ (by omega)

theorem faithful_rounded (hlarge : 2 ^ (32 + s) ≤ max n d) (hD : units s d ≠ 0) :
    Faithful s n d (units s n) (units s d) := by
  have hpow : 2 ^ (32 + s) = 2 ^ 32 * 2 ^ s := Nat.pow_add 2 32 s
  have hn := units_near s n
  have hd := units_near s d
  refine ⟨near_of_rounded hn.1 hn.2.le hd.1 hd.2.le (Nat.pos_of_ne_zero hD), ?_, fun h1 h2 => ?_⟩
  · rintro rfl
    have hpos := Nat.two_pow_pos s
    exact Nat.div_eq_of_lt (by omega)
  · rw [units_ne_zero_iff]
    omega

theorem faithful_cut (hlarge : 2 ^ 63 ≤ max n d) (hn : 2 ^ 31 ≤ n) (hn' : n < 2 ^ 64) (hd' : d < 2 ^ 64)
    (hd : d < 2 ^ 31 ∨ 3 * 2 ^ 31 ≤ d) : Faithful 31 n d (cut n) (cut d) := by
  have eN := cut_of_ge hn hn'
  refine ⟨?_, by omega, fun h1 h2 => by omega⟩
  rcases hd with hd | hd
  · rw [cut_of_lt hd]
    exact near_of_lost hd.le (by omega) (by decide)
  · have eD := cut_of_ge (by omega) hd'
    exact near_of_cut (by omega) (by omega) (by omega) (by omega) (by omega)

end

/-! ### The numbers that are kept -/

theorem terms_le (h : Placed r shift.toNat) :
    ((r.scaled shift).shifted shift).numerator.toNat ≤ 2 ^ 32 ∧
      ((r.scaled shift).shifted shift).denominator.toNat ≤ 2 ^ 32 := by
  have hle := scaled_le h.le h.numerator
  exact ⟨shifted_le h.le (hle.1.trans_lt h.numerator), shifted_le h.le (hle.2.trans_lt h.denominator)⟩

theorem ne_zero_of_toNat {x : UInt64} (h : x.toNat ≠ 0) : x ≠ 0 := fun h0 => h (by rw [h0]; rfl)

theorem toNat_ne_zero {x : UInt64} (h : x ≠ 0) : x.toNat ≠ 0 := (toNat_pos h).ne'

theorem meaningful_spare_iff (h : Placed r shift.toNat) (h0 : r.denominator ≠ 0) (hs : shift.toNat ≤ 30)
    (hspare : r.denominator.toNat < 2 ^ (31 - shift.toNat)) :
    Meaningful r ((r.scaled shift).shifted shift).reduced ↔
      2 ^ (shift.toNat + 1) ≤ r.denominator.toNat ∧
        (2 ^ (shift.toNat + 1) ∣ r.denominator.toNat → units shift.toNat r.numerator.toNat = 2 ^ 32 →
          r.denominator.toNat / 2 ^ (shift.toNat + 1) ∣ 2 ^ 32 ∧
            r.denominator.toNat / 2 ^ (shift.toNat + 1) ≠ 1) := by
  have hpos := toNat_pos h0
  have hd31 : r.denominator.toNat < 2 ^ 31 := hspare.trans_le (Nat.pow_le_pow_right (by decide) (Nat.sub_le _ _))
  have hlarge : 2 ^ (32 + shift.toNat) ≤ r.numerator.toNat := by
    have hmax := h.large
    have hpow : 2 ^ 32 ≤ 2 ^ (32 + shift.toNat) := Nat.pow_le_pow_right (by decide) (by omega)
    omega
  obtain ⟨hN32, hD32⟩ := terms_le h
  obtain ⟨eN, eD⟩ := terms_of_spare h h0 hspare
  have hunit := Nat.two_pow_pos (shift.toNat + 1)
  have hlow : r.denominator.toNat / 2 ^ (shift.toNat + 1) ≠ 0 ↔ 2 ^ (shift.toNat + 1) ≤ r.denominator.toNat := by
    rw [Nat.ne_zero_iff_zero_lt, Nat.div_pos_iff]
    omega
  have hfull : ((r.scaled shift).shifted shift).numerator.toNat = 2 ^ 32 ↔
      2 ^ (shift.toNat + 1) ∣ r.denominator.toNat ∧ units shift.toNat r.numerator.toNat = 2 ^ 32 := by
    have hle : r.denominator.toNat / 2 ^ (shift.toNat + 1) * 2 ^ (shift.toNat + 1) ≤ r.denominator.toNat :=
      Nat.div_mul_le_self _ _
    have hquotient : r.numerator.toNat * (r.denominator.toNat / 2 ^ (shift.toNat + 1) * 2 ^ (shift.toNat + 1)) /
        r.denominator.toNat ≤ r.numerator.toNat := by
      refine Nat.div_le_of_le_mul ?_
      rw [Nat.mul_comm r.denominator.toNat]
      exact Nat.mul_le_mul_left _ hle
    rw [eN, units_full_iff (hquotient.trans_lt h.numerator), units_full_iff h.numerator,
      scaled_full_iff h.numerator hpos hd31 hle, Nat.dvd_iff_div_mul_eq]
  constructor
  · intro hm
    obtain ⟨hne, hreducible⟩ := hm.terms hN32 hD32
    refine ⟨hlow.mp (eD ▸ toNat_ne_zero hne), fun hdvd hn => ?_⟩
    rw [← eD]
    exact hreducible.1 (hfull.mpr ⟨hdvd, hn⟩)
  · rintro ⟨hd, hrounds⟩
    have he := hlow.mpr hd
    have hne : ((r.scaled shift).shifted shift).denominator ≠ 0 := ne_zero_of_toNat (eD ▸ he)
    refine meaningful_of_faithful h h0 (negative_shifted_scaled r shift) hne ?_ ?_
    · rw [inRange_reduced_iff hN32 hD32 hne]
      refine ⟨fun hn => ?_, fun hd => ?_⟩
      · rw [eD]
        exact hrounds (hfull.mp hn).1 (hfull.mp hn).2
      · have hle := Nat.div_le_self r.denominator.toNat (2 ^ (shift.toNat + 1))
        omega
    · rw [eN, eD]
      exact faithful_scaled hpos hlarge (Nat.pos_of_ne_zero he)

theorem meaningful_ge_iff (h : Placed r shift.toNat) (h0 : r.denominator ≠ 0) (hs : shift.toNat ≤ 30)
    (hspare : 2 ^ (31 - shift.toNat) ≤ r.denominator.toNat) :
    Meaningful r ((r.scaled shift).shifted shift).reduced ↔
      2 ^ shift.toNat ≤ r.denominator.toNat ∧
        Reducible (units shift.toNat r.numerator.toNat) (units shift.toNat r.denominator.toNat) := by
  obtain ⟨hN32, hD32⟩ := terms_le h
  obtain ⟨eN, eD⟩ := terms_of_ge h hs hspare
  constructor
  · intro hm
    obtain ⟨hne, hreducible⟩ := hm.terms hN32 hD32
    rw [eN, eD] at hreducible
    exact ⟨units_ne_zero_iff.mp (eD ▸ toNat_ne_zero hne), hreducible⟩
  · rintro ⟨hd, hreducible⟩
    have hD := units_ne_zero_iff.mpr hd
    have hne : ((r.scaled shift).shifted shift).denominator ≠ 0 := ne_zero_of_toNat (eD ▸ hD)
    refine meaningful_of_faithful h h0 (negative_shifted_scaled r shift) hne ?_ ?_
    · rwa [inRange_reduced_iff hN32 hD32 hne, eN, eD]
    · rw [eN, eD]
      exact faithful_rounded h.large hD

theorem not_near_of_small {N D n d : ℕ} (hN : N = 2 ^ 32 - 1) (hD : 0 < D) (hD' : D < 2 ^ 32) (hn : n < 2 ^ 31)
    (hd : 2 ^ 63 ≤ d) : ¬ |(N : ℚ) / D - n / d| ≤ n / d * (4 * 2 ^ (31 + 1) / (min n d : ℕ)) := by
  intro hnear
  have hd' : (2 ^ 63 : ℚ) ≤ d := by exact_mod_cast hd
  have hD0 : (0 : ℚ) < D := by exact_mod_cast hD
  have hone : (1 : ℚ) ≤ N / D := by
    rw [le_div_iff₀ hD0, one_mul]
    exact_mod_cast (by omega : D ≤ N)
  have hsmall : (n : ℚ) / d ≤ 1 / 2 ^ 32 := by
    have hn' : (n : ℚ) ≤ 2 ^ 31 := by exact_mod_cast hn.le
    rw [div_le_div_iff₀ (by linarith) (by positivity)]
    linarith
  have hbound : (n : ℚ) / d * (4 * 2 ^ (31 + 1) / (min n d : ℕ)) ≤ 1 / 2 ^ 29 := by
    rw [Nat.min_eq_left (by omega)]
    rcases Nat.eq_zero_or_pos n with rfl | hpos
    · norm_num
    · have e : (n : ℚ) / d * (4 * 2 ^ (31 + 1) / n) = 2 ^ 34 / d := by
        field_simp
        norm_num
      rw [e, div_le_div_iff₀ (by linarith) (by positivity)]
      linarith
  have hdiff := (le_abs_self _).trans hnear
  linarith

theorem meaningful_cut_iff (h : Placed r shift.toNat) (h0 : r.denominator ≠ 0) (hs : shift.toNat = 31) :
    Meaningful r ((r.scaled shift).shifted shift).reduced ↔
      2 ^ 31 ≤ r.numerator.toNat ∧ (r.denominator.toNat < 2 ^ 31 ∨ 3 * 2 ^ 31 ≤ r.denominator.toNat) := by
  obtain ⟨hN32, hD32⟩ := terms_le h
  obtain ⟨eN, eD⟩ := terms_of_cut h h0 hs
  have hlarge := h.large
  have hplace := h.place_eq
  rw [hs] at hlarge hplace
  have hd64 := r.denominator.toNat_lt
  have hlost : cut r.denominator.toNat ≠ 0 ↔
      r.denominator.toNat < 2 ^ 31 ∨ 3 * 2 ^ 31 ≤ r.denominator.toNat := by
    unfold cut
    omega
  constructor
  · intro hm
    obtain ⟨hne, -⟩ := hm.terms hN32 hD32
    have hD := eD ▸ toNat_ne_zero hne
    refine ⟨?_, hlost.mp hD⟩
    by_contra hsmall
    have hnear := hm.near h.not_inRange
    rw [(keeps_reduced hne).value, abs_value_sub (negative_shifted_scaled r shift), abs_value, eN, eD, hplace] at hnear
    exact not_near_of_small (cut_of_lt (by omega)) (Nat.pos_of_ne_zero hD) (cut_lt _) (by omega) (by omega) hnear
  · rintro ⟨hn, hd⟩
    have hne : ((r.scaled shift).shifted shift).denominator ≠ 0 := ne_zero_of_toNat (eD ▸ hlost.mpr hd)
    refine meaningful_of_faithful (s := 31) (hs ▸ h) h0 (negative_shifted_scaled r shift) hne ?_ ?_
    · rw [inRange_reduced_iff hN32 hD32 hne, eN, eD]
      exact ⟨fun hfull => absurd hfull (cut_lt _).ne, fun hfull => absurd hfull (cut_lt _).ne⟩
    · rw [eN, eD]
      exact faithful_cut hlarge hn r.numerator.toNat_lt hd64 hd

/-- **Precision**: an assignment keeps a meaningful number exactly when no term is lost or rounded up to 33 bits. -/
theorem meaningful_iff (hd : r.denominator ≠ 0) : Meaningful r r.restrict ↔ Restrictable r := by
  by_cases hin : InRange r
  · exact iff_of_true (meaningful_of_inRange hd hin) (.inl hin)
  · have hlarge : 2 ^ 32 ≤ max r.numerator.toNat r.denominator.toNat := by
      rw [inRange_iff] at hin
      omega
    obtain ⟨shift, hplaced, hrestrict⟩ := restrict_of_large hlarge
    have hle := hplaced.le
    have hplace := hplaced.place_eq
    rw [hrestrict]
    unfold Restrictable
    rw [hplace, or_iff_right hin]
    by_cases hs : shift.toNat = 31
    · rw [meaningful_cut_iff hplaced hd hs, hs]
      simp
    · by_cases hspare : r.denominator.toNat < 2 ^ (31 - shift.toNat)
      · rw [meaningful_spare_iff hplaced hd (by omega) hspare]
        simp only [hs, hspare, not_le.mpr hspare, show shift.toNat ≤ 30 by omega, true_and, false_and, and_false,
          or_false]
      · rw [meaningful_ge_iff hplaced hd (by omega) (not_lt.mp hspare)]
        simp only [hs, hspare, not_lt.mp hspare, show shift.toNat ≤ 30 by omega, true_and, false_and, and_false,
          or_false, false_or]

theorem meaningful_iff_third :
    Meaningful ⟨true, 2 ^ 40, 3 * 2 ^ 20⟩ (restrict ⟨true, 2 ^ 40, 3 * 2 ^ 20⟩) ↔
      Restrictable ⟨true, 2 ^ 40, 3 * 2 ^ 20⟩ :=
  meaningful_iff (by decide)

/-- Two terms of 33 bits, of which the numerator rounds up: it still has 33. -/
theorem not_meaningful : ¬ ∀ r : Rational, r.denominator ≠ 0 → Meaningful r r.restrict := by
  intro h
  have hrange := (h ⟨false, 2 ^ 33 - 1, 2 ^ 32 + 1⟩ (by decide)).inRange.1
  have hfull : (restrict ⟨false, 2 ^ 33 - 1, 2 ^ 32 + 1⟩).numerator.toNat = 2 ^ 32 := by decide
  omega

end Player2.Rational

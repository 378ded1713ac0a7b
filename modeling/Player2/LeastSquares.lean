import Player2.LinearFit
import Player2.LongLongLong
import Player2.RationalBounds

/-! # Least squares on integers

`LeastSquares_c` takes points as the differences from the point before, and keeps their sums in 96-bit integers.
`Gradient` and `Intercept` make numerator and denominator of the line that fits best, read both out and divide the
one that was shifted less, so that both have lost the same bits.

The sums are those of the points as long as each number that is added is more than the least `long long`
(`holds_run`).  The fractions are then those of the best line, cut to the bits that the longer term keeps
(`ratio_eq`), unless one term was shifted by 31 more than the other: `1 << 31` is a negative `int`, and further
shifts are undefined. -/

namespace Player2

/-- `LeastSquares_c`. -/
structure LeastSquares where
  count : UInt32
  cumulativeX : Int64
  cumulativeY : Int64
  sigmaXSquared : LongLongLong
  sigmaX : LongLongLong
  sigmaY : LongLongLong
  sigmaYX : LongLongLong
deriving DecidableEq, Repr

namespace LeastSquares

open LinearFit
open LongLongLong (Denotes Reads FitsLong excess ofLong)

/-! ### The class -/

def reset : LeastSquares where
  count := 0
  cumulativeX := 0
  cumulativeY := 0
  sigmaXSquared := ofLong 0
  sigmaX := ofLong 0
  sigmaY := ofLong 0
  sigmaYX := ofLong 0

def add (s : LeastSquares) (deltaY deltaX : Int64) : LeastSquares :=
  let cumulativeY := s.cumulativeY + deltaY
  let cumulativeX := s.cumulativeX + deltaX
  { count := s.count + 1
    cumulativeX
    cumulativeY
    sigmaY := s.sigmaY.addLong cumulativeY
    sigmaYX := s.sigmaYX.addLong (cumulativeY * cumulativeX)
    sigmaXSquared := s.sigmaXSquared.addLong (cumulativeX * cumulativeX)
    sigmaX := s.sigmaX.addLong cumulativeX }

/-- `1 << Shift`, an `int` that becomes a `long long`. -/
def unit (shift : UInt64) : Int64 := (Rational.intOf (1 <<< shift)).toInt64

/-- The fraction of two integers, of which the one that was shifted less is divided. -/
def ratio (top bottom : LongLongLong) : Rational :=
  let (topLong, topShift) := top.get
  let (bottomLong, bottomShift) := bottom.get
  if topShift ≠ bottomShift then
    if topShift > bottomShift then
      Rational.ofIntegers topLong.toInt (bottomLong / unit (topShift - bottomShift)).toInt
    else Rational.ofIntegers (topLong / unit (bottomShift - topShift)).toInt bottomLong.toInt
  else Rational.ofIntegers topLong.toInt bottomLong.toInt

/-- `Count`, as a `long long`. -/
def countLong (s : LeastSquares) : Int64 := s.count.toUInt64.toInt64

/-- The denominator. -/
def bottomTerm (s : LeastSquares) : LongLongLong :=
  (s.sigmaX.mul s.sigmaX).sub (LongLongLong.longMul s.countLong s.sigmaXSquared)

def gradient (s : LeastSquares) : Rational :=
  if s.count < 2 then Rational.ofInt 0
  else ratio ((s.sigmaY.mul s.sigmaX).sub (LongLongLong.longMul s.countLong s.sigmaYX)) s.bottomTerm

def intercept (s : LeastSquares) : Rational :=
  if s.count < 2 then Rational.ofInt 0
  else ratio ((s.sigmaX.mul s.sigmaYX).sub (s.sigmaY.mul s.sigmaXSquared)) s.bottomTerm

/-- The state after points that were added, each as a difference in `y` and one in `x`. -/
def run (adds : List (Int64 × Int64)) : LeastSquares := adds.foldl (fun s d => s.add d.1 d.2) reset

/-! ### The points -/

/-- The points after a point, from the differences. -/
def pointsFrom : ℤ × ℤ → List (Int64 × Int64) → List (ℤ × ℤ)
  | _, [] => []
  | (x, y), (deltaY, deltaX) :: adds =>
    let p := (x + deltaX.toInt, y + deltaY.toInt)
    p :: pointsFrom p adds

/-- The points that were added. -/
def points (adds : List (Int64 × Int64)) : List (ℤ × ℤ) := pointsFrom (0, 0) adds

/-- A point whose coordinates and products a `long long` holds. -/
structure Fits (p : ℤ × ℤ) : Prop where
  x : FitsLong p.1
  y : FitsLong p.2
  yx : FitsLong (p.2 * p.1)
  xx : FitsLong (p.1 * p.1)

/-- No number of a point is the least `long long`. -/
structure Regular (p : ℤ × ℤ) : Prop where
  x : p.1 ≠ -2 ^ 63
  y : p.2 ≠ -2 ^ 63
  yx : p.2 * p.1 ≠ -2 ^ 63

/-! ### The sums -/

section
variable {s : LeastSquares} {ps : List (ℤ × ℤ)} {p : ℤ × ℤ}

theorem abs_le_of_fits {z : ℤ} (h : FitsLong z) : |z| ≤ 2 ^ 63 := by
  unfold FitsLong at h
  rw [abs_le]
  omega

/-- What has been added up of the points `ps`, of which `p` is the last. -/
structure Holds (s : LeastSquares) (ps : List (ℤ × ℤ)) (p : ℤ × ℤ) : Prop where
  count : s.count.toNat = ps.length
  x : s.cumulativeX.toInt = p.1
  y : s.cumulativeY.toInt = p.2
  sigmaX : Denotes s.sigmaX (sumX ps)
  sigmaY : Denotes s.sigmaY (sumY ps)
  sigmaYX : Denotes s.sigmaYX (sumYX ps)
  sigmaXSquared : Denotes s.sigmaXSquared (sumXX ps)

theorem holds_reset : Holds reset [] (0, 0) := by
  have hzero : Denotes (ofLong 0) 0 := LongLongLong.denotes_ofLong_iff.mpr (by decide)
  exact ⟨rfl, rfl, rfl, hzero, hzero, hzero, hzero⟩

theorem abs_sum_lt {zs : List ℤ} (h : ∀ z ∈ zs, FitsLong z) (hlen : zs.length < 2 ^ 32) : |zs.sum| < 2 ^ 95 := by
  have hsum := abs_sum_le fun z hz => abs_le_of_fits (h z hz)
  refine hsum.trans_lt ?_
  omega

theorem denotes_addLong {a : LongLongLong} {sum : ℤ} {v : Int64} (ha : Denotes a sum) (hv : v.toInt ≠ -2 ^ 63)
    (hsum : |sum| < 2 ^ 95) : Denotes (a.addLong v) (sum + v.toInt) := by
  refine LongLongLong.denotes_add ha (LongLongLong.denotes_ofLong_iff.mpr hv) ?_
  have hle := abs_le_of_fits ⟨v.le_toInt, v.toInt_lt⟩
  have hadd := abs_add_le sum v.toInt
  omega

theorem toInt_add_of_fits {v w : Int64} (h : FitsLong (v.toInt + w.toInt)) : (v + w).toInt = v.toInt + w.toInt := by
  unfold FitsLong at h
  rw [Int64.toInt_add]
  exact Int.bmod_eq_of_le (by omega) (by omega)

theorem toInt_mul_of_fits {v w : Int64} (h : FitsLong (v.toInt * w.toInt)) : (v * w).toInt = v.toInt * w.toInt := by
  unfold FitsLong at h
  rw [Int64.toInt_mul]
  exact Int.bmod_eq_of_le (by omega) (by omega)

/-- The points that were added before fit, and there are not too many. -/
structure InRange (ps : List (ℤ × ℤ)) : Prop where
  length : ps.length < 2 ^ 32
  fits : ∀ p ∈ ps, Fits p

theorem InRange.abs_lt (h : InRange ps) {f : ℤ × ℤ → ℤ} (hf : ∀ p, Fits p → FitsLong (f p)) :
    |(ps.map f).sum| < 2 ^ 95 := by
  apply abs_sum_lt
  · intro z hz
    obtain ⟨p, hp, rfl⟩ := List.mem_map.mp hz
    exact hf p (h.fits p hp)
  · rw [List.length_map]
    exact h.length

theorem Holds.add {deltaY deltaX : Int64} (h : Holds s ps p) (hps : InRange ps) (hlen : ps.length + 1 < 2 ^ 32)
    (hfits : Fits (p.1 + deltaX.toInt, p.2 + deltaY.toInt))
    (hregular : Regular (p.1 + deltaX.toInt, p.2 + deltaY.toInt)) :
    Holds (s.add deltaY deltaX) (ps ++ [(p.1 + deltaX.toInt, p.2 + deltaY.toInt)])
      (p.1 + deltaX.toInt, p.2 + deltaY.toInt) := by
  obtain ⟨hcount, hx, hy, hsx, hsy, hsyx, hsxx⟩ := h
  have hx' : (s.cumulativeX + deltaX).toInt = p.1 + deltaX.toInt := by
    rw [← hx]
    exact toInt_add_of_fits (hx ▸ hfits.x)
  have hy' : (s.cumulativeY + deltaY).toInt = p.2 + deltaY.toInt := by
    rw [← hy]
    exact toInt_add_of_fits (hy ▸ hfits.y)
  obtain ⟨fx, fy, fyx, fxx⟩ := hfits
  obtain ⟨rx, ry, ryx⟩ := hregular
  rw [← hx'] at fx fyx fxx rx ryx
  rw [← hy'] at fy fyx ry ryx
  have hyx := toInt_mul_of_fits fyx
  have hxx := toInt_mul_of_fits fxx
  have hsquare : (s.cumulativeX + deltaX).toInt * (s.cumulativeX + deltaX).toInt ≠ -2 ^ 63 := by
    have hnonneg := mul_self_nonneg (s.cumulativeX + deltaX).toInt
    omega
  refine ⟨?_, hx', hy', ?_, ?_, ?_, ?_⟩
  · show (s.count + 1).toNat = _
    have hone : (1 : UInt32).toNat = 1 := rfl
    rw [UInt32.toNat_add, hcount, hone, List.length_append, List.length_singleton]
    exact Nat.mod_eq_of_lt hlen
  · rw [sumX_concat, ← hx']
    exact denotes_addLong hsx rx (hps.abs_lt fun _ h => h.x)
  · rw [sumY_concat, ← hy']
    exact denotes_addLong hsy ry (hps.abs_lt fun _ h => h.y)
  · rw [sumYX_concat, ← hx', ← hy', ← hyx]
    exact denotes_addLong hsyx (hyx ▸ ryx) (hps.abs_lt fun _ h => h.yx)
  · rw [sumXX_concat, ← hx', ← hxx]
    exact denotes_addLong hsxx (hxx ▸ hsquare) (hps.abs_lt fun _ h => h.xx)

theorem holds_foldl (adds : List (Int64 × Int64)) (h : Holds s ps p) (hrange : InRange (ps ++ pointsFrom p adds))
    (hregular : ∀ q ∈ pointsFrom p adds, Regular q) :
    ∃ q, Holds (adds.foldl (fun s d => s.add d.1 d.2) s) (ps ++ pointsFrom p adds) q := by
  induction adds generalizing s ps p with
  | nil =>
    rw [pointsFrom, List.append_nil]
    exact ⟨p, h⟩
  | cons d adds ih =>
    obtain ⟨deltaY, deltaX⟩ := d
    rw [pointsFrom, List.append_cons] at hrange ⊢
    rw [pointsFrom] at hregular
    have hlen := hrange.length
    rw [List.length_append, List.length_append, List.length_singleton] at hlen
    have hps : InRange ps := ⟨by omega, fun q hq => hrange.fits q (by simp [hq])⟩
    have hnew : Fits (p.1 + deltaX.toInt, p.2 + deltaY.toInt) := hrange.fits _ (by simp)
    have hnew' : Regular (p.1 + deltaX.toInt, p.2 + deltaY.toInt) := hregular _ (by simp)
    have hstep := h.add hps (by omega) hnew hnew'
    exact ih hstep hrange fun q hq => hregular q (by simp [hq])

theorem holds_run {adds : List (Int64 × Int64)} (hrange : InRange (points adds))
    (hregular : ∀ q ∈ points adds, Regular q) : ∃ q, Holds (run adds) (points adds) q :=
  holds_foldl adds holds_reset hrange hregular

end

/-! ### The fractions -/

/-- A fraction of which both terms are cut by what is too much for the longer one. -/
def cutRatio (top bottom : ℤ) : Rational :=
  let shift := max (excess top.natAbs) (excess bottom.natAbs)
  Rational.ofIntegers (top.tdiv (2 ^ shift)) (bottom.tdiv (2 ^ shift))

/-- Two terms that are cut by about as much. -/
structure Near (top bottom : ℤ) : Prop where
  topShift : excess top.natAbs ≤ excess bottom.natAbs + 30
  bottomShift : excess bottom.natAbs ≤ excess top.natAbs + 30

theorem tdiv_tdiv (z : ℤ) (j k : ℕ) : (z.tdiv (2 ^ j)).tdiv (2 ^ k) = z.tdiv (2 ^ (j + k)) := by
  have hnat : ∀ n : ℕ, ((n : ℤ).tdiv (2 ^ j)).tdiv (2 ^ k) = (n : ℤ).tdiv (2 ^ (j + k)) := by
    intro n
    have hcast : ∀ i : ℕ, (2 : ℤ) ^ i = ((2 ^ i : ℕ) : ℤ) := fun i => by push_cast; rfl
    rw [hcast, hcast, hcast, ← Int.ofNat_tdiv, ← Int.ofNat_tdiv, ← Int.ofNat_tdiv, Nat.div_div_eq_div_mul, Nat.pow_add]
  rcases Int.natAbs_eq z with h | h
  · rw [h]
    exact hnat _
  · rw [h, Int.neg_tdiv, Int.neg_tdiv, Int.neg_tdiv, hnat]

theorem toInt_unit {shift : UInt64} (h : shift.toNat ≤ 30) : (unit shift).toInt = 2 ^ shift.toNat := by
  have hhalf := Rational.toNat_half h
  have hsigned : OutputCoordinator.signed (Rational.wordOf (Rational.intOf (1 <<< shift))) = (unit shift).toInt := rfl
  have hsmall : 2 ^ shift.toNat ≤ 2 ^ 30 := Nat.pow_le_pow_right (by decide) h
  rw [← hsigned, OutputCoordinator.signed_eq, hhalf, if_pos (by omega)]
  rfl

theorem toInt_div_unit (v : Int64) {shift : UInt64} (h : shift.toNat ≤ 30) :
    (v / unit shift).toInt = v.toInt.tdiv (2 ^ shift.toNat) := by
  have hunit := toInt_unit h
  have hne : unit shift ≠ -1 := by
    intro hone
    rw [hone] at hunit
    have hpos : (0 : ℤ) < 2 ^ shift.toNat := by positivity
    have hminus : (-1 : Int64).toInt = -1 := rfl
    omega
  rw [Int64.toInt_div_of_ne_right _ _ hne, hunit]

theorem ratio_eq {top bottom : LongLongLong} {t b : ℤ} (ht : Denotes top t) (hb : Denotes bottom b)
    (hnear : Near t b) : ratio top bottom = cutRatio t b := by
  obtain ⟨htop, htop'⟩ := LongLongLong.get_eq ht.wellFormed
  obtain ⟨hbottom, hbottom'⟩ := LongLongLong.get_eq hb.wellFormed
  obtain ⟨h1, h2⟩ := hnear
  rw [← LongLongLong.natAbs_toInt, ht.toInt_eq] at htop htop'
  rw [← LongLongLong.natAbs_toInt, hb.toInt_eq] at hbottom hbottom'
  unfold ratio cutRatio
  dsimp only
  generalize top.get = x at htop htop' ⊢
  generalize bottom.get = y at hbottom hbottom' ⊢
  generalize excess t.natAbs = j at htop htop' h1 h2 ⊢
  generalize excess b.natAbs = k at hbottom hbottom' h1 h2 ⊢
  split
  next hne =>
    split
    next hgt =>
      rw [gt_iff_lt, UInt64.lt_iff_toNat_lt] at hgt
      have hsub : (x.2 - y.2).toNat = x.2.toNat - y.2.toNat :=
        UInt64.toNat_sub_of_le _ _ (UInt64.le_iff_toNat_le.mpr hgt.le)
      have hsum : k + (x.2.toNat - y.2.toNat) = j := by omega
      rw [toInt_div_unit _ (by omega), hsub, hbottom, tdiv_tdiv, hsum, htop, max_eq_left (by omega)]
    next hle =>
      rw [gt_iff_lt, UInt64.lt_iff_toNat_lt] at hle
      have hsub : (y.2 - x.2).toNat = y.2.toNat - x.2.toNat :=
        UInt64.toNat_sub_of_le _ _ (UInt64.le_iff_toNat_le.mpr (not_lt.mp hle))
      have hsum : j + (y.2.toNat - x.2.toNat) = k := by omega
      rw [toInt_div_unit _ (by omega), hsub, htop, tdiv_tdiv, hsum, hbottom, max_eq_right (by omega)]
  next heq =>
    have heq := congrArg UInt64.toNat (not_not.mp heq)
    have hsame : j = k := by omega
    rw [htop, hbottom, hsame, max_self]

/-- A difference of two products of which each has at most 96 bits. -/
structure ProductsFit (x y : ℤ) : Prop where
  left : |x| < 2 ^ 96
  right : |y| < 2 ^ 96
  difference : |x - y| < 2 ^ 96

section
variable {s : LeastSquares} {ps : List (ℤ × ℤ)} {p : ℤ × ℤ}

theorem Holds.denotes_count (h : Holds s ps p) {a : LongLongLong} {z : ℤ} (ha : Denotes a z)
    (hfits : |(ps.length : ℤ) * z| < 2 ^ 96) : Denotes (LongLongLong.longMul s.countLong a) (ps.length * z) := by
  have hlt := s.count.toNat_lt
  have hcount : s.countLong.toInt = ps.length := by
    have hword : s.count.toUInt64.toNat = ps.length := h.count
    rw [← hword]
    exact BitVec.toInt_eq_toNat_of_lt (by
      show 2 * s.count.toUInt64.toNat < 2 ^ 64
      rw [UInt32.toNat_toUInt64]
      omega)
  have hlong : Denotes (ofLong s.countLong) (ps.length : ℤ) := by
    rw [← hcount]
    refine LongLongLong.denotes_ofLong_iff.mpr ?_
    omega
  exact LongLongLong.denotes_mul hlong ha hfits

theorem Holds.denotes_bottom (h : Holds s ps p) (hfits : ProductsFit (sumX ps * sumX ps) (ps.length * sumXX ps)) :
    Denotes s.bottomTerm (bottom ps) :=
  LongLongLong.denotes_sub (LongLongLong.denotes_mul h.sigmaX h.sigmaX hfits.left)
    (h.denotes_count h.sigmaXSquared hfits.right) hfits.difference

theorem Holds.not_lt (h : Holds s ps p) (hlen : 2 ≤ ps.length) : ¬ s.count < 2 := by
  have htwo : (2 : UInt32).toNat = 2 := rfl
  rw [UInt32.lt_iff_toNat_lt, h.count, htwo]
  omega

theorem Holds.gradient_eq (h : Holds s ps p) (hlen : 2 ≤ ps.length)
    (htop : ProductsFit (sumY ps * sumX ps) (ps.length * sumYX ps))
    (hbottom : ProductsFit (sumX ps * sumX ps) (ps.length * sumXX ps)) (hnear : Near (gradientTop ps) (bottom ps)) :
    s.gradient = cutRatio (gradientTop ps) (bottom ps) := by
  have htop' := LongLongLong.denotes_sub (LongLongLong.denotes_mul h.sigmaY h.sigmaX htop.left)
    (h.denotes_count h.sigmaYX htop.right) htop.difference
  unfold gradient
  rw [if_neg (h.not_lt hlen)]
  exact ratio_eq htop' (h.denotes_bottom hbottom) hnear

theorem Holds.intercept_eq (h : Holds s ps p) (hlen : 2 ≤ ps.length)
    (htop : ProductsFit (sumX ps * sumYX ps) (sumY ps * sumXX ps))
    (hbottom : ProductsFit (sumX ps * sumX ps) (ps.length * sumXX ps)) (hnear : Near (interceptTop ps) (bottom ps)) :
    s.intercept = cutRatio (interceptTop ps) (bottom ps) := by
  have htop' := LongLongLong.denotes_sub (LongLongLong.denotes_mul h.sigmaX h.sigmaYX htop.left)
    (LongLongLong.denotes_mul h.sigmaY h.sigmaXSquared htop.right) htop.difference
  unfold intercept
  rw [if_neg (h.not_lt hlen)]
  exact ratio_eq htop' (h.denotes_bottom hbottom) hnear

end

/-! ### The best line -/

/-- **Least squares**: the 96-bit operators are exact, and after any run of points the gradient and the intercept
are the fractions of the best line up to the bits that were cut, as far as the sums are in range, no number is the
least `long long` and the terms are not shifted too differently. -/
theorem least_squares_exact {a f : LongLongLong} (ha : a.WellFormed) (hf : f.WellFormed)
    {adds : List (Int64 × Int64)} (hrange : InRange (points adds)) (hlen : 2 ≤ (points adds).length)
    (hregular : ∀ q ∈ points adds, Regular q)
    (hbottom : ProductsFit (sumX (points adds) * sumX (points adds))
      ((points adds).length * sumXX (points adds))) :
    LongLongLong.Exact a f ∧
      (ProductsFit (sumY (points adds) * sumX (points adds)) ((points adds).length * sumYX (points adds)) →
        Near (gradientTop (points adds)) (bottom (points adds)) →
        (run adds).gradient = cutRatio (gradientTop (points adds)) (bottom (points adds))) ∧
      (ProductsFit (sumX (points adds) * sumYX (points adds)) (sumY (points adds) * sumXX (points adds)) →
        Near (interceptTop (points adds)) (bottom (points adds)) →
        (run adds).intercept = cutRatio (interceptTop (points adds)) (bottom (points adds))) := by
  obtain ⟨p, hrun⟩ := holds_run hrange hregular
  exact ⟨LongLongLong.exact_of_wellFormed ha hf, fun htop => hrun.gradient_eq hlen htop hbottom,
    fun htop => hrun.intercept_eq hlen htop hbottom⟩

/-- A line through two points. -/
theorem least_squares_exact_two :
    LongLongLong.Exact (ofLong 3) (ofLong (-4)) ∧
      (ProductsFit (sumY (points [(1, 2), (3, 4)]) * sumX (points [(1, 2), (3, 4)]))
          ((points [(1, 2), (3, 4)]).length * sumYX (points [(1, 2), (3, 4)])) →
        Near (gradientTop (points [(1, 2), (3, 4)])) (bottom (points [(1, 2), (3, 4)])) →
        (run [(1, 2), (3, 4)]).gradient =
          cutRatio (gradientTop (points [(1, 2), (3, 4)])) (bottom (points [(1, 2), (3, 4)]))) ∧
      (ProductsFit (sumX (points [(1, 2), (3, 4)]) * sumYX (points [(1, 2), (3, 4)]))
          (sumY (points [(1, 2), (3, 4)]) * sumXX (points [(1, 2), (3, 4)])) →
        Near (interceptTop (points [(1, 2), (3, 4)])) (bottom (points [(1, 2), (3, 4)])) →
        (run [(1, 2), (3, 4)]).intercept =
          cutRatio (interceptTop (points [(1, 2), (3, 4)])) (bottom (points [(1, 2), (3, 4)]))) := by
  have hpoints : points [(1, 2), (3, 4)] = [(2, 1), (6, 4)] := rfl
  refine least_squares_exact (by unfold LongLongLong.WellFormed; decide) (by unfold LongLongLong.WellFormed; decide)
    ⟨by decide, ?_⟩ (by decide) ?_ ⟨by decide, by decide, by decide⟩
  · intro q hq
    rw [hpoints] at hq
    simp only [List.mem_cons, List.not_mem_nil, or_false] at hq
    rcases hq with rfl | rfl <;> exact ⟨by unfold FitsLong; decide, by unfold FitsLong; decide,
      by unfold FitsLong; decide, by unfold FitsLong; decide⟩
  · intro q hq
    rw [hpoints] at hq
    simp only [List.mem_cons, List.not_mem_nil, or_false] at hq
    rcases hq with rfl | rfl <;> exact ⟨by decide, by decide, by decide⟩

/-- A product that is the least `long long` spoils the gradient of a line through two points. -/
theorem not_least_squares_exact : ¬ ∀ adds : List (Int64 × Int64), InRange (points adds) →
    2 ≤ (points adds).length →
    ProductsFit (sumX (points adds) * sumX (points adds)) ((points adds).length * sumXX (points adds)) →
    ProductsFit (sumY (points adds) * sumX (points adds)) ((points adds).length * sumYX (points adds)) →
    (run adds).gradient = cutRatio (gradientTop (points adds)) (bottom (points adds)) := by
  intro h
  have hpoints : points [(-2 ^ 32, 2 ^ 31), (2 ^ 32, -2 ^ 32)] = [(2 ^ 31, -2 ^ 32), (-2 ^ 31, 0)] := by decide
  have hexact := h [(-2 ^ 32, 2 ^ 31), (2 ^ 32, -2 ^ 32)] ⟨by decide, ?_⟩ (by decide)
    ⟨by decide, by decide, by decide⟩ ⟨by decide, by decide, by decide⟩
  · revert hexact
    decide
  · intro q hq
    rw [hpoints] at hq
    simp only [List.mem_cons, List.not_mem_nil, or_false] at hq
    rcases hq with rfl | rfl <;> exact ⟨by unfold FitsLong; decide, by unfold FitsLong; decide,
      by unfold FitsLong; decide, by unfold FitsLong; decide⟩

end LeastSquares

end Player2

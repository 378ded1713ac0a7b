import Mathlib.Tactic.Linarith
import Player2.DisplayWindows

/-! # Where the display windows are

Each display format scales a dimension down, by the ratio of two aspect ratios that is at most one
(`scale_spec`, `rescale_spec`), and centres what is left; so the source stays within what it was, and the
destination spans the surface window in one direction.  `Kept` is what the calls keep: it holds the windows
of the last picture, for a call in which nothing has changed. -/

namespace Player2.DisplayWindows

open Rational

/-! ### Words -/

variable {z : ℤ}

theorem signed_eq (h : 0 ≤ z) (hlt : z < 2 ^ 31) : signed z = z :=
  Int.bmod_eq_of_le (by omega) (by omega)

theorem unsigned_eq (h : 0 ≤ z) (hlt : z < 2 ^ 32) : (unsigned z : ℤ) = z := by
  unfold unsigned
  rw [Int.emod_eq_of_lt h hlt, Int.toNat_of_nonneg h]

/-! ### Clipping -/

theorem clip_le {limit reset position extent : ℕ} (hreset : reset ≤ limit)
    (h : (clip limit reset position extent).1 + extent < 2 ^ 32) :
    (clip limit reset position extent).1 + (clip limit reset position extent).2 ≤ limit := by
  unfold clip at h ⊢
  dsimp only at h ⊢
  generalize hp : (if position > limit then reset else position) = p at h ⊢
  have hple : p ≤ limit := by
    rw [← hp]
    split <;> omega
  have hsum : (unsigned (p + extent) : ℤ) = p + extent := unsigned_eq (by omega) (by omega)
  split <;> omega

/-! ### Scaling -/

section
variable {dimension : ℤ} {ratio divisor : Rational}

theorem thousandths_eq (hneg : ratio.negative = false) (hd : ratio.denominator ≠ 0)
    (hterm : ratio.numerator.toNat ≤ 2 ^ 32) (hlt : 1000 * ratio.value < 2 ^ 31) :
    thousandths? ratio = some ⌊1000 * ratio.value⌋ := by
  have hthousand : (1000 : Int32).toInt = 1000 := rfl
  have hfit : (ratio.numerator.toNat : ℤ) * |(1000 : Int32).toInt| < 2 ^ 64 := by
    rw [hthousand, abs_of_pos (by decide)]
    omega
  obtain ⟨hvalue, hne⟩ := value_mulInt hd (by rw [hthousand]; decide) hfit
  have hnonneg : (ratio.mulInt 1000).negative = false := (negative_mulInt (by decide) ratio).trans hneg
  have hmul : (ratio.mulInt 1000).value = 1000 * ratio.value := by
    rw [hvalue, hthousand, mul_comm]
    rfl
  unfold thousandths? integerPart?
  rw [if_neg hne, toInt_integerPart_floor hnonneg (hmul ▸ hlt), hmul]

theorem scale_spec (h : Scalable dimension ratio divisor) (hratio : ratio.negative = false)
    (hdivisor : divisor.negative = false) (hterm : ratio.numerator.toNat ≤ 2 ^ 32)
    (hterm' : divisor.numerator.toNat ≤ 2 ^ 32) (hle : ratio.value ≤ divisor.value) (hdim : 0 ≤ dimension) :
    ∃ z, scale? dimension ratio divisor = some z ∧ 0 ≤ z ∧ z ≤ dimension := by
  have hp := thousandths_eq hdivisor h.divisor_ne hterm' h.lt
  have hw := thousandths_eq hratio h.ratio_ne hterm (lt_of_le_of_lt (by linarith) h.lt)
  have hfits := h.fits
  have hone : 1 ≤ ⌊1000 * divisor.value⌋ := Int.le_floor.mpr (by exact_mod_cast h.one_le)
  have hnonneg : 0 ≤ ⌊1000 * ratio.value⌋ := Int.floor_nonneg.mpr (by linarith [value_nonneg hratio])
  have hmono : ⌊1000 * ratio.value⌋ ≤ ⌊1000 * divisor.value⌋ := Int.floor_le_floor (by linarith)
  generalize ⌊1000 * divisor.value⌋ = p at hp hone hmono
  generalize ⌊1000 * ratio.value⌋ = w at hw hnonneg hmono hfits
  have hproduct : 0 ≤ dimension * w := mul_nonneg hdim hnonneg
  have hquotient : 0 ≤ dimension * w / p := Int.ediv_nonneg hproduct (by omega)
  have hbound : dimension * w / p ≤ dimension := by
    refine Int.ediv_le_of_le_mul (by omega) ?_
    exact mul_le_mul_of_nonneg_left hmono hdim
  have hle' : dimension * w / p ≤ dimension * w := Int.ediv_le_self p hproduct
  refine ⟨dimension * w / p, ?_, hquotient, hbound⟩
  unfold scale?
  rw [hp, hw]
  show divide? (signed (dimension * w)) p = _
  unfold divide?
  rw [if_neg (by omega), signed_eq hproduct hfits, Int.tdiv_eq_ediv_of_nonneg hproduct,
    signed_eq hquotient (by omega)]

theorem rescale_spec (h : Rescalable dimension ratio divisor) (hratio : ratio.negative = false)
    (hdivisor : divisor.negative = false) (hd : ratio.denominator ≠ 0) (hlt : ratio.value < divisor.value)
    (hdim : 0 ≤ dimension) (hsmall : dimension < 2 ^ 31) :
    ∃ z, rescale? dimension ratio divisor = some z ∧ 0 ≤ z ∧ z ≤ dimension := by
  have hv : (Int32.ofInt dimension).toInt = dimension := by
    rw [Int32.toInt_ofInt]
    exact signed_eq hdim hsmall
  have hpos : 0 < divisor.value := (value_nonneg hratio).trans_lt hlt
  have hnum := (terms_of_value_pos hpos).2
  have hfactor := toNat_pos h.divisor_ne
  have hnumerator : (ratio.numerator.toNat : ℤ) * |dimension| < 2 ^ 64 := by
    rw [abs_of_nonneg hdim, mul_comm]
    refine lt_of_le_of_lt ?_ h.numerator
    exact le_mul_of_one_le_right (mul_nonneg hdim (Int.natCast_nonneg _)) (by exact_mod_cast hfactor)
  obtain ⟨hmul, hne⟩ := value_mulInt (v := Int32.ofInt dimension) hd (by omega) (hv.symm ▸ hnumerator)
  obtain ⟨hle, hle'⟩ := mulInt_le (v := Int32.ofInt dimension) (r := ratio) (by omega)
    (hv.symm ▸ hnumerator)
  rw [hv] at hmul hle
  have hnonneg : (ratio.mulInt (Int32.ofInt dimension)).negative = false :=
    (negative_mulInt (hv.symm ▸ hdim) ratio).trans hratio
  have hterms : (ratio.mulInt (Int32.ofInt dimension)).numerator.toNat * divisor.denominator.toNat <
      2 ^ 64 := by
    have hbound := mul_le_mul_of_nonneg_right hle (Int.natCast_nonneg divisor.denominator.toNat)
    rw [abs_of_nonneg hdim, mul_comm (ratio.numerator.toNat : ℤ)] at hbound
    exact_mod_cast lt_of_le_of_lt hbound h.numerator
  have hterms' : (ratio.mulInt (Int32.ofInt dimension)).denominator.toNat * divisor.numerator.toNat <
      2 ^ 64 := (Nat.mul_le_mul_right _ hle').trans_lt h.denominator
  obtain ⟨hvalue, hne'⟩ := value_div hne hnum hterms hterms' hnonneg hdivisor
  have hsign : ((ratio.mulInt (Int32.ofInt dimension)).div divisor).negative = false := by
    rw [negative_div, hnonneg, hdivisor]
    rfl
  have hdimq : (0 : ℚ) ≤ dimension := by exact_mod_cast hdim
  have hquotient : ((ratio.mulInt (Int32.ofInt dimension)).div divisor).value ≤ dimension := by
    rw [hvalue, hmul, div_le_iff₀ hpos, mul_comm]
    exact mul_le_mul_of_nonneg_left hlt.le hdimq
  have hfits : ((ratio.mulInt (Int32.ofInt dimension)).div divisor).value < 2 ^ 31 :=
    hquotient.trans_lt (by exact_mod_cast hsmall)
  refine ⟨⌊((ratio.mulInt (Int32.ofInt dimension)).div divisor).value⌋, ?_, ?_, ?_⟩
  · unfold rescale? integerPart?
    rw [if_neg hne', toInt_integerPart_floor hsign hfits]
  · exact Int.floor_nonneg.mpr (value_nonneg hsign)
  · exact Int.floor_le_iff.mpr (by linarith)

end

/-! ### Aspect ratios -/

theorem shape_terms (aspect : DisplayAspectRatio) :
    aspect.shape.negative = false ∧ aspect.shape.numerator ≠ 0 ∧ aspect.shape.denominator ≠ 0 ∧
      aspect.shape.numerator.toNat ≤ 16 ∧ aspect.shape.denominator.toNat ≤ 9 := by
  cases aspect <;> decide

theorem ofInt_toInt (h : 0 ≤ z) (hlt : z < 2 ^ 31) : (Int32.ofInt z).toInt = z := by
  rw [Int32.toInt_ofInt]
  exact signed_eq h hlt

/-- The aspect ratio of a window that is on the surface is computed without overflow. -/
theorem plain_windowAspectRatio (d : SurfaceDescriptor) (aspect : DisplayAspectRatio) {dest : Area}
    (hwidth : 0 ≤ dest.width) (hwidth' : dest.width ≤ 4096) (hheight : 0 < dest.height)
    (hheight' : dest.height ≤ 4096) : Plain (windowAspectRatio d aspect dest) := by
  obtain ⟨hneg, hnum, hden, hnumLe, hdenLe⟩ := shape_terms aspect
  have hdw := d.width_le
  have hdh := d.height_le
  have hdhPos := d.height_pos
  unfold windowAspectRatio
  split
  next => exact ⟨hneg, hden, by omega, by omega⟩
  next =>
    refine Plain.restrict ?_
    generalize hscreen : Rational.ofIntegers d.displayWidth d.displayHeight = screen
    have hscreenNeg : screen.negative = false := by
      rw [← hscreen]
      unfold Rational.ofIntegers
      rfl
    have hscreenNum : screen.numerator.toNat = d.displayWidth := by
      rw [← hscreen]
      exact Nat.mod_eq_of_lt (by omega)
    have hscreenDen : screen.denominator.toNat = d.displayHeight := by
      rw [← hscreen]
      exact Nat.mod_eq_of_lt (by omega)
    have hscreenNe : screen.denominator ≠ 0 := by
      intro h0
      rw [h0, UInt64.toNat_zero] at hscreenDen
      omega
    have hnum' : screen.numerator.toNat * aspect.shape.denominator.toNat ≤ 2048 * 9 :=
      Nat.mul_le_mul (hscreenNum.trans_le hdw) hdenLe
    have hden' : screen.denominator.toNat * aspect.shape.numerator.toNat ≤ 2048 * 16 :=
      Nat.mul_le_mul (hscreenDen.trans_le hdh) hnumLe
    obtain ⟨-, hpixelNe⟩ := value_div hscreenNe hnum (by omega) (by omega) hscreenNeg hneg
    obtain ⟨hpixelNum, hpixelDen⟩ := div_le screen aspect.shape
    have hpixelNeg : (screen.div aspect.shape).negative = false := by
      rw [negative_div, hscreenNeg, hneg]
      rfl
    generalize screen.div aspect.shape = pixel at hpixelNe hpixelNum hpixelDen hpixelNeg ⊢
    have hw := ofInt_toInt hwidth (by omega)
    have hh := ofInt_toInt hheight.le (by omega)
    have hwideFit : (pixel.numerator.toNat : ℤ) * |(Int32.ofInt dest.width).toInt| ≤ 2048 * 9 * 4096 := by
      rw [hw, abs_of_nonneg hwidth]
      exact mul_le_mul (by omega) hwidth' hwidth (by decide)
    obtain ⟨-, hwideNe⟩ := value_mulInt hpixelNe (by omega) (hwideFit.trans_lt (by decide))
    obtain ⟨hwideNum, hwideDen⟩ := mulInt_le (r := pixel) (by omega) (hwideFit.trans_lt (by decide))
    have hwideNeg := negative_mulInt (hw.symm ▸ hwidth) pixel
    generalize pixel.mulInt (Int32.ofInt dest.width) = wide at hwideNe hwideNum hwideDen hwideNeg ⊢
    have hratioFit :
        (wide.denominator.toNat : ℤ) * (Int32.ofInt dest.height).toInt ≤ 2048 * 16 * 4096 := by
      rw [hh]
      exact mul_le_mul (by omega) hheight' hheight.le (by decide)
    obtain ⟨hratioNum, hratioDen, hratioNe⟩ :=
      divInt_le hwideNe (hh.symm ▸ hheight) (hratioFit.trans_lt (by decide))
    exact ⟨(negative_divInt (hh.symm ▸ hheight.le) wide).trans (hwideNeg.trans hpixelNeg), hratioNe,
      by omega, by omega⟩

/-- Two aspect ratios that a display format can compare. -/
structure Comparable (picture window : Rational) : Prop where
  nonneg : picture.negative = false
  numerator_le : picture.numerator.toNat ≤ 2 ^ 32
  denominator_le : picture.denominator.toNat ≤ 2 ^ 32
  plain : Plain window

theorem Comparable.gt_iff {picture window : Rational} (h : Comparable picture window)
    (hd : picture.denominator ≠ 0) : picture.gt window = true ↔ window.value < picture.value := by
  have hnum := h.plain.numerator_lt
  have hden := h.plain.denominator_lt
  refine Rational.gt_iff h.nonneg h.plain.nonneg hd h.plain.denominator_ne ?_ ?_
  · exact (Nat.mul_le_mul h.numerator_le (Nat.le_sub_one_of_lt hden)).trans_lt (by decide)
  · exact (Nat.mul_le_mul (Nat.le_sub_one_of_lt hnum) h.denominator_le).trans_lt (by decide)

/-! ### Display formats -/

/-- An area on a surface, or in a picture. -/
structure Area.Small (a : Area) : Prop where
  x : 0 ≤ a.x ∧ 0 ≤ a.width ∧ a.x + a.width ≤ 4096
  y : 0 ≤ a.y ∧ 0 ≤ a.height ∧ a.y + a.height ≤ 4096

/-- An area is part of another. -/
structure Area.Within (a b : Area) : Prop where
  x : b.x ≤ a.x ∧ 0 ≤ a.width ∧ a.x + a.width ≤ b.x + b.width
  y : b.y ≤ a.y ∧ 0 ≤ a.height ∧ a.y + a.height ≤ b.y + b.height

theorem Area.Within.refl {a : Area} (h : a.Small) : a.Within a :=
  ⟨⟨le_refl _, h.x.2.1, le_refl _⟩, le_refl _, h.y.2.1, le_refl _⟩

/-- An area spans another in one direction, and is in the middle of it in the other. -/
def Area.Boxed (a b : Area) : Prop :=
  (a.x = b.x ∧ a.width = b.width ∧ 0 ≤ a.height ∧ a.height ≤ b.height ∧
      a.y = b.y + (b.height - a.height) / 2) ∨
    (a.y = b.y ∧ a.height = b.height ∧ 0 ≤ a.width ∧ a.width ≤ b.width ∧
      a.x = b.x + (b.width - a.width) / 2)

theorem Area.Boxed.refl {a : Area} (h : a.Small) : a.Boxed a := by
  refine .inl ⟨rfl, rfl, h.y.2.1, le_refl _, ?_⟩
  rw [sub_self, Int.zero_ediv, add_zero]

theorem signed_add_half {position extent z : ℤ} (hp : 0 ≤ position) (hz : 0 ≤ z) (hle : z ≤ extent)
    (hsmall : position + extent ≤ 4096) :
    signed (position + half (signed (extent - z))) = position + (extent - z) / 2 := by
  have hdiff : signed (extent - z) = extent - z := signed_eq (by omega) (by omega)
  unfold half
  rw [hdiff, signed_eq (by omega) (by omega)]

section
variable {source dest : Area} {picture window : Rational}

theorem cutOut_spec (h : Comparable picture window) (hsource : source.Small)
    (hfits : if picture.gt window then Scalable source.width window picture
      else Scalable source.height picture window) :
    ∃ a, cutOut? source picture window = some a ∧ a.Within source := by
  unfold cutOut?
  by_cases hgt : picture.gt window = true
  · rw [if_pos hgt] at hfits ⊢
    have hlt := (h.gt_iff hfits.divisor_ne).mp hgt
    obtain ⟨z, hz, hnonneg, hle⟩ := scale_spec hfits h.plain.nonneg h.nonneg h.plain.numerator_lt.le
      h.numerator_le hlt.le hsource.x.2.1
    refine ⟨_, Option.map_eq_some_iff.mpr ⟨z, hz, rfl⟩, ?_, ?_⟩
    · have hx := signed_add_half hsource.x.1 hnonneg hle hsource.x.2.2
      dsimp only
      omega
    · exact ⟨le_refl _, hsource.y.2.1, le_refl _⟩
  · rw [if_neg hgt] at hfits ⊢
    have hle := not_lt.mp fun hlt => hgt ((h.gt_iff hfits.ratio_ne).mpr hlt)
    obtain ⟨z, hz, hnonneg, hle⟩ := scale_spec hfits h.nonneg h.plain.nonneg h.numerator_le
      h.plain.numerator_lt.le hle hsource.y.2.1
    refine ⟨_, Option.map_eq_some_iff.mpr ⟨z, hz, rfl⟩, ?_, ?_⟩
    · exact ⟨le_refl _, hsource.x.2.1, le_refl _⟩
    · have hy := signed_add_half hsource.y.1 hnonneg hle hsource.y.2.2
      dsimp only
      omega

theorem zoom_spec (h : Comparable picture window) (hsource : source.Small)
    (hfits : picture.gt window = true →
      Rescalable source.width window picture ∧ Rescalable source.height window picture) :
    ∃ a, zoom? source picture window = some a ∧ a.Within source := by
  unfold zoom?
  by_cases hgt : picture.gt window = true
  · obtain ⟨hwidth, hheight⟩ := hfits hgt
    have hlt := (h.gt_iff hwidth.divisor_ne).mp hgt
    obtain ⟨hx0, hw0, hxw⟩ := hsource.x
    obtain ⟨hy0, hh0, hyh⟩ := hsource.y
    obtain ⟨w, hw, hwNonneg, hwLe⟩ :=
      rescale_spec hwidth h.plain.nonneg h.nonneg h.plain.denominator_ne hlt hw0 (by omega)
    obtain ⟨z, hz, hzNonneg, hzLe⟩ :=
      rescale_spec hheight h.plain.nonneg h.nonneg h.plain.denominator_ne hlt hh0 (by omega)
    have hx := signed_add_half hx0 hwNonneg hwLe hxw
    have hy := signed_add_half hy0 hzNonneg hzLe hyh
    rw [if_pos hgt, hw, hz]
    refine ⟨_, rfl, ?_, ?_⟩
    · dsimp only
      omega
    · dsimp only
      omega
  · rw [if_neg hgt]
    exact ⟨source, rfl, .refl hsource⟩

/-- Letter box divides by nothing, and if the destination is the surface window, centres the picture in
it. -/
theorem letterBox_spec (h : Comparable picture window) (hdest : dest.Small) (surface : Window)
    (hfits : if picture.gt window then Scalable dest.height window picture
      else Scalable dest.width picture window) :
    ∃ a, letterBox? surface dest picture window = some a ∧
      (dest.width = surface.width → dest.height = surface.height → a.Boxed dest) := by
  have hcentre : ∀ {position extent z : ℤ}, 0 ≤ position → 0 ≤ z → z ≤ extent → position + extent ≤ 4096 →
      signed (position + half (unsigned (extent - z))) = position + (extent - z) / 2 := by
    intro position extent z hp hz hle hsmall
    have hdiff := unsigned_eq (z := extent - z) (by omega) (by omega)
    unfold half
    rw [hdiff, signed_eq (by omega) (by omega)]
  unfold letterBox?
  by_cases hgt : picture.gt window = true
  · rw [if_pos hgt] at hfits ⊢
    have hlt := (h.gt_iff hfits.divisor_ne).mp hgt
    obtain ⟨z, hz, hnonneg, hle⟩ := scale_spec hfits h.plain.nonneg h.nonneg h.plain.numerator_lt.le
      h.numerator_le hlt.le hdest.y.2.1
    refine ⟨_, Option.map_eq_some_iff.mpr ⟨z, hz, rfl⟩, fun _ hheight => .inl ⟨rfl, rfl, hnonneg, hle, ?_⟩⟩
    rw [← hheight]
    exact hcentre hdest.y.1 hnonneg hle hdest.y.2.2
  · rw [if_neg hgt] at hfits ⊢
    have hle := not_lt.mp fun hlt => hgt ((h.gt_iff hfits.ratio_ne).mpr hlt)
    obtain ⟨z, hz, hnonneg, hle⟩ := scale_spec hfits h.nonneg h.plain.nonneg h.numerator_le
      h.plain.numerator_lt.le hle hdest.x.2.1
    refine ⟨_, Option.map_eq_some_iff.mpr ⟨z, hz, rfl⟩, fun hwidth _ => .inr ⟨rfl, rfl, hnonneg, hle, ?_⟩⟩
    rw [← hwidth]
    exact hcentre hdest.x.1 hnonneg hle hdest.x.2.2

/-- **Formats**: no display format divides by nothing, the source stays within what it was, and a
destination that is the surface window is spanned in one direction. -/
theorem fit_spec {format : DisplayFormat} (h : Comparable picture window) (hsource : source.Small)
    (hdest : dest.Small) (surface : Window) (hfits : Fits format source dest picture window) :
    ∃ source' dest', fit? format surface source dest picture window = some (source', dest') ∧
      source'.Within source ∧
      (dest.width = surface.width → dest.height = surface.height → dest'.Boxed dest) := by
  unfold fit?
  by_cases hne : picture.ne window = true
  · have hfits := hfits hne
    rw [if_pos hne]
    have hcut : ∀ {o : Option Area}, (∃ a, o = some a ∧ a.Within source) →
        ∃ source' dest', o.map (·, dest) = some (source', dest') ∧ source'.Within source ∧
          (dest.width = surface.width → dest.height = surface.height → dest'.Boxed dest) := by
      rintro o ⟨a, rfl, ha⟩
      exact ⟨a, dest, rfl, ha, fun _ _ => .refl hdest⟩
    cases format with
    | letterBox =>
      obtain ⟨a, ha, hboxed⟩ := letterBox_spec h hdest surface hfits
      exact ⟨source, a, Option.map_eq_some_iff.mpr ⟨a, ha, rfl⟩, .refl hsource, hboxed⟩
    | centreCutOut => exact hcut (cutOut_spec h hsource hfits)
    | panScan => exact hcut (cutOut_spec h hsource hfits)
    | zoom43 => exact hcut (zoom_spec h hsource hfits)
    | fullScreen => exact ⟨source, dest, rfl, .refl hsource, fun _ _ => .refl hdest⟩
  · rw [if_neg hne]
    exact ⟨source, dest, rfl, .refl hsource, fun _ _ => .refl hdest⟩

end

/-! ### What there is to begin with -/

variable {w : Window}

theorem Window.area_eq (hx : w.x + w.width ≤ 4096) (hy : w.y + w.height ≤ 4096) :
    w.area = ⟨w.x, w.y, w.width, w.height⟩ := by
  unfold Window.area
  rw [signed_eq (by omega) (by omega), signed_eq (by omega) (by omega), signed_eq (by omega) (by omega),
    signed_eq (by omega) (by omega)]

theorem Window.small_area (hx : w.x + w.width ≤ 4096) (hy : w.y + w.height ≤ 4096) :
    w.area.Small := by
  rw [Window.area_eq hx hy]
  exact ⟨⟨Int.natCast_nonneg _, Int.natCast_nonneg _, by dsimp only; omega⟩, Int.natCast_nonneg _,
    Int.natCast_nonneg _, by dsimp only; omega⟩

/-- The whole of a picture. -/
def VideoDisplayParameters.area (v : VideoDisplayParameters) : Area := ⟨0, 0, v.width, v.height⟩

variable {v : VideoDisplayParameters}

theorem source_within {crop : Window} (hv : v.Supported)
    (hcrop : crop.width ≠ 0 → crop.height ≠ 0 →
      (clip v.width 0 crop.x crop.width).1 + crop.width < 2 ^ 32 ∧
        (clip v.height v.height crop.y crop.height).1 + crop.height < 2 ^ 32) :
    (source crop v).Small ∧ (source crop v).Within v.area := by
  have hwidth := hv.width_le
  have hheight := hv.height_le
  rw [maxSupportedVideoContentWidth] at hwidth
  rw [maxSupportedVideoContentHeight] at hheight
  unfold source
  by_cases hne : crop.width ≠ 0 ∧ crop.height ≠ 0
  · obtain ⟨hx, hy⟩ := hcrop hne.1 hne.2
    have hx' := clip_le (Nat.zero_le _) hx
    have hy' := clip_le (le_refl _) hy
    rw [if_pos hne, clipCrop, if_pos hne]
    refine ⟨Window.small_area (by dsimp only; omega) (by dsimp only; omega), ?_⟩
    rw [Window.area_eq (by dsimp only; omega) (by dsimp only; omega)]
    refine ⟨⟨Int.natCast_nonneg _, Int.natCast_nonneg _, ?_⟩, Int.natCast_nonneg _, Int.natCast_nonneg _, ?_⟩
    · show ((clip v.width 0 crop.x crop.width).1 : ℤ) + (clip v.width 0 crop.x crop.width).2 ≤ 0 + v.width
      omega
    · show ((clip v.height v.height crop.y crop.height).1 : ℤ) +
        (clip v.height v.height crop.y crop.height).2 ≤ 0 + v.height
      omega
  · rw [if_neg hne, signed_eq (by omega) (by omega), signed_eq (by omega) (by omega)]
    refine ⟨⟨⟨le_refl _, Int.natCast_nonneg _, by dsimp only; omega⟩, le_refl _, Int.natCast_nonneg _,
      by dsimp only; omega⟩, ?_⟩
    refine .refl ⟨⟨le_refl _, Int.natCast_nonneg _, ?_⟩, le_refl _, Int.natCast_nonneg _, ?_⟩
    · show (0 : ℤ) + v.width ≤ 4096
      omega
    · show (0 : ℤ) + v.height ≤ 4096
      omega

/-! ### The windows -/

variable {d : SurfaceDescriptor}

theorem Window.Inside.small (h : w.Inside d.displayWidth d.displayHeight) :
    w.x ≤ 2048 ∧ w.y ≤ 2048 ∧ w.width ≤ 2048 ∧ w.height ≤ 2048 ∧ w.x + w.width ≤ 4096 ∧
      w.y + w.height ≤ 4096 := by
  have hwidth := d.width_le
  have hheight := d.height_le
  obtain ⟨hx, hy⟩ := h
  omega

/-- The input window of a source. -/
def Area.inputWindow (source : Area) : Window :=
  Area.window ⟨signed (source.x * inputWindowScaleFactor), signed (source.y * inputWindowScaleFactor),
    source.width, source.height⟩

/-- A source in the picture, and a destination that spans the surface window. -/
theorem placed_windows {surface : Window} {source dest : Area}
    (hv : v.Supported) (hsurface : surface.Inside d.displayWidth d.displayHeight)
    (hsource : source.Within v.area) (hdest : dest.Boxed surface.area) :
    Placed surface v dest.window source.inputWindow := by
  obtain ⟨hsx, hsy, hsw, hsh, hxw, hyh⟩ := Window.Inside.small hsurface
  rw [Window.area_eq hxw hyh] at hdest
  have hwidth := hv.width_le
  have hheight := hv.height_le
  rw [maxSupportedVideoContentWidth] at hwidth
  rw [maxSupportedVideoContentHeight] at hheight
  obtain ⟨⟨hx, hw, hxend⟩, hy, hh, hyend⟩ := hsource
  dsimp only [VideoDisplayParameters.area] at hx hxend hy hyend
  have hinput : source.inputWindow.x + 16 * source.inputWindow.width ≤ 16 * v.width ∧
      source.inputWindow.y + 16 * source.inputWindow.height ≤ 16 * v.height := by
    have h1 := unsigned_eq (z := source.x * 16) (by omega) (by omega)
    have h2 := unsigned_eq (z := source.y * 16) (by omega) (by omega)
    have h3 := unsigned_eq (z := source.width) hw (by omega)
    have h4 := unsigned_eq (z := source.height) hh (by omega)
    unfold Area.inputWindow Area.window inputWindowScaleFactor
    rw [signed_eq (by omega) (by omega), signed_eq (by omega) (by omega)]
    dsimp only
    omega
  have hsmall : 0 ≤ dest.x ∧ dest.x ≤ 4096 ∧ 0 ≤ dest.y ∧ dest.y ≤ 4096 ∧ 0 ≤ dest.width ∧
      dest.width ≤ 4096 ∧ 0 ≤ dest.height ∧ dest.height ≤ 4096 := by
    unfold Area.Boxed at hdest
    dsimp only at hdest
    omega
  have h1 := unsigned_eq (z := dest.x) hsmall.1 (by omega)
  have h2 := unsigned_eq (z := dest.y) (by omega) (by omega)
  have h3 := unsigned_eq (z := dest.width) (by omega) (by omega)
  have h4 := unsigned_eq (z := dest.height) (by omega) (by omega)
  unfold Area.Boxed at hdest
  dsimp only at hdest
  refine ⟨hinput, ?_, ?_, ?_⟩
  · show surface.x ≤ unsigned dest.x ∧ surface.y ≤ unsigned dest.y
    omega
  · show unsigned dest.x + unsigned dest.width ≤ surface.x + surface.width ∧
      unsigned dest.y + unsigned dest.height ≤ surface.y + surface.height
    omega
  · unfold Spans Centred
    rw [abs_le, abs_le]
    dsimp only [Area.window]
    omega

namespace State

variable {s : State}

/-! ### A resize -/

theorem interpolate_le {old new : ℕ} (hstep : s.step < s.steps) (hsteps : s.steps ≤ 128) (hold : old ≤ 2048)
    (hnew : new ≤ 2048) : s.interpolate old new ≤ 2048 := by
  have hleft : (unsigned (s.steps - s.step) : ℤ) = s.steps - s.step := unsigned_eq (by omega) (by omega)
  have hsum : (old : ℤ) * (s.steps - s.step) + new * s.step ≤ 2048 * s.steps := by
    have h1 : (old : ℤ) * (s.steps - s.step) ≤ 2048 * (s.steps - s.step) :=
      mul_le_mul_of_nonneg_right (by omega) (by omega)
    have h2 : (new : ℤ) * s.step ≤ 2048 * s.step := mul_le_mul_of_nonneg_right (by omega) (by omega)
    linarith
  have hnonneg : 0 ≤ (old : ℤ) * (s.steps - s.step) + new * s.step :=
    add_nonneg (mul_nonneg (by omega) (by omega)) (mul_nonneg (by omega) (by omega))
  have hwhole := unsigned_eq hnonneg (by omega)
  unfold interpolate
  rw [hleft]
  refine Nat.div_le_of_le_mul ?_
  omega

/-! ### The invariant -/

/-- The surface windows are inside the display, a resize has steps left, and without one the windows of the
last picture are placed. -/
structure Kept (d : SurfaceDescriptor) (s : State) : Prop where
  surface : s.surfaceWindow.Inside d.displayWidth d.displayHeight
  old : s.oldSurfaceWindow.Inside d.displayWidth d.displayHeight
  steps : s.stepping = true → s.step < s.steps ∧ s.steps ≤ maxResizeSteps
  placed : s.stepping = false → s.streamDisplayParameters.width ≠ 0 →
    Placed s.surfaceWindow s.streamDisplayParameters s.outputWindow s.inputWindow

/-- What a step of a resize does. -/
structure Advances (s t : State) (dest : Area) : Prop where
  small : dest.Small
  surface : t.surfaceWindow = s.surfaceWindow
  old : t.oldSurfaceWindow = s.oldSurfaceWindow ∨ t.oldSurfaceWindow = s.surfaceWindow
  steps : t.stepping = true → t.step < t.steps ∧ t.steps ≤ maxResizeSteps
  done : t.stepping = false → dest = s.surfaceWindow.area

theorem small_resize (hsurface : s.surfaceWindow.Inside d.displayWidth d.displayHeight)
    (hold : s.oldSurfaceWindow.Inside d.displayWidth d.displayHeight) (hstep : s.step < s.steps)
    (hsteps : s.steps ≤ 128) : s.resize.Small := by
  obtain ⟨hx, hy, hw, hh, -, -⟩ := Window.Inside.small hsurface
  obtain ⟨hx', hy', hw', hh', -, -⟩ := Window.Inside.small hold
  have hX := interpolate_le hstep hsteps hx' hx
  have hY := interpolate_le hstep hsteps hy' hy
  have hW := interpolate_le hstep hsteps hw' hw
  have hH := interpolate_le hstep hsteps hh' hh
  have heven := unsigned_eq (z := (s.interpolate s.oldSurfaceWindow.width s.surfaceWindow.width : ℤ) + 1)
    (by omega) (by omega)
  refine Window.small_area ?_ ?_
  · dsimp only
    omega
  · dsimp only
    omega

theorem Kept.advances (h : Kept d s) : Advances s s.advance.1 s.advance.2 := by
  obtain ⟨-, -, -, -, hxw, hyh⟩ := Window.Inside.small h.surface
  unfold advance
  by_cases hstepping : s.stepping = true
  · obtain ⟨hlt, hle⟩ := h.steps hstepping
    rw [if_pos hstepping]
    by_cases hlast : s.step + 1 = s.steps
    · rw [if_pos hlast]
      exact ⟨Window.small_area hxw hyh, rfl, .inr rfl, nofun, fun _ => rfl⟩
    · rw [if_neg hlast]
      have hnext : s.step + 1 < s.steps := by omega
      exact ⟨small_resize (s := { s with step := s.step + 1 }) h.surface h.old hnext hle, rfl, .inl rfl,
        fun _ => ⟨hnext, hle⟩, fun hfalse => absurd (hstepping.symm.trans hfalse) (by decide)⟩
  · rw [if_neg hstepping]
    exact ⟨Window.small_area hxw hyh, rfl, .inr rfl, nofun, fun _ => rfl⟩

variable {source dest : Area}

theorem place_eq (s : State) (plane : Plane) (dest : Area) (hx : 0 ≤ source.x) (hy : 0 ≤ source.y) :
    s.place plane source dest = some ({ s with
      outputWindow := dest.window
      inputWindow := source.inputWindow }, plane.updateDisplayWindows source.inputWindow dest.window) := by
  unfold place trim?
  rw [if_neg (not_lt.mpr hx), if_neg (not_lt.mpr hy)]
  rfl

variable {v : VideoDisplayParameters}

theorem comparable_pictureAspectRatio {aspect : DisplayAspectRatio}
    (hv : v.Supported) (hsource : source.Small) (hdest : dest.Small)
    (hheight : dest.height ≠ 0) :
    Comparable (pictureAspectRatio source v) (windowAspectRatio d aspect dest) where
  nonneg := by
    have hw : decide (source.width < 0) = false := decide_eq_false (not_lt.mpr hsource.x.2.1)
    have hh : decide (source.height < 0) = false := decide_eq_false (not_lt.mpr hsource.y.2.1)
    refine (negative_restrict _).trans ((negative_ofFactor ..).trans ?_)
    rw [hv.positive.1]
    show ((decide (source.width < 0) ^^ decide (source.height < 0)) ^^ false) = false
    rw [hw, hh]
    rfl
  numerator_le := (restrict_le _).1
  denominator_le := (restrict_le _).2
  plain := by
    obtain ⟨hx, hw, hxw⟩ := hdest.x
    obtain ⟨hy, hh, hyh⟩ := hdest.y
    exact plain_windowAspectRatio d aspect hw (by omega) (by omega) (by omega)

/-- Nothing is divided by nothing, and without a resize the windows are placed. -/
theorem configure_spec (plane : Plane) (policies : Policies)
    (hv : v.Supported)
    (hsurface : s.surfaceWindow.Inside d.displayWidth d.displayHeight)
    (hsteps : s.stepping = true → s.steps ≠ 0) (hsource : source.Small) (hwithin : source.Within v.area)
    (hdest : dest.Small) (hdone : s.stepping = false → dest = s.surfaceWindow.area)
    (hpicture : (pictureQuotient source v).denominator ≠ 0) (hheight : dest.height ≠ 0)
    (hfits : Fits policies.displayFormat source dest (pictureAspectRatio source v)
      (windowAspectRatio d policies.displayAspectRatio dest)) :
    ∃ output input status, s.configure d plane policies v source dest =
        some ({ s with
          streamDisplayParameters := v
          outputWindow := output
          inputWindow := input }, status) ∧
      (s.stepping = false → Placed s.surfaceWindow v output input) := by
  have hwidthLe := hv.width_le
  have hheightLe := hv.height_le
  obtain ⟨hx, hw, hxw⟩ := hwithin.x
  obtain ⟨hy, hh, hyh⟩ := hwithin.y
  dsimp only [VideoDisplayParameters.area] at hx hxw hy hyh
  obtain ⟨source', dest', hfit, hsource', hboxed⟩ := fit_spec
    (comparable_pictureAspectRatio (d := d) hv hsource hdest hheight) hsource hdest s.surfaceWindow hfits
  have hx' := hsource'.x.1
  have hy' := hsource'.y.1
  have hplace := place_eq { s with streamDisplayParameters := v } plane dest'
    (show 0 ≤ source'.x by omega) (show 0 ≤ source'.y by omega)
  refine ⟨dest'.window, source'.inputWindow, plane.updateDisplayWindows source'.inputWindow dest'.window,
    ?_, ?_⟩
  · unfold configure
    rw [if_neg, if_neg, if_neg, if_neg, hfit]
    · exact hplace
    · exact fun h => hheight h.2
    · omega
    · exact fun h => h.2.elim hv.rational.2 hv.rational.1
    · rintro (h | h)
      · exact hpicture h
      · exact hsteps h.1 h.2
  · intro hstepping
    obtain ⟨-, -, -, -, hsxw, hsyh⟩ := Window.Inside.small hsurface
    have heq := hdone hstepping
    have harea := Window.area_eq hsxw hsyh
    have hboxed' := hboxed (by rw [heq, harea]) (by rw [heq, harea])
    have hwithin' : source'.Within v.area := by
      obtain ⟨hx2, hw2, hxw2⟩ := hsource'.x
      obtain ⟨hy2, hh2, hyh2⟩ := hsource'.y
      refine ⟨⟨?_, hw2, ?_⟩, ?_, hh2, ?_⟩ <;> dsimp only [VideoDisplayParameters.area] <;> omega
    exact placed_windows hv hsurface hwithin' (heq ▸ hboxed')

/-! ### Every run -/

theorem advance_with (s : State) (policies : Option Policies) (crop : Window) :
    { s with policies := policies, inputCrop := crop }.advance =
      ({ s.advance.1 with policies := policies, inputCrop := crop }, s.advance.2) := by
  unfold advance
  dsimp only
  split
  · split <;> rfl
  · rfl

theorem Kept.setDisplayWindows (h : Kept d s) (plane : Plane) {policies : Policies}
    (hv : v.Supported) (hrange : InRange d s (.setDisplayWindows policies v)) :
    ∃ t status, s.setDisplayWindows d plane policies v = some (t, status) ∧ Kept d t ∧
      (t.stepping = false → Placed t.surfaceWindow v t.outputWindow t.inputWindow) := by
  have hpos := hv.width_pos
  unfold State.setDisplayWindows
  by_cases hsame : s.Unchanged policies v
  · have hstepping := hsame.1
    have hwidth := congrArg VideoDisplayParameters.width hsame.2.2
    have hheight := congrArg VideoDisplayParameters.height hsame.2.2
    dsimp only at hwidth hheight
    have hlast := h.placed hstepping (by omega)
    have hplaced : Placed s.surfaceWindow v s.outputWindow s.inputWindow :=
      ⟨hwidth ▸ hheight ▸ hlast.input, hlast.begins, hlast.ends, hlast.spans⟩
    rw [if_pos hsame]
    exact ⟨_, _, rfl, ⟨h.surface, h.old, h.steps, fun _ _ => hplaced⟩, fun _ => hplaced⟩
  · have hfeasible := hrange.resolve_left hsame
    have hadvances := h.advances
    obtain ⟨hsource, hwithin⟩ := source_within hv hfeasible.crop
    rw [if_neg hsame, advance_with]
    have hsurface : s.advance.1.surfaceWindow.Inside d.displayWidth d.displayHeight :=
      hadvances.surface ▸ h.surface
    have hold : s.advance.1.oldSurfaceWindow.Inside d.displayWidth d.displayHeight := by
      rcases hadvances.old with heq | heq
      · exact heq ▸ h.old
      · exact heq ▸ h.surface
    obtain ⟨output, input, status, hconfigure, hplaced⟩ := configure_spec plane policies
      (s := { s.advance.1 with policies := some policies, inputCrop := clipCrop s.inputCrop v }) hv hsurface
      (fun hstepping => (Nat.zero_lt_of_lt (hadvances.steps hstepping).1).ne') hsource hwithin
      hadvances.small
      (fun hstepping => (hadvances.done hstepping).trans (congrArg Window.area hadvances.surface.symm))
      hfeasible.picture hfeasible.window hfeasible.fits
    exact ⟨_, status, hconfigure,
      ⟨hsurface, hold, hadvances.steps, fun hstepping _ => hplaced hstepping⟩, hplaced⟩

theorem Kept.setOutputWindow (h : Kept d s) {x y width height resizeSteps : UInt32}
    (hrange : InRange d s (.setOutputWindow x y width height resizeSteps)) :
    Kept d (s.setOutputWindow d x y width height resizeSteps) := by
  have hx := clip_le (Nat.zero_le _) hrange.1
  have hy := clip_le (Nat.zero_le _) hrange.2
  have hstepping : (s.setOutputWindow d x y width height resizeSteps).stepping =
      decide (1 < min resizeSteps.toNat maxResizeSteps) := rfl
  refine ⟨?_, h.old, ?_, fun _ hne => absurd rfl hne⟩
  · unfold State.setOutputWindow
    split
    · exact ⟨(Nat.zero_add _).le, (Nat.zero_add _).le⟩
    · exact ⟨hx, hy⟩
  · intro htrue
    rw [hstepping, decide_eq_true_eq] at htrue
    exact ⟨Nat.zero_lt_of_lt htrue, Nat.min_le_right _ _⟩

variable {plane : Plane}

theorem Kept.setInputWindow (h : Kept d s) (x y width height : UInt32) :
    Kept d (s.setInputWindow plane x y width height).1 := by
  unfold State.setInputWindow
  split
  · exact ⟨h.surface, h.old, h.steps, fun _ hne => absurd rfl hne⟩
  · exact h

theorem Kept.call {label : Label} {t : State} (h : Kept d s) (hrange : InRange d s label)
    (hcall : s.call d plane label = some t) : Kept d t := by
  cases label with
  | setOutputWindow x y width height resizeSteps =>
    obtain rfl := Option.some.inj hcall
    exact h.setOutputWindow hrange
  | setInputWindow x y width height =>
    obtain rfl := Option.some.inj hcall
    exact h.setInputWindow x y width height
  | setDisplayWindows policies v =>
    obtain ⟨hv, hcall⟩ := Option.ite_none_right_eq_some.mp hcall
    obtain ⟨t', status, heq, hkept, -⟩ := h.setDisplayWindows plane hv hrange
    rw [heq] at hcall
    obtain rfl := Option.some.inj hcall
    exact hkept

theorem start_kept (d : SurfaceDescriptor) : Kept d (start d) where
  surface := ⟨(Nat.zero_add _).le, (Nat.zero_add _).le⟩
  old := ⟨(Nat.zero_add _).le, (Nat.zero_add _).le⟩
  steps := nofun
  placed _ hne := absurd rfl hne

/-- **Display windows**: in every run of calls in range, nothing is divided by nothing, the surface window
is inside the display, and the windows of a picture are placed. -/
theorem windows_placed (d : SurfaceDescriptor) (plane : Plane) {labels : List Label}
    (hrange : Lts.Along (call d plane) (InRange d) (start d) labels) :
    Lts.Along (call d plane) (Right d plane) (start d) labels := by
  refine Lts.along_of_along (J := Kept d) (fun _ _ _ h hlabel hcall => h.call hlabel hcall) ?_
    (start_kept d) hrange
  intro s label h hlabel
  cases label with
  | setOutputWindow x y width height resizeSteps => exact fun t hcall => (h.call hlabel hcall).surface
  | setInputWindow x y width height => exact fun t hcall => (h.call hlabel hcall).surface
  | setDisplayWindows policies v =>
    intro hv
    obtain ⟨t, status, heq, hkept, hplaced⟩ := h.setDisplayWindows plane hv hlabel
    exact ⟨t, status, heq, hkept.surface, fun _ => hplaced⟩

/-- A surface of 1920 by 1080. -/
def fullHd : SurfaceDescriptor := ⟨1920, 1080, by decide, by decide, by decide, by decide⟩

/-- A plane that resizes. -/
def resizing : Plane := ⟨some (1920, 1080), true, 1, 2048, 1, 2048⟩

/-- Letter box on a television that is 16:9. -/
def boxed : Policies := ⟨.sixteenByNine, .letterBox, 100⟩

/-- A picture with square pixels. -/
def square (width height : ℕ) : VideoDisplayParameters :=
  ⟨width, height, 0, 0, true, false, false, 0, ⟨false, 1, 1⟩, ⟨false, 25, 1⟩⟩

/-- A picture in a window that it is wider than. -/
def wideInWindow : List Label :=
  [.setOutputWindow 100 100 720 576 1, .setDisplayWindows boxed (square 1280 720)]

/-- `windows_placed` over a picture that is wider than its window. -/
theorem windows_placed_wideInWindow :
    Lts.Along (call fullHd resizing) (Right fullHd resizing) (start fullHd) wideInWindow ∧
      (Lts.run (call fullHd resizing) (start fullHd) wideInWindow).map (·.outputWindow) =
        some ⟨100, 185, 720, 405⟩ :=
  ⟨windows_placed fullHd resizing (by decide +kernel), by decide +kernel⟩

/-- A picture in a window without height. -/
def pictureInNothing : List Label :=
  [.setOutputWindow 0 0 720 0 1, .setDisplayWindows boxed (square 720 576)]

/-- The aspect ratio of a window without height divides by nothing. -/
theorem not_windows_placed : ¬ ∀ (d : SurfaceDescriptor) (plane : Plane) (labels : List Label),
    Lts.Along (call d plane) (Right d plane) (start d) labels := by
  intro hall
  obtain ⟨-, hafter⟩ := hall fullHd resizing pictureInNothing
  obtain ⟨hright, -⟩ := hafter _ rfl
  obtain ⟨t, status, hsome, -⟩ := hright (by decide)
  have hnone : ((start fullHd).setOutputWindow fullHd 0 0 720 0 1).setDisplayWindows fullHd resizing boxed
      (square 720 576) = none := by
    rfl
  exact absurd (hsome.symm.trans hnone) nofun

end State

end Player2.DisplayWindows

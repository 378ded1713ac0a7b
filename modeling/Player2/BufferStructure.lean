import Mathlib
import Player2.Alignment

/-! # Layout of a decode buffer

`FillOutBufferStructure` rounds the dimensions of a picture up as its format needs it, and says where in
the buffer the components of the picture start, how far apart their lines are, and how large the buffer has
to be.  A packed format has one component, the others have luma and chroma, and where the decoder makes a
smaller picture too there are a luma and a chroma component for that one.

`LaidOut` says that the picture fits into the dimensions, that the components are in the buffer and do not
share an address, and that their lines fit.  `laidOut_iff` says for every format and size when this is so.
The chroma component of the smaller picture starts at an address that is rounded up to 1k, but the size does
not count what was skipped; and a buffer that is captured into in the raster format, which is packed, claims
four components with one offset for luma and chroma. -/

namespace Player2

open Alignment

/-! ### The source -/

/-- `BufferFormat_t`. -/
inductive BufferFormat
  | unknown
  | markerFrame
  | audio
  | video420MacroBlock
  | video420PairedMacroBlock
  | video422Raster
  | video420Planar
  | video420PlanarAligned
  | video422Planar
  | video8888Argb
  | video888Rgb
  | video565Rgb
  | video422Yuyv
deriving DecidableEq, Repr

/-- `BufferStructure_t`; of the strides, those of the first dimension. -/
structure BufferStructure where
  format : BufferFormat
  dimensionCount : UInt32
  dimension : Fin 5 → UInt32
  componentCount : UInt32
  componentOffset : Fin 5 → UInt32
  componentBorder : Fin 5 → UInt32
  strides : Fin 5 → UInt32
  size : UInt32
  decimatedSize : UInt32
  decimationRequired : Bool

namespace BufferStructure

/-- The first entries of an array are written. -/
def write (values : List UInt32) (a : Fin 5 → UInt32) : Fin 5 → UInt32 := fun i => values.getD i (a i)

/-- `FormatVideo420_MacroBlock`. -/
def fillOutMacroBlock (decimationValue : UInt32) (s : BufferStructure) : BufferStructure :=
  let d0 := (s.dimension 0 + 0x0f) &&& 0xfffffff0
  let d1 := (s.dimension 1 + 0x1f) &&& 0xffffffe0
  -- a 1k alignment, for the hardware decoder
  let offset1 := (d0 * d1 + 0x3ff) &&& 0xfffffc00
  let size := offset1 + d0 * d1 / 2
  if s.decimationRequired then
    let d2 := (d0 / decimationValue + 0x0f) &&& 0xfffffff0
    let d3 := (d1 / decimationValue + 0x1f) &&& 0xffffffe0
    let offset2 := offset1 + d0 * d1 / 2
    let offset3 := (offset2 + d2 * d3 + 0x3ff) &&& 0xfffffc00
    let decimatedSize := s.decimatedSize + (d2 * d3 + d2 * d3 / 2)
    { s with
      dimension := write [d0, d1, d2, d3] s.dimension
      componentCount := 4
      componentOffset := write [0, offset1, offset2, offset3] s.componentOffset
      strides := write [d0, d0, d2, d2] s.strides
      size := size + decimatedSize
      decimatedSize := decimatedSize }
  else
    { s with
      dimension := write [d0, d1] s.dimension
      componentCount := 2
      componentOffset := write [0, offset1] s.componentOffset
      strides := write [d0, d0] s.strides
      size := size }

/-- `FormatVideo420_PairedMacroBlock`: the width is rounded up to a pair, and the case falls through. -/
def fillOutPairedMacroBlock (decimationValue : UInt32) (s : BufferStructure) : BufferStructure :=
  fillOutMacroBlock decimationValue
    { s with dimension := write [(s.dimension 0 + 0x1f) &&& 0xffffffe0] s.dimension }

/-- `FormatVideo422_Raster`.  The offsets of chroma are not written. -/
def fillOutRaster (decimationValue : UInt32) (s : BufferStructure) : BufferStructure :=
  let d0 := (s.dimension 0 + 0x1f) &&& 0xffffffe0
  let d1 := s.dimension 1
  let size := 2 * d0 * d1
  if s.decimationRequired then
    let d2 := d0 / decimationValue
    let d3 := d1 / decimationValue
    let decimatedSize := 2 * d2 * d3
    { s with
      dimension := write [d0, d1, d2, d3] s.dimension
      componentCount := 4
      componentOffset := write [0, s.componentOffset 1, 2 * d0 * d1] s.componentOffset
      strides := write [2 * d0, s.strides 1, 2 * d2, 2 * d3] s.strides
      size := size + decimatedSize
      decimatedSize := decimatedSize }
  else
    { s with
      dimension := write [d0] s.dimension
      componentCount := 1
      componentOffset := write [0] s.componentOffset
      strides := write [2 * d0] s.strides
      size := size }

/-- The dimension with its border, rounded up to macroblocks. -/
def bordered (s : BufferStructure) (i : Fin 5) : UInt32 :=
  (s.dimension i + s.componentBorder i * 2 + 0x0f) &&& 0xfffffff0

/-- The planar formats, by the width, the distance of the lines of chroma, and the size for one of luma. -/
def fillOutPlanar (d0 : UInt32) (stride : UInt32 → UInt32) (size : UInt32 → UInt32) (s : BufferStructure) :
    BufferStructure :=
  let d1 := s.bordered 1
  { s with
    dimension := write [d0, d1] s.dimension
    componentCount := 2
    componentOffset := write [0, d0 * d1] s.componentOffset
    strides := write [d0, stride d0] s.strides
    size := size (d0 * d1) }

/-- `FormatVideo420_Planar`. -/
def fillOut420Planar (s : BufferStructure) : BufferStructure :=
  s.fillOutPlanar (s.bordered 0) (· / 2) (· * 3 / 2)

/-- `FormatVideo420_PlanarAligned`. -/
def fillOut420PlanarAligned (s : BufferStructure) : BufferStructure :=
  s.fillOutPlanar ((s.bordered 0 + 0x3f) &&& 0xffffffc0) (· / 2) (· * 3 / 2)

/-- `FormatVideo422_Planar`. -/
def fillOut422Planar (s : BufferStructure) : BufferStructure :=
  s.fillOutPlanar (s.bordered 0) id (· * 2)

/-- The other packed formats, by the bytes of a pixel. -/
def fillOutPacked (bytes : UInt32) (s : BufferStructure) : BufferStructure :=
  let d0 := (s.dimension 0 + 0x1f) &&& 0xffffffe0
  let d1 := (s.dimension 1 + 0x1f) &&& 0xffffffe0
  { s with
    dimension := write [d0, d1] s.dimension
    componentCount := 1
    componentOffset := write [0] s.componentOffset
    strides := write [d0 * bytes] s.strides
    size := d0 * d1 * bytes }

/-- `FillOutBufferStructure`; `half` says that `PolicyDecimateDecoderOutput` is
`PolicyValueDecimateDecoderOutputHalf`. -/
def fillOutBufferStructure (half : Bool) (s : BufferStructure) : BufferStructure :=
  let decimationValue : UInt32 := if half then 2 else 4
  match s.format with
  | .video420PairedMacroBlock => s.fillOutPairedMacroBlock decimationValue
  | .video420MacroBlock => s.fillOutMacroBlock decimationValue
  | .video422Raster => s.fillOutRaster decimationValue
  | .video420Planar => s.fillOut420Planar
  | .video420PlanarAligned => s.fillOut420PlanarAligned
  | .video422Planar => s.fillOut422Planar
  | .video8888Argb => s.fillOutPacked 4
  | .video888Rgb => s.fillOutPacked 3
  | .video565Rgb => s.fillOutPacked 2
  | .video422Yuyv => s.fillOutPacked 2
  | .unknown | .markerFrame | .audio => s

/-- What a codec asks for: the request of `FillOutDecodeBufferRequest`, which starts from zeroes, with the
borders and the format that a codec may put into it then. -/
def request (format : BufferFormat) (decimationRequired : Bool) (width height border0 border1 : UInt32) :
    BufferStructure where
  format := format
  dimensionCount := if decimationRequired then 4 else 2
  dimension := write [width, height] fun _ => 0
  componentCount := 0
  componentOffset := fun _ => 0
  componentBorder := write [border0, border1] fun _ => 0
  strides := fun _ => 0
  size := 0
  decimatedSize := 0
  decimationRequired := decimationRequired

/-! ### Components -/

/-- The bytes of a pixel in a packed format. -/
def pixelBytes : BufferFormat → ℕ
  | .video8888Argb => 4
  | .video888Rgb => 3
  | _ => 2

/-- Chroma has half as many lines as luma, and half as many bytes. -/
def halvesChroma : BufferFormat → Bool
  | .video420MacroBlock | .video420PairedMacroBlock | .video420Planar | .video420PlanarAligned => true
  | _ => false

/-- The borders are part of the picture. -/
def hasBorder : BufferFormat → Bool
  | .video420Planar | .video420PlanarAligned | .video422Planar => true
  | _ => false

variable (s : BufferStructure)

/-- The width of the picture that a component belongs to, in the order luma, chroma, luma and chroma of
the smaller picture. -/
def width (c : Fin 5) : ℕ := (if c < 2 then s.dimension 0 else s.dimension 2).toNat

/-- The height of the picture that a component belongs to. -/
def height (c : Fin 5) : ℕ := (if c < 2 then s.dimension 1 else s.dimension 3).toNat

/-- The component is chroma, and smaller than luma. -/
def Halved (c : Fin 5) : Prop := (c = 1 ∨ c = 3) ∧ halvesChroma s.format = true

instance (c : Fin 5) : Decidable (s.Halved c) := inferInstanceAs (Decidable (_ ∧ _))

/-- The bytes that a component needs.  Where it is the only one, it is packed. -/
def need (c : Fin 5) : ℕ :=
  if s.componentCount = 1 then s.width c * s.height c * pixelBytes s.format
  else if s.Halved c then s.width c * s.height c / 2
  else s.width c * s.height c

/-- The lines of a component; those of one plane, where there are two for chroma. -/
def lines (c : Fin 5) : ℕ := if s.Halved c then s.height c / 2 else s.height c

/-- The addresses of a component. -/
def region (c : Fin 5) : Set ℕ :=
  Set.Ico (s.componentOffset c).toNat ((s.componentOffset c).toNat + s.need c)

/-- The picture of a request, with its border, fits into the dimensions of a layout. -/
def Covers (r s : BufferStructure) : Prop := ∀ i : Fin 5, i < 2 →
  (r.dimension i).toNat + (if hasBorder r.format then 2 * (r.componentBorder i).toNat else 0) ≤
    (s.dimension i).toNat

/-- The picture of a request fits into a layout, and the components of the layout are apart from each other,
in the buffer, and have room for their lines. -/
structure LaidOut (r s : BufferStructure) : Prop where
  covers : Covers r s
  inside : ∀ c : Fin 5, c.val < s.componentCount.toNat → (s.componentOffset c).toNat + s.need c ≤ s.size.toNat
  apart : ∀ c c' : Fin 5, c < c' → c'.val < s.componentCount.toNat → Disjoint (s.region c) (s.region c')
  fits : ∀ c : Fin 5, c.val < s.componentCount.toNat → (s.strides c).toNat * s.lines c ≤ s.need c

variable {r s : BufferStructure}

theorem laidOut_of_ordered (hcovers : Covers r s)
    (hordered : ∀ c c' : Fin 5, c'.val = c.val + 1 → c'.val < s.componentCount.toNat →
      (s.componentOffset c).toNat + s.need c ≤ (s.componentOffset c').toNat)
    (hinside : ∀ c : Fin 5, c.val < s.componentCount.toNat →
      (s.componentOffset c).toNat + s.need c ≤ s.size.toNat)
    (hfits : ∀ c : Fin 5, c.val < s.componentCount.toNat → (s.strides c).toNat * s.lines c ≤ s.need c) :
    LaidOut r s := by
  have hbefore : ∀ (n : ℕ) (c c' : Fin 5), c'.val = c.val + 1 + n → c'.val < s.componentCount.toNat →
      (s.componentOffset c).toNat + s.need c ≤ (s.componentOffset c').toNat := by
    intro n
    induction n with
    | zero => exact hordered
    | succ n ih =>
      intro c c' hc hc'
      have hd : c'.val - 1 < 5 := by omega
      have h1 := ih c ⟨c'.val - 1, hd⟩ (by dsimp only; omega) (by dsimp only; omega)
      have h2 := hordered ⟨c'.val - 1, hd⟩ c' (by dsimp only; omega) hc'
      omega
  refine ⟨hcovers, hinside, fun c c' hc hc' => ?_, hfits⟩
  apply Set.Ico_disjoint_Ico.mpr
  have h := hbefore (c'.val - c.val - 1) c c' (by omega) hc'
  exact (Nat.min_le_left ..).trans (h.trans (Nat.le_max_right ..))

variable {p : Fin 5 → Prop}

theorem forall_lt_two : (∀ c : Fin 5, c.val < 2 → p c) ↔ p 0 ∧ p 1 := by
  constructor
  · intro h
    exact ⟨h 0 (by decide), h 1 (by decide)⟩
  · rintro ⟨h0, h1⟩ c hc
    obtain rfl | rfl : c = 0 ∨ c = 1 := by omega
    · exact h0
    · exact h1

theorem forall_lt_four : (∀ c : Fin 5, c.val < 4 → p c) ↔ p 0 ∧ p 1 ∧ p 2 ∧ p 3 := by
  constructor
  · intro h
    exact ⟨h 0 (by decide), h 1 (by decide), h 2 (by decide), h 3 (by decide)⟩
  · rintro ⟨h0, h1, h2, h3⟩ c hc
    obtain rfl | rfl | rfl | rfl : c = 0 ∨ c = 1 ∨ c = 2 ∨ c = 3 := by omega
    · exact h0
    · exact h1
    · exact h2
    · exact h3

/-! ### Macroblocks -/

section
variable {r s : BufferStructure}

theorem need_of_count (h : s.componentCount ≠ 1) (hformat : halvesChroma s.format = true) :
    s.need 0 = s.width 0 * s.height 0 ∧ s.need 1 = s.width 0 * s.height 0 / 2 ∧
      s.need 2 = s.width 2 * s.height 2 ∧ s.need 3 = s.width 2 * s.height 2 / 2 := by
  have h1 : s.Halved 1 := ⟨.inl rfl, hformat⟩
  have h3 : s.Halved 3 := ⟨.inr rfl, hformat⟩
  have h0 : ¬ s.Halved 0 := fun h => absurd h.1 (by decide)
  have h2 : ¬ s.Halved 2 := fun h => absurd h.1 (by decide)
  unfold need
  rw [if_neg h, if_neg h, if_neg h, if_neg h, if_neg h0, if_pos h1, if_neg h2, if_pos h3]
  exact ⟨rfl, rfl, rfl, rfl⟩

theorem lines_of_halved (hformat : halvesChroma s.format = true) :
    s.lines 0 = s.height 0 ∧ s.lines 1 = s.height 0 / 2 ∧ s.lines 2 = s.height 2 ∧
      s.lines 3 = s.height 2 / 2 := by
  have h1 : s.Halved 1 := ⟨.inl rfl, hformat⟩
  have h3 : s.Halved 3 := ⟨.inr rfl, hformat⟩
  have h0 : ¬ s.Halved 0 := fun h => absurd h.1 (by decide)
  have h2 : ¬ s.Halved 2 := fun h => absurd h.1 (by decide)
  unfold lines
  rw [if_neg h0, if_pos h1, if_neg h2, if_pos h3]
  exact ⟨rfl, rfl, rfl, rfl⟩

theorem laidOut_of_one (hcovers : Covers r s) (hcount : s.componentCount = 1)
    (h0 : (s.componentOffset 0).toNat = 0) (hsize : s.need 0 ≤ s.size.toNat)
    (hfits : (s.strides 0).toNat * s.lines 0 ≤ s.need 0) : LaidOut r s := by
  have hzero : ∀ c : Fin 5, c.val < s.componentCount.toNat → c = 0 := by
    intro c hc
    rw [hcount] at hc
    have h1 : (1 : UInt32).toNat = 1 := rfl
    omega
  refine ⟨hcovers, fun c hc => ?_, fun c c' hc hc' => ?_, fun c hc => ?_⟩
  · obtain rfl := hzero c hc
    omega
  · obtain rfl := hzero c' hc'
    omega
  · obtain rfl := hzero c hc
    exact hfits

theorem laidOut_of_two (hcovers : Covers r s) (hcount : s.componentCount = 2)
    (h0 : (s.componentOffset 0).toNat = 0) (h1 : s.width 0 * s.height 0 ≤ (s.componentOffset 1).toNat)
    (hsize : (s.componentOffset 1).toNat + s.need 1 ≤ s.size.toNat)
    (hstride0 : (s.strides 0).toNat = s.width 0) (hfits : (s.strides 1).toNat * s.lines 1 ≤ s.need 1) :
    LaidOut r s := by
  have n0 : s.need 0 = s.width 0 * s.height 0 := by
    unfold need
    rw [if_neg (by rw [hcount]; decide), if_neg fun h => absurd h.1 (by decide)]
  have l0 : s.lines 0 = s.height 0 := if_neg fun h => absurd h.1 (by decide)
  have hc : s.componentCount.toNat = 2 := by rw [hcount]; rfl
  refine laidOut_of_ordered hcovers ?_ ?_ ?_
  · intro c c' hnext hc'
    obtain ⟨rfl, rfl⟩ : c = 0 ∧ c' = 1 := by omega
    omega
  · rw [hc, forall_lt_two, h0, n0]
    omega
  · rw [hc, forall_lt_two, n0, l0, hstride0]
    exact ⟨le_rfl, hfits⟩

/-- Four components, with the smaller chroma at an address that is rounded up to 1k. -/
theorem laidOut_iff_of_four (hcovers : Covers r s) (hcount : s.componentCount = 4)
    (hformat : halvesChroma s.format = true) (h0 : (s.componentOffset 0).toNat = 0)
    (h1 : (s.componentOffset 1).toNat = roundUp 10 (s.width 0 * s.height 0))
    (h2 : (s.componentOffset 2).toNat = (s.componentOffset 1).toNat + s.width 0 * s.height 0 / 2)
    (h3 : (s.componentOffset 3).toNat = roundUp 10 ((s.componentOffset 2).toNat + s.width 2 * s.height 2))
    (hsize : s.size.toNat = (s.componentOffset 2).toNat + (s.width 2 * s.height 2 + s.width 2 * s.height 2 / 2))
    (hstride0 : (s.strides 0).toNat = s.width 0) (hstride1 : (s.strides 1).toNat = s.width 0)
    (hstride2 : (s.strides 2).toNat = s.width 2) (hstride3 : (s.strides 3).toNat = s.width 2) :
    LaidOut r s ↔ 2 ^ 10 ∣ s.width 0 * s.height 0 / 2 + s.width 2 * s.height 2 := by
  obtain ⟨n0, n1, n2, n3⟩ := need_of_count (s := s) (by rw [hcount]; decide) hformat
  obtain ⟨l0, l1, l2, l3⟩ := lines_of_halved (s := s) hformat
  have hc : s.componentCount.toNat = 4 := by rw [hcount]; rfl
  have hle1 := le_roundUp 10 (s.width 0 * s.height 0)
  have hle3 := le_roundUp 10 ((s.componentOffset 2).toNat + s.width 2 * s.height 2)
  -- luma starts at a multiple of 1k, so chroma of the smaller picture does when what lies between does
  have hdvd : 2 ^ 10 ∣ (s.componentOffset 2).toNat + s.width 2 * s.height 2 ↔
      2 ^ 10 ∣ s.width 0 * s.height 0 / 2 + s.width 2 * s.height 2 := by
    rw [h2, h1, Nat.add_assoc]
    exact (Nat.dvd_add_right (two_pow_dvd_roundUp 10 _))
  rw [← hdvd, ← roundUp_eq_self_iff]
  constructor
  · intro h
    have hin := h.inside 3 (by rw [hc]; decide)
    omega
  · intro h
    refine laidOut_of_ordered hcovers ?_ ?_ ?_
    · intro c c' hnext hc'
      obtain ⟨rfl, rfl⟩ | ⟨rfl, rfl⟩ | ⟨rfl, rfl⟩ : c = 0 ∧ c' = 1 ∨ c = 1 ∧ c' = 2 ∨ c = 2 ∧ c' = 3 := by omega
      · omega
      · omega
      · omega
    · rw [hc, forall_lt_four, n0, n1, n2, n3]
      omega
    · have hdiv0 := Nat.mul_div_le_mul_div_assoc (s.width 0) (s.height 0) 2
      have hdiv2 := Nat.mul_div_le_mul_div_assoc (s.width 2) (s.height 2) 2
      rw [hc, forall_lt_four, n0, n1, n2, n3, l0, l1, l2, l3, hstride0, hstride1, hstride2, hstride3]
      exact ⟨le_rfl, hdiv0, le_rfl, hdiv2⟩

end

/-- The largest pictures. -/
def maxSupportedVideoContentWidth : ℕ := 2048

def maxSupportedVideoContentHeight : ℕ := 1536

variable {x v d0 d1 bytes : UInt32}

theorem toNat_macroWidth (hx : x.toNat ≤ 2048) :
    ((x + 0x0f) &&& 0xfffffff0).toNat = roundUp 4 x.toNat :=
  toNat_add_and (by decide) rfl rfl (by omega)

theorem toNat_macroHeight (hx : x.toNat ≤ 2048) :
    ((x + 0x1f) &&& 0xffffffe0).toNat = roundUp 5 x.toNat :=
  toNat_add_and (by decide) rfl rfl (by omega)

theorem toNat_kilobyte (hx : x.toNat < 2 ^ 31) :
    ((x + 0x3ff) &&& 0xfffffc00).toNat = roundUp 10 x.toNat :=
  toNat_add_and (by decide) rfl rfl (by omega)

theorem roundUp_le_of_dvd {k n m : ℕ} (hm : 2 ^ k ∣ m) (h : n ≤ m) : roundUp k n ≤ m := by
  have hmono := roundUp_mono (k := k) h
  rwa [roundUp_eq_self_iff.mpr hm] at hmono

/-- The size of luma, in macroblocks. -/
def macroArea (w h : ℕ) : ℕ := roundUp 4 w * roundUp 5 h

/-- The chroma component of the smaller picture needs no rounding. -/
def NoGap (decimationValue w h : ℕ) : Prop :=
  2 ^ 10 ∣ macroArea w h / 2 + macroArea (roundUp 4 w / decimationValue) (roundUp 5 h / decimationValue)

instance (decimationValue w h : ℕ) : Decidable (NoGap decimationValue w h) :=
  inferInstanceAs (Decidable (_ ∣ _))

variable {w h : ℕ}

theorem macroArea_le (hw : w ≤ 2048) (hh : h ≤ 1536) : macroArea w h ≤ 2048 * 1536 :=
  Nat.mul_le_mul (roundUp_le_of_dvd (by decide) hw) (roundUp_le_of_dvd (by decide) hh)

theorem toNat_area {x y : UInt32} (hx : x.toNat = roundUp 4 w) (hy : y.toNat = roundUp 5 h)
    (hw : w ≤ 2048) (hh : h ≤ 1536) : (x * y).toNat = macroArea w h ∧ macroArea w h ≤ 3145728 := by
  have hle := macroArea_le hw hh
  refine ⟨?_, hle⟩
  rw [toNat_mul_of_lt, hx, hy]
  · rfl
  · rw [hx, hy]
    exact Nat.lt_of_le_of_lt hle (by decide)

theorem laidOut_fillOutMacroBlock_iff (hv : v = 2 ∨ v = 4)
    (hformat : halvesChroma s.format = true) (hborder : hasBorder r.format = false)
    (hr : ∀ i : Fin 5, i < 2 → (r.dimension i).toNat ≤ (s.dimension i).toNat)
    (hw : (s.dimension 0).toNat ≤ 2048) (hh : (s.dimension 1).toNat ≤ 1536) (hzero : s.decimatedSize = 0) :
    LaidOut r (s.fillOutMacroBlock v) ↔
      (s.decimationRequired = true → NoGap v.toNat (s.dimension 0).toNat (s.dimension 1).toNat) := by
  have e0 := toNat_macroWidth hw
  have e1 := toNat_macroHeight (Nat.le_trans hh (by decide))
  obtain ⟨ep, hp⟩ := toNat_area e0 e1 hw hh
  have eo1 := toNat_kilobyte (x := _ * _) (by rw [ep]; omega)
  rw [ep] at eo1
  have hcovers : ∀ t : BufferStructure,
      t.dimension 0 = (s.dimension 0 + 0x0f) &&& 0xfffffff0 →
      t.dimension 1 = (s.dimension 1 + 0x1f) &&& 0xffffffe0 → Covers r t := by
    intro t ht0 ht1 i hi
    rw [hborder]
    have hi' := hr i hi
    obtain rfl | rfl : i = 0 ∨ i = 1 := by omega
    · rw [ht0, e0]
      exact hi'.trans (le_roundUp 4 _)
    · rw [ht1, e1]
      exact hi'.trans (le_roundUp 5 _)
  have h2 : (2 : UInt32).toNat = 2 := rfl
  unfold fillOutMacroBlock
  generalize hd0 : (s.dimension 0 + 0x0f) &&& 0xfffffff0 = d0 at *
  generalize hd1 : (s.dimension 1 + 0x1f) &&& 0xffffffe0 = d1 at *
  have earea : d0.toNat * d1.toNat = macroArea (s.dimension 0).toNat (s.dimension 1).toNat := by
    rw [e0, e1]
    rfl
  have hoffset := roundUp_lt 10 (macroArea (s.dimension 0).toNat (s.dimension 1).toNat)
  have eo2 : ((d0 * d1 + 0x3ff &&& 0xfffffc00) + d0 * d1 / 2).toNat =
      (d0 * d1 + 0x3ff &&& 0xfffffc00).toNat + macroArea (s.dimension 0).toNat (s.dimension 1).toNat / 2 := by
    rw [toNat_add_of_lt, UInt32.toNat_div, ep, h2]
    rw [UInt32.toNat_div, ep, h2, eo1]
    omega
  cases hdec : s.decimationRequired with
  | false =>
    refine iff_of_true ?_ (fun h => absurd h Bool.false_ne_true)
    refine laidOut_of_two (hcovers _ rfl rfl) rfl rfl ?_ ?_ rfl ?_
    · show d0.toNat * d1.toNat ≤ (d0 * d1 + 0x3ff &&& 0xfffffc00).toNat
      rw [eo1, earea]
      exact le_roundUp 10 _
    · rw [(need_of_count ?_ ?_).2.1]
      · show (d0 * d1 + 0x3ff &&& 0xfffffc00).toNat + d0.toNat * d1.toNat / 2 ≤
          ((d0 * d1 + 0x3ff &&& 0xfffffc00) + d0 * d1 / 2).toNat
        rw [eo2, earea]
      · exact show (2 : UInt32) ≠ 1 by decide
      · exact hformat
    · rw [(need_of_count ?_ ?_).2.1, (lines_of_halved ?_).2.1]
      · exact Nat.mul_div_le_mul_div_assoc ..
      · exact hformat
      · exact show (2 : UInt32) ≠ 1 by decide
      · exact hformat
  | true =>
    rw [if_pos rfl]
    refine Iff.trans ?_ ⟨fun h _ => h, fun h => h rfl⟩
    have hv2 : 2 ≤ v.toNat := by
      rcases hv with rfl | rfl <;> decide
    have hw0 : roundUp 4 (s.dimension 0).toNat ≤ 2048 := roundUp_le_of_dvd (by decide) hw
    have hh0 : roundUp 5 (s.dimension 1).toNat ≤ 1536 := roundUp_le_of_dvd (by decide) hh
    have hhalf : ∀ {n m : ℕ}, n ≤ 2 * m → n / v.toNat ≤ m := by
      intro n m hn
      exact (Nat.div_le_div_left hv2 (by decide)).trans (by omega)
    have hw2 : (d0 / v).toNat ≤ 1024 := by
      rw [UInt32.toNat_div, e0]
      exact hhalf hw0
    have hh2 : (d1 / v).toNat ≤ 768 := by
      rw [UInt32.toNat_div, e1]
      exact hhalf hh0
    have e2 := toNat_macroWidth (x := d0 / v) (by omega)
    have e3 := toNat_macroHeight (x := d1 / v) (by omega)
    obtain ⟨eq, hq⟩ := toNat_area e2 e3 (by omega) (by omega)
    have hgap : NoGap v.toNat (s.dimension 0).toNat (s.dimension 1).toNat ↔
        2 ^ 10 ∣ d0.toNat * d1.toNat / 2 + macroArea (d0 / v).toNat (d1 / v).toNat := by
      rw [UInt32.toNat_div, UInt32.toNat_div, e0, e1]
      rfl
    generalize hd2 : (d0 / v + 0x0f) &&& 0xfffffff0 = d2 at *
    generalize hd3 : (d1 / v + 0x1f) &&& 0xffffffe0 = d3 at *
    have earea2 : d2.toNat * d3.toNat = macroArea (d0 / v).toNat (d1 / v).toNat := by
      rw [e2, e3]
      rfl
    rw [hgap, ← earea2]
    refine laidOut_iff_of_four (hcovers _ rfl rfl) rfl hformat rfl ?_ ?_ ?_ ?_ rfl rfl rfl rfl
    · show (d0 * d1 + 0x3ff &&& 0xfffffc00).toNat = roundUp 10 (d0.toNat * d1.toNat)
      rw [eo1, earea]
    · show ((d0 * d1 + 0x3ff &&& 0xfffffc00) + d0 * d1 / 2).toNat = _ + d0.toNat * d1.toNat / 2
      rw [eo2, earea]
      rfl
    · show ((d0 * d1 + 0x3ff &&& 0xfffffc00) + d0 * d1 / 2 + d2 * d3 + 0x3ff &&& 0xfffffc00).toNat =
        roundUp 10 (((d0 * d1 + 0x3ff &&& 0xfffffc00) + d0 * d1 / 2).toNat + d2.toNat * d3.toNat)
      have hsum := toNat_add_of_lt (x := (d0 * d1 + 0x3ff &&& 0xfffffc00) + d0 * d1 / 2) (y := d2 * d3)
        (by omega)
      rw [earea2, ← eq, ← hsum]
      exact toNat_kilobyte (by omega)
    · show ((d0 * d1 + 0x3ff &&& 0xfffffc00) + d0 * d1 / 2 +
          (s.decimatedSize + (d2 * d3 + d2 * d3 / 2))).toNat =
        ((d0 * d1 + 0x3ff &&& 0xfffffc00) + d0 * d1 / 2).toNat +
          (d2.toNat * d3.toNat + d2.toNat * d3.toNat / 2)
      have hdiv : (d2 * d3 / 2).toNat = (d2 * d3).toNat / 2 := UInt32.toNat_div _ _
      have hsum := toNat_add_of_lt (x := d2 * d3) (y := d2 * d3 / 2) (by omega)
      rw [earea2, ← eq, hzero, UInt32.zero_add, toNat_add_of_lt (by omega), hsum, hdiv]

/-! ### Planes -/

/-- A dimension of a request, with the border on both sides. -/
def borderedSize (s : BufferStructure) (i : Fin 5) : ℕ := (s.dimension i).toNat + 2 * (s.componentBorder i).toNat

theorem toNat_bordered (s : BufferStructure) (i : Fin 5) :
    (roundUp 4 (s.borderedSize i) < 2 ^ 32 ∧ (s.bordered i).toNat = roundUp 4 (s.borderedSize i)) ∨
      (2 ^ 32 ≤ roundUp 4 (s.borderedSize i) ∧ (s.bordered i).toNat + 2 ^ 32 ≤ s.borderedSize i + 15) := by
  have h2 : (2 : UInt32).toNat = 2 := rfl
  have h15 : (0x0f : UInt32).toNat = 15 := rfl
  have hvalue : (s.bordered i).toNat = (s.borderedSize i + 15) % 2 ^ 32 / 2 ^ 4 * 2 ^ 4 := by
    unfold bordered borderedSize
    rw [toNat_and (k := 4) (by decide) rfl, UInt32.toNat_add, UInt32.toNat_add, UInt32.toNat_mul, h2, h15]
    omega
  have hexact : roundUp 4 (s.borderedSize i) = (s.borderedSize i + 15) / 2 ^ 4 * 2 ^ 4 := rfl
  rw [hvalue, hexact]
  generalize s.borderedSize i = n
  omega

theorem toNat_aligned (s : BufferStructure) (i : Fin 5) :
    (roundUp 6 (roundUp 4 (s.borderedSize i)) < 2 ^ 32 ∧
        ((s.bordered i + 0x3f) &&& 0xffffffc0).toNat = roundUp 6 (roundUp 4 (s.borderedSize i))) ∨
      (2 ^ 32 ≤ roundUp 6 (roundUp 4 (s.borderedSize i)) ∧
        ((s.bordered i + 0x3f) &&& 0xffffffc0).toNat < s.borderedSize i) := by
  have h63 : (0x3f : UInt32).toNat = 63 := rfl
  have hvalue : ((s.bordered i + 0x3f) &&& 0xffffffc0).toNat =
      ((s.bordered i).toNat + 63) % 2 ^ 32 / 2 ^ 6 * 2 ^ 6 := by
    rw [toNat_and (k := 6) (by decide) rfl, UInt32.toNat_add, h63]
  have hexact : ∀ n, roundUp 6 n = (n + 63) / 2 ^ 6 * 2 ^ 6 := fun _ => rfl
  have hle := le_roundUp 4 (s.borderedSize i)
  have hlt := roundUp_lt 4 (s.borderedSize i)
  have hword := (s.bordered i).toNat_lt
  rw [hvalue, hexact]
  rcases s.toNat_bordered i with ⟨hfit, h⟩ | ⟨hfit, h⟩
  · omega
  · omega

theorem LaidOut.add_need_le (h : LaidOut r s) (hcount : s.componentCount = 2)
    (h0 : (s.componentOffset 0).toNat = 0) (h1 : s.need 1 ≠ 0) : s.need 0 + s.need 1 ≤ s.size.toNat := by
  have hc : s.componentCount.toNat = 2 := by rw [hcount]; rfl
  have hin1 := h.inside 1 (by rw [hc]; decide)
  have hapart := Set.Ico_disjoint_Ico.mp (h.apart 0 1 (by decide) (by rw [hc]; decide))
  have hpos := Nat.pos_of_ne_zero h1
  omega

theorem laidOut_fillOutPlanar_half_iff (hformat : halvesChroma s.format = true) :
    LaidOut r (s.fillOutPlanar d0 (· / 2) (· * 3 / 2)) ↔
      Covers r (s.fillOutPlanar d0 (· / 2) (· * 3 / 2)) ∧ d0.toNat * (s.bordered 1).toNat * 3 < 2 ^ 32 := by
  generalize ht : s.fillOutPlanar d0 (· / 2) (· * 3 / 2) = t
  have hcount : t.componentCount = 2 := ht ▸ rfl
  have hformat' : halvesChroma t.format = true := ht ▸ hformat
  have h0 : (t.componentOffset 0).toNat = 0 := ht ▸ rfl
  have hoffset : t.componentOffset 1 = d0 * s.bordered 1 := ht ▸ rfl
  have hsize : t.size = d0 * s.bordered 1 * 3 / 2 := ht ▸ rfl
  have hw : t.width 0 = d0.toNat := ht ▸ rfl
  have hh : t.height 0 = (s.bordered 1).toNat := ht ▸ rfl
  have hstride0 : t.strides 0 = d0 := ht ▸ rfl
  have hstride1 : t.strides 1 = d0 / 2 := ht ▸ rfl
  obtain ⟨n0, n1, -, -⟩ := need_of_count (s := t) (by rw [hcount]; decide) hformat'
  obtain ⟨l0, l1, -, -⟩ := lines_of_halved (s := t) hformat'
  have h2 : (2 : UInt32).toNat = 2 := rfl
  have h3 : (3 : UInt32).toNat = 3 := rfl
  rw [← hw, ← hh]
  constructor
  · intro h
    refine ⟨h.covers, ?_⟩
    have hlt : t.size.toNat < 2 ^ 31 := by
      have hword := (d0 * s.bordered 1 * 3).toNat_lt
      rw [hsize, UInt32.toNat_div, h2]
      omega
    by_cases hneed : t.need 1 = 0
    · omega
    · have hle := h.add_need_le hcount h0 hneed
      omega
  · rintro ⟨hcovers, hlt⟩
    have eoffset : (t.componentOffset 1).toNat = t.width 0 * t.height 0 := by
      rw [hoffset, toNat_mul_of_lt, hw, hh]
      rw [hw, hh] at hlt
      omega
    have esize : t.size.toNat = t.width 0 * t.height 0 * 3 / 2 := by
      rw [hsize, UInt32.toNat_div, toNat_mul_of_lt, ← hoffset, eoffset, h2, h3]
      rw [← hoffset, eoffset, h3]
      exact hlt
    refine laidOut_of_two hcovers hcount h0 eoffset.ge ?_ (by rw [hstride0, hw]) ?_
    · omega
    · rw [hstride1, UInt32.toNat_div, h2, l1, n1, hw]
      have hdiv := Nat.mul_div_le_mul_div_assoc d0.toNat (t.height 0) 2
      exact (Nat.mul_le_mul_right _ (Nat.div_le_self _ _)).trans hdiv

theorem laidOut_fillOutPlanar_full_iff (hformat : halvesChroma s.format = false) :
    LaidOut r (s.fillOutPlanar d0 id (· * 2)) ↔
      Covers r (s.fillOutPlanar d0 id (· * 2)) ∧ d0.toNat * (s.bordered 1).toNat * 2 < 2 ^ 32 := by
  generalize ht : s.fillOutPlanar d0 id (· * 2) = t
  have hcount : t.componentCount = 2 := ht ▸ rfl
  have hformat' : halvesChroma t.format = false := ht ▸ hformat
  have h0 : (t.componentOffset 0).toNat = 0 := ht ▸ rfl
  have hoffset : t.componentOffset 1 = d0 * s.bordered 1 := ht ▸ rfl
  have hsize : t.size = d0 * s.bordered 1 * 2 := ht ▸ rfl
  have hw : t.width 0 = d0.toNat := ht ▸ rfl
  have hh : t.height 0 = (s.bordered 1).toNat := ht ▸ rfl
  have hstride0 : t.strides 0 = d0 := ht ▸ rfl
  have hstride1 : t.strides 1 = d0 := ht ▸ rfl
  have hhalved : ∀ c, ¬ t.Halved c := fun c h => absurd (hformat'.symm.trans h.2) (by decide)
  have hneed : ∀ c, t.need c = t.width c * t.height c := by
    intro c
    unfold need
    rw [if_neg (by rw [hcount]; decide), if_neg (hhalved c)]
  have hlines : t.lines 1 = t.height 0 := if_neg (hhalved 1)
  have n0 := hneed 0
  have n1 : t.need 1 = t.width 0 * t.height 0 := hneed 1
  have h2 : (2 : UInt32).toNat = 2 := rfl
  rw [← hw, ← hh]
  constructor
  · intro h
    refine ⟨h.covers, ?_⟩
    have hlt := t.size.toNat_lt
    by_cases hzero : t.need 1 = 0
    · omega
    · have hle := h.add_need_le hcount h0 hzero
      omega
  · rintro ⟨hcovers, hlt⟩
    have eoffset : (t.componentOffset 1).toNat = t.width 0 * t.height 0 := by
      rw [hoffset, toNat_mul_of_lt, hw, hh]
      rw [hw, hh] at hlt
      omega
    have esize : t.size.toNat = t.width 0 * t.height 0 * 2 := by
      rw [hsize, toNat_mul_of_lt, ← hoffset, eoffset, h2]
      rw [← hoffset, eoffset, h2]
      exact hlt
    refine laidOut_of_two hcovers hcount h0 eoffset.ge ?_ (by rw [hstride0, hw]) ?_
    · omega
    · rw [hstride1, hlines, n1, hw]

theorem covers_fillOutPlanar_iff (f g : UInt32 → UInt32)
    (hborder : hasBorder s.format = true) : Covers s (s.fillOutPlanar d0 f g) ↔
      s.borderedSize 0 ≤ d0.toNat ∧ s.borderedSize 1 ≤ (s.bordered 1).toNat := by
  unfold Covers
  rw [hborder]
  constructor
  · intro h
    exact ⟨h 0 (by decide), h 1 (by decide)⟩
  · rintro ⟨h0, h1⟩ i hi
    obtain rfl | rfl : i = 0 ∨ i = 1 := by omega
    · exact h0
    · exact h1

variable {i : Fin 5}

theorem le_bordered_iff :
    s.borderedSize i ≤ (s.bordered i).toNat ↔ roundUp 4 (s.borderedSize i) < 2 ^ 32 := by
  have hle := le_roundUp 4 (s.borderedSize i)
  rcases s.toNat_bordered i with ⟨hfit, h⟩ | ⟨hfit, h⟩
  · exact iff_of_true (by omega) hfit
  · exact iff_of_false (by omega) (by omega)

theorem toNat_bordered_of_lt (h : roundUp 4 (s.borderedSize i) < 2 ^ 32) :
    (s.bordered i).toNat = roundUp 4 (s.borderedSize i) := by
  rcases s.toNat_bordered i with ⟨-, h'⟩ | ⟨hfit, -⟩
  · exact h'
  · omega

theorem planes_fit_iff {n k : ℕ}
    (hd0 : n < 2 ^ 32 ∧ d0.toNat = n ∨ 2 ^ 32 ≤ n ∧ d0.toNat < s.borderedSize 0) (hn : s.borderedSize 0 ≤ n) :
    ((s.borderedSize 0 ≤ d0.toNat ∧ s.borderedSize 1 ≤ (s.bordered 1).toNat) ∧
        d0.toNat * (s.bordered 1).toNat * k < 2 ^ 32) ↔
      n < 2 ^ 32 ∧ roundUp 4 (s.borderedSize 1) < 2 ^ 32 ∧ n * roundUp 4 (s.borderedSize 1) * k < 2 ^ 32 := by
  rw [le_bordered_iff, and_assoc]
  rcases hd0 with ⟨hlt, rfl⟩ | ⟨hge, hsmall⟩
  · refine and_congr (iff_of_true hn hlt) (and_congr_right fun h1 => ?_)
    rw [toNat_bordered_of_lt h1]
  · exact iff_of_false (fun h => absurd h.1 (by omega)) (fun h => absurd h.1 (by omega))

/-! ### Packed formats -/

theorem laidOut_of_packed (hcovers : Covers r s)
    (hcount : s.componentCount = 1) (hoffset : s.componentOffset 0 = 0) (hd0 : s.dimension 0 = d0)
    (hd1 : s.dimension 1 = d1) (hbytes : bytes.toNat = pixelBytes s.format)
    (hsize : s.size.toNat = d0.toNat * d1.toNat * bytes.toNat)
    (hstride : (s.strides 0).toNat = d0.toNat * bytes.toNat) : LaidOut r s := by
  have hneed : s.need 0 = d0.toNat * d1.toNat * bytes.toNat := by
    unfold need
    rw [if_pos hcount, hbytes, ← hd0, ← hd1]
    rfl
  have hlines : s.lines 0 = d1.toNat := by
    unfold lines
    rw [if_neg fun h => absurd h.1 (by decide), ← hd1]
    rfl
  refine laidOut_of_one hcovers hcount (by rw [hoffset]; rfl) (by rw [hneed, hsize]) ?_
  rw [hstride, hlines, hneed, Nat.mul_right_comm]

theorem toNat_packed (bytes : UInt32) (hd0 : d0.toNat ≤ 2048) (hd1 : d1.toNat ≤ 1536)
    (hbytes : bytes.toNat ≤ 4) : (d0 * d1 * bytes).toNat = d0.toNat * d1.toNat * bytes.toNat ∧
      (d0 * bytes).toNat = d0.toNat * bytes.toNat := by
  have harea : d0.toNat * d1.toNat ≤ 2048 * 1536 := Nat.mul_le_mul hd0 hd1
  have hbig : d0.toNat * d1.toNat * bytes.toNat ≤ 2048 * 1536 * 4 := Nat.mul_le_mul harea hbytes
  have hline : d0.toNat * bytes.toNat ≤ 2048 * 4 := Nat.mul_le_mul hd0 hbytes
  have e := toNat_mul_of_lt (x := d0) (y := d1) (by omega)
  refine ⟨?_, toNat_mul_of_lt (by omega)⟩
  rw [toNat_mul_of_lt, e]
  rw [e]
  omega

theorem laidOut_fillOutPacked (hborder : hasBorder r.format = false)
    (hr : ∀ i : Fin 5, i < 2 → (r.dimension i).toNat ≤ (s.dimension i).toNat)
    (hbytes : bytes.toNat = pixelBytes s.format)
    (hw : (s.dimension 0).toNat ≤ 2048) (hh : (s.dimension 1).toNat ≤ 1536) :
    LaidOut r (s.fillOutPacked bytes) := by
  have e0 := toNat_macroHeight hw
  have e1 := toNat_macroHeight (Nat.le_trans hh (by decide))
  have hw0 : roundUp 5 (s.dimension 0).toNat ≤ 2048 := roundUp_le_of_dvd (by decide) hw
  have hh0 : roundUp 5 (s.dimension 1).toNat ≤ 1536 := roundUp_le_of_dvd (by decide) hh
  have hfour : bytes.toNat ≤ 4 := by
    rw [hbytes]
    cases s.format <;> decide
  obtain ⟨esize, estride⟩ := toNat_packed bytes (e0.trans_le hw0) (e1.trans_le hh0) hfour
  refine laidOut_of_packed ?_ rfl rfl rfl rfl hbytes esize estride
  intro i hi
  have hi' := hr i hi
  rw [hborder]
  obtain rfl | rfl : i = 0 ∨ i = 1 := by omega
  · exact hi'.trans ((le_roundUp 5 _).trans e0.ge)
  · exact hi'.trans ((le_roundUp 5 _).trans e1.ge)

theorem laidOut_of_empty (hcovers : Covers r s) (hneed : ∀ c, s.need c = 0)
    (hoffset : ∀ c, s.componentOffset c = 0) (hfits : ∀ c, (s.strides c).toNat * s.lines c = 0) :
    LaidOut r s := by
  refine ⟨hcovers, fun c _ => ?_, fun c c' _ _ => ?_, fun c _ => ?_⟩
  · rw [hneed, hoffset]
    exact Nat.zero_le _
  · unfold region
    rw [hneed, Nat.add_zero, Set.Ico_self]
    exact Set.empty_disjoint _
  · rw [hfits]
    exact Nat.zero_le _

/-- `FormatVideo422_Raster`: four components only for pictures without lines, or so small that they have
none when they are decimated. -/
theorem laidOut_fillOutRaster_iff (hborder : hasBorder r.format = false)
    (hr : ∀ i : Fin 5, i < 2 → (r.dimension i).toNat ≤ (s.dimension i).toNat)
    (hformat : s.format = .video422Raster) (hoffset : s.componentOffset = fun _ => 0)
    (hstrides : s.strides = fun _ => 0)
    (hw : (s.dimension 0).toNat ≤ 2048) (hh : (s.dimension 1).toNat ≤ 1536) :
    LaidOut r (s.fillOutRaster v) ↔ (s.decimationRequired = true →
      s.dimension 1 = 0 ∨ s.dimension 0 = 0 ∧ s.dimension 1 / v = 0) := by
  have e0 := toNat_macroHeight hw
  have hw0 : roundUp 5 (s.dimension 0).toNat ≤ 2048 := roundUp_le_of_dvd (by decide) hw
  have hle := le_roundUp 5 (s.dimension 0).toNat
  have hd0 : (s.dimension 0 + 0x1f) &&& 0xffffffe0 = 0 ↔ s.dimension 0 = 0 := by
    rw [← UInt32.toNat_inj, e0, ← UInt32.toNat_inj]
    constructor
    · intro h
      rw [h] at hle
      exact Nat.le_zero.mp hle
    · intro h
      rw [h]
      rfl
  have hcovers : ∀ t : BufferStructure,
      t.dimension 0 = (s.dimension 0 + 0x1f) &&& 0xffffffe0 → t.dimension 1 = s.dimension 1 → Covers r t := by
    intro t ht0 ht1 i hi
    have hi' := hr i hi
    rw [hborder]
    obtain rfl | rfl : i = 0 ∨ i = 1 := by omega
    · rw [ht0, e0]
      exact hi'.trans hle
    · rw [ht1]
      exact hi'
  generalize hd : (s.dimension 0 + 0x1f) &&& 0xffffffe0 = d0 at e0 hd0 hcovers
  obtain ⟨esize, estride⟩ := toNat_packed 2 (e0.trans_le hw0) hh (by decide)
  cases hdec : s.decimationRequired with
  | false =>
    refine iff_of_true ?_ (fun h => absurd h Bool.false_ne_true)
    unfold fillOutRaster
    rw [hd, hdec]
    have hbytes : (2 : UInt32).toNat = pixelBytes s.format := by rw [hformat]; rfl
    refine laidOut_of_packed (hcovers _ rfl rfl) rfl rfl rfl rfl hbytes ?_ ?_
    · show (2 * d0 * s.dimension 1).toNat = d0.toNat * (s.dimension 1).toNat * (2 : UInt32).toNat
      rw [← esize, UInt32.mul_comm 2, UInt32.mul_assoc, UInt32.mul_comm 2, ← UInt32.mul_assoc]
    · show (2 * d0).toNat = d0.toNat * (2 : UInt32).toNat
      rw [← estride, UInt32.mul_comm]
  | true =>
    refine Iff.trans ?_ ⟨fun h _ => h, fun h => h rfl⟩
    generalize ht : s.fillOutRaster v = t
    unfold fillOutRaster at ht
    rw [hd, hdec] at ht
    have hcount : t.componentCount = 4 := ht ▸ rfl
    have hc : t.componentCount.toNat = 4 := by rw [hcount]; rfl
    have hhalved : ∀ c, ¬ t.Halved c := by
      intro c h
      have hf : t.format = .video422Raster := ht ▸ hformat
      exact absurd (hf ▸ h.2) (by decide)
    have hneed : ∀ c, t.need c = t.width c * t.height c := by
      intro c
      unfold need
      rw [if_neg (by rw [hcount]; decide), if_neg (hhalved c)]
    have hlines : ∀ c, t.lines c = t.height c := fun c => if_neg (hhalved c)
    have ht0 : t.dimension 0 = d0 := ht ▸ rfl
    have ht1 : t.dimension 1 = s.dimension 1 := ht ▸ rfl
    have ht2 : t.dimension 2 = d0 / v := ht ▸ rfl
    have ht3 : t.dimension 3 = s.dimension 1 / v := ht ▸ rfl
    have hoffsets : t.componentOffset = write [0, 0, 2 * d0 * s.dimension 1] fun _ => 0 := by
      rw [← ht]
      show write [0, s.componentOffset 1, 2 * d0 * s.dimension 1] s.componentOffset = _
      rw [hoffset]
    have hstride : t.strides = write [2 * d0, 0, 2 * (d0 / v), 2 * (s.dimension 1 / v)] fun _ => 0 := by
      rw [← ht]
      show write [2 * d0, s.strides 1, 2 * (d0 / v), 2 * (s.dimension 1 / v)] s.strides = _
      rw [hstrides]
    have hlines3 : (s.dimension 1 / v).toNat ≤ 1536 := by
      exact (Nat.div_le_self _ _).trans hh
    have hline : (2 * (s.dimension 1 / v)).toNat = 2 * (s.dimension 1 / v).toNat :=
      toNat_mul_of_lt (Nat.lt_of_le_of_lt (Nat.mul_le_mul_left _ hlines3) (by decide))
    constructor
    · intro h
      have hapart := Set.Ico_disjoint_Ico.mp (h.apart 0 1 (by decide) (by rw [hc]; decide))
      have hfits := h.fits 3 (by rw [hc]; decide)
      have h1 : t.need 1 = t.need 0 := by
        rw [hneed, hneed]
        rfl
      have h0 : t.need 0 = d0.toNat * (s.dimension 1).toNat := by
        rw [hneed, ← ht0, ← ht1]
        rfl
      rw [hoffsets, h1, h0] at hapart
      -- luma and chroma start at the same address
      have hzero : d0.toNat * (s.dimension 1).toNat = 0 := by
        have e : ∀ n : ℕ, min (0 + n) (0 + n) ≤ max 0 0 → n = 0 := by omega
        exact e _ hapart
      rcases Nat.mul_eq_zero.mp hzero with hz | hz
      · have hd00 : d0 = 0 := UInt32.toNat_inj.mp hz
        refine .inr ⟨hd0.mp hd00, UInt32.toNat_inj.mp ?_⟩
        have h3 : t.need 3 = 0 := by
          rw [hneed]
          show (t.dimension 2).toNat * _ = 0
          rw [ht2, hd00, UInt32.zero_div]
          exact Nat.zero_mul _
        have hl3 : t.lines 3 = (s.dimension 1 / v).toNat := by
          rw [hlines, ← ht3]
          rfl
        rw [h3, hl3, hstride] at hfits
        have hmul : 2 * (s.dimension 1 / v).toNat * (s.dimension 1 / v).toNat ≤ 0 := by
          rw [← hline]
          exact hfits
        rcases Nat.mul_eq_zero.mp (Nat.le_zero.mp hmul) with h | h
        · exact (Nat.mul_eq_zero.mp h).resolve_left (by decide)
        · exact h
      · exact .inl (UInt32.toNat_inj.mp hz)
    · intro h
      have hempty : (∀ c, t.height c = 0) ∨ ∀ c, t.width c = 0 ∧ t.strides c = 0 := by
        rcases h with h1 | ⟨h0, h3⟩
        · left
          intro c
          unfold height
          rw [ht1, ht3, h1, UInt32.zero_div, ite_self]
          rfl
        · right
          have hd00 := hd0.mpr h0
          intro c
          unfold width
          rw [ht0, ht2, hstride, h3, hd00, UInt32.zero_div, ite_self]
          refine ⟨rfl, ?_⟩
          fin_cases c <;> rfl
      have hlast : 2 * d0 * s.dimension 1 = 0 := by
        rcases h with h1 | ⟨h0, -⟩
        · rw [h1, UInt32.mul_zero]
        · rw [hd0.mpr h0, UInt32.mul_zero, UInt32.zero_mul]
      refine laidOut_of_empty (hcovers t ht0 ht1) (fun c => ?_) (fun c => ?_) fun c => ?_
      · rw [hneed]
        rcases hempty with h | h
        · rw [h c, Nat.mul_zero]
        · rw [(h c).1, Nat.zero_mul]
      · rw [hoffsets, hlast]
        fin_cases c <;> rfl
      · rw [hlines]
        rcases hempty with h | h
        · rw [h c, Nat.mul_zero]
        · rw [(h c).2]
          exact Nat.zero_mul _

/-! ### All formats -/

/-- The formats that `FillOutBufferStructure` lays out. -/
def Supported (format : BufferFormat) : Prop :=
  format ≠ .unknown ∧ format ≠ .markerFrame ∧ format ≠ .audio

instance (format : BufferFormat) : Decidable (Supported format) := inferInstanceAs (Decidable (_ ∧ _))

/-- When the layout of a request is right.  Macroblocks: the chroma component of the smaller picture
needs no rounding.  Raster: there is no smaller picture.  Planes: the sizes fit into a word. -/
def FitsLayout (half : Bool) (r : BufferStructure) : Prop :=
  let decimationValue := if half then 2 else 4
  let w := (r.dimension 0).toNat
  let h := (r.dimension 1).toNat
  let planeWidth := roundUp 4 (r.borderedSize 0)
  let planeHeight := roundUp 4 (r.borderedSize 1)
  match r.format with
  | .video420MacroBlock => r.decimationRequired = true → NoGap decimationValue w h
  | .video420PairedMacroBlock => r.decimationRequired = true → NoGap decimationValue (roundUp 5 w) h
  | .video422Raster => r.decimationRequired = true → h = 0 ∨ w = 0 ∧ h < decimationValue
  | .video420Planar => planeWidth < 2 ^ 32 ∧ planeHeight < 2 ^ 32 ∧ planeWidth * planeHeight * 3 < 2 ^ 32
  | .video420PlanarAligned =>
    roundUp 6 planeWidth < 2 ^ 32 ∧ planeHeight < 2 ^ 32 ∧ roundUp 6 planeWidth * planeHeight * 3 < 2 ^ 32
  | .video422Planar => planeWidth < 2 ^ 32 ∧ planeHeight < 2 ^ 32 ∧ planeWidth * planeHeight * 2 < 2 ^ 32
  | _ => True

/-- **The layout of a buffer.**  For every supported format, every picture up to the largest size, every
border and every decimation, the layout is right exactly when the request meets `FitsLayout`. -/
theorem laidOut_iff {format : BufferFormat} (hformat : Supported format) (half decimationRequired : Bool)
    {w h : UInt32} (hw : w.toNat ≤ maxSupportedVideoContentWidth)
    (hh : h.toNat ≤ maxSupportedVideoContentHeight) (border0 border1 : UInt32) :
    LaidOut (request format decimationRequired w h border0 border1)
        ((request format decimationRequired w h border0 border1).fillOutBufferStructure half) ↔
      FitsLayout half (request format decimationRequired w h border0 border1) := by
  generalize hr : request format decimationRequired w h border0 border1 = r
  have hformat' : r.format = format := hr ▸ rfl
  have hw' : (r.dimension 0).toNat ≤ 2048 := hr ▸ hw
  have hh' : (r.dimension 1).toNat ≤ 1536 := hr ▸ hh
  have hzero : r.decimatedSize = 0 := hr ▸ rfl
  have hself : ∀ i : Fin 5, i < 2 → (r.dimension i).toNat ≤ (r.dimension i).toNat := fun _ _ => le_rfl
  have hv : (if half then (2 : UInt32) else 4).toNat = if half then 2 else 4 := by cases half <;> rfl
  have hv' : (if half then (2 : UInt32) else 4) = 2 ∨ (if half then (2 : UInt32) else 4) = 4 := by
    cases half
    · exact .inr rfl
    · exact .inl rfl
  have hplane := r.toNat_bordered 0
  have hle := le_roundUp 4 (r.borderedSize 0)
  unfold FitsLayout fillOutBufferStructure
  rw [hformat']
  cases format with
  | unknown => exact absurd rfl hformat.1
  | markerFrame => exact absurd rfl hformat.2.1
  | audio => exact absurd rfl hformat.2.2
  | video420MacroBlock =>
    rw [← hv]
    apply laidOut_fillOutMacroBlock_iff hv' (by rw [hformat']; rfl) (by rw [hformat']; rfl) hself hw' hh' hzero
  | video420PairedMacroBlock =>
    dsimp only
    have e0 := toNat_macroHeight hw'
    have hpair : roundUp 5 (r.dimension 0).toNat ≤ 2048 := roundUp_le_of_dvd (by decide) hw'
    rw [← hv, ← e0]
    refine laidOut_fillOutMacroBlock_iff hv' (by rw [hformat']; rfl) (by rw [hformat']; rfl) ?_ ?_ hh' hzero
    · intro i hi
      obtain rfl | rfl : i = 0 ∨ i = 1 := by omega
      · exact (le_roundUp 5 _).trans e0.ge
      · exact le_rfl
    · exact e0.trans_le hpair
  | video422Raster =>
    have hdim : r.dimension 1 / (if half then 2 else 4) = 0 ↔
        (r.dimension 1).toNat < if half then 2 else 4 := by
      rw [← UInt32.toNat_inj, UInt32.toNat_div, hv]
      exact Nat.div_eq_zero_iff_lt (by cases half <;> decide)
    rw [laidOut_fillOutRaster_iff (by rw [hformat']; rfl) hself hformat' (hr ▸ rfl) (hr ▸ rfl) hw' hh', hdim,
      ← UInt32.toNat_inj, ← UInt32.toNat_inj]
    rfl
  | video420Planar =>
    unfold fillOut420Planar
    rw [laidOut_fillOutPlanar_half_iff (by rw [hformat']; rfl),
      covers_fillOutPlanar_iff _ _ (by rw [hformat']; rfl)]
    exact planes_fit_iff (by omega) hle
  | video420PlanarAligned =>
    unfold fillOut420PlanarAligned
    rw [laidOut_fillOutPlanar_half_iff (by rw [hformat']; rfl),
      covers_fillOutPlanar_iff _ _ (by rw [hformat']; rfl)]
    exact planes_fit_iff (r.toNat_aligned 0) (hle.trans (le_roundUp 6 _))
  | video422Planar =>
    unfold fillOut422Planar
    rw [laidOut_fillOutPlanar_full_iff (by rw [hformat']; rfl),
      covers_fillOutPlanar_iff _ _ (by rw [hformat']; rfl)]
    exact planes_fit_iff (by omega) hle
  | video8888Argb =>
    refine iff_of_true ?_ trivial
    exact laidOut_fillOutPacked (by rw [hformat']; rfl) hself (by rw [hformat']; rfl) hw' hh'
  | video888Rgb =>
    refine iff_of_true ?_ trivial
    exact laidOut_fillOutPacked (by rw [hformat']; rfl) hself (by rw [hformat']; rfl) hw' hh'
  | video565Rgb =>
    refine iff_of_true ?_ trivial
    exact laidOut_fillOutPacked (by rw [hformat']; rfl) hself (by rw [hformat']; rfl) hw' hh'
  | video422Yuyv =>
    refine iff_of_true ?_ trivial
    exact laidOut_fillOutPacked (by rw [hformat']; rfl) hself (by rw [hformat']; rfl) hw' hh'

theorem laidOut_half : LaidOut (request .video420MacroBlock true 720 576 0 0)
    ((request .video420MacroBlock true 720 576 0 0).fillOutBufferStructure true) :=
  (laidOut_iff (by decide) true true (by decide) (by decide) 0 0).mpr fun _ => by decide

/-- A picture of 720 by 576, decimated to a quarter: the last component ends behind the buffer. -/
theorem not_laidOut : ¬ LaidOut (request .video420MacroBlock true 720 576 0 0)
    ((request .video420MacroBlock true 720 576 0 0).fillOutBufferStructure false) := by
  intro h
  have hin := h.inside 3 (by decide)
  exact absurd hin (by decide)

end BufferStructure

end Player2

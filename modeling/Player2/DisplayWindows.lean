import Player2.RationalBounds
import Player2.Run

/-! # Display windows

`Manifestor_Video_c::SetDisplayWindows` chooses the part of a picture that is shown and the part of the
surface that it is shown on, from the windows that `SetOutputWindow` and `SetInputWindow` were given, the
pixel aspect ratio and the policies.

Windows are unsigned, and what is computed from them is an `int`; both wrap.  A result is `none` where a
division by zero is evaluated, of integers or of rationals, which then have the denominator 0.  `Right` says
where the windows should be, and `Feasible` what keeps the arithmetic in range. -/

namespace Player2.DisplayWindows

/-! ### Data -/

/-- What an `unsigned int` holds of a number. -/
def unsigned (z : ℤ) : ℕ := (z % 2 ^ 32).toNat

/-- What an `int` holds of a number. -/
def signed (z : ℤ) : ℤ := z.bmod (2 ^ 32)

/-- `Window_s`. -/
structure Window where
  x : ℕ
  y : ℕ
  width : ℕ
  height : ℕ
deriving DecidableEq, Repr

/-- The `int`s that hold a window. -/
structure Area where
  x : ℤ
  y : ℤ
  width : ℤ
  height : ℤ
deriving DecidableEq, Repr

def Window.area (w : Window) : Area := ⟨signed w.x, signed w.y, signed w.width, signed w.height⟩

def Area.window (a : Area) : Window :=
  ⟨unsigned a.x, unsigned a.y, unsigned a.width, unsigned a.height⟩

/-- The size of the surface, which is that of a display mode; the modes of the driver are no larger. -/
structure SurfaceDescriptor where
  displayWidth : ℕ
  displayHeight : ℕ
  width_pos : 0 < displayWidth
  height_pos : 0 < displayHeight
  width_le : displayWidth ≤ 2048
  height_le : displayHeight ≤ 2048

/-- `VideoDisplayParameters_s`. -/
structure VideoDisplayParameters where
  width : ℕ
  height : ℕ
  displayWidth : ℕ
  displayHeight : ℕ
  progressive : Bool
  overscanAppropriate : Bool
  videoFullRange : Bool
  colourMatrixCoefficients : ℕ
  pixelAspectRatio : Rational
  frameRate : Rational
deriving DecidableEq

/-- What `memset` and the assignments of 0 leave. -/
def VideoDisplayParameters.cleared : VideoDisplayParameters :=
  ⟨0, 0, 0, 0, false, false, false, 0, .ofInt 0, .ofInt 0⟩

def maxSupportedVideoContentWidth : ℕ := 2048

def maxSupportedVideoContentHeight : ℕ := 1536

def maxResizeSteps : ℕ := 128

def inputWindowScaleFactor : ℤ := 16

/-- A picture of a size that is supported, with a positive pixel aspect ratio. -/
structure VideoDisplayParameters.Supported (v : VideoDisplayParameters) : Prop where
  width_pos : 0 < v.width
  width_le : v.width ≤ maxSupportedVideoContentWidth
  height_pos : 0 < v.height
  height_le : v.height ≤ maxSupportedVideoContentHeight
  positive : v.pixelAspectRatio.negative = false ∧ v.pixelAspectRatio.numerator ≠ 0
  rational : v.pixelAspectRatio.denominator ≠ 0 ∧ v.frameRate.denominator ≠ 0

/-- The values of `PolicyDisplayAspectRatio`. -/
inductive DisplayAspectRatio
  | fourByThree
  | sixteenByNine
deriving DecidableEq, Repr

/-- The values of `PolicyDisplayFormat`. -/
inductive DisplayFormat
  | centreCutOut
  | letterBox
  | panScan
  | fullScreen
  | zoom43
deriving DecidableEq, Repr

/-- The policies that are asked for. -/
structure Policies where
  displayAspectRatio : DisplayAspectRatio
  displayFormat : DisplayFormat
  pixelAspectRatioCorrection : ℕ
deriving DecidableEq, Repr

/-- What the plane and the display mode allow; there may be no mode. -/
structure Plane where
  activeArea : Option (ℕ × ℕ)
  resize : Bool
  minWidth : ℕ
  maxWidth : ℕ
  minHeight : ℕ
  maxHeight : ℕ

/-- `ManifestorStatus_t`. -/
inductive Status
  | noError
  | error
  | unplayable
deriving DecidableEq, Repr

/-- The manifestor. `policies` are those that were seen last. -/
structure State where
  surfaceWindow : Window
  oldSurfaceWindow : Window
  inputCrop : Window
  inputWindow : Window
  outputWindow : Window
  step : ℕ
  steps : ℕ
  stepping : Bool
  policies : Option Policies
  streamDisplayParameters : VideoDisplayParameters

/-! ### Clipping -/

/-- One direction of a window is clipped: where it begins after the end it begins at `reset`. -/
def clip (limit reset position extent : ℕ) : ℕ × ℕ :=
  let position := if position > limit then reset else position
  (position, if unsigned (position + extent) > limit then limit - position else extent)

/-- `InputCrop`, clipped to the picture.  Below the picture it begins at its end. -/
def clipCrop (crop : Window) (v : VideoDisplayParameters) : Window :=
  if crop.width ≠ 0 ∧ crop.height ≠ 0 then
    let (x, width) := clip v.width 0 crop.x crop.width
    let (y, height) := clip v.height v.height crop.y crop.height
    ⟨x, y, width, height⟩
  else crop

/-- The part of the picture that is of interest. -/
def source (crop : Window) (v : VideoDisplayParameters) : Area :=
  if crop.width ≠ 0 ∧ crop.height ≠ 0 then (clipCrop crop v).area
  else ⟨0, 0, signed v.width, signed v.height⟩

/-! ### Aspect ratios -/

/-- `IntegerPart`, which divides by the denominator. -/
def integerPart? (r : Rational) : Option ℤ :=
  if r.denominator = 0 then none else some r.integerPart.toInt

/-- An aspect ratio in thousandths. -/
def thousandths? (r : Rational) : Option ℤ := integerPart? (r.mulInt 1000)

/-- A division of `int`s. -/
def divide? (n d : ℤ) : Option ℤ := if d = 0 then none else some (signed (n.tdiv d))

/-- A dimension times one aspect ratio by another, in thousandths. -/
def scale? (dimension : ℤ) (ratio divisor : Rational) : Option ℤ := do
  let p ← thousandths? divisor
  let w ← thousandths? ratio
  divide? (signed (dimension * w)) p

/-- A dimension times one aspect ratio by another. -/
def rescale? (dimension : ℤ) (ratio divisor : Rational) : Option ℤ :=
  integerPart? ((ratio.mulInt (Int32.ofInt dimension)).div divisor)

/-- `PictureAspectRatio`, before it is assigned. -/
def pictureQuotient (source : Area) (v : VideoDisplayParameters) : Rational :=
  (Rational.ofIntegers source.width source.height).mul v.pixelAspectRatio

def pictureAspectRatio (source : Area) (v : VideoDisplayParameters) : Rational :=
  (pictureQuotient source v).restrict

/-- The shape of the television. -/
def DisplayAspectRatio.shape : DisplayAspectRatio → Rational
  | .fourByThree => (Rational.ofIntegers 4 3).restrict
  | .sixteenByNine => (Rational.ofIntegers 16 9).restrict

/-- The window is the whole surface. -/
def FullScreen (d : SurfaceDescriptor) (dest : Area) : Prop :=
  dest.width = d.displayWidth ∧ dest.height = d.displayHeight

instance (d : SurfaceDescriptor) (dest : Area) : Decidable (FullScreen d dest) :=
  inferInstanceAs (Decidable (_ ∧ _))

/-- `WindowAspectRatio`: that of the television, unless the window is not the whole of it. -/
def windowAspectRatio (d : SurfaceDescriptor) (aspect : DisplayAspectRatio) (dest : Area) : Rational :=
  if FullScreen d dest then aspect.shape
  else
    let displayPixelAspectRatio := (Rational.ofIntegers d.displayWidth d.displayHeight).div aspect.shape
    let wide := displayPixelAspectRatio.mulInt (Int32.ofInt dest.width)
    (wide.divInt (Int32.ofInt dest.height)).restrict

/-! ### Policies -/

/-- Half of what is left on one side; the `>> 1` of an `int` rounds down. -/
def half (z : ℤ) : ℤ := z / 2

/-- Letter box: the picture gets smaller, and is centred in the surface window. -/
def letterBox? (surface : Window) (dest : Area) (picture window : Rational) : Option Area :=
  if picture.gt window then
    -- picture is wider than display surface so must shrink height
    (scale? dest.height window picture).map fun height =>
      { dest with height, y := signed (dest.y + half (unsigned (surface.height - height))) }
  else
    -- picture is taller than display surface so must shrink width
    (scale? dest.width picture window).map fun width =>
      { dest with width, x := signed (dest.x + half (unsigned (surface.width - width))) }

/-- Centre cut out and pan scan: what does not fit is cut off. -/
def cutOut? (source : Area) (picture window : Rational) : Option Area :=
  if picture.gt window then
    -- picture is wider than display surface so must chop off edges
    (scale? source.width window picture).map fun width =>
      { source with width, x := signed (source.x + half (signed (source.width - width))) }
  else
    -- picture is taller than display surface so must chop off top and bottom
    (scale? source.height picture window).map fun height =>
      { source with height, y := signed (source.y + half (signed (source.height - height))) }

/-- Zoom: a picture that is too wide is cut in both directions. -/
def zoom? (source : Area) (picture window : Rational) : Option Area :=
  if picture.gt window then do
    let width ← rescale? source.width window picture
    let height ← rescale? source.height window picture
    some { x := signed (source.x + half (signed (source.width - width)))
           y := signed (source.y + half (signed (source.height - height)))
           width, height }
  else some source

/-- What the display format makes of the source and the destination. -/
def fit? (format : DisplayFormat) (surface : Window) (source dest : Area) (picture window : Rational) :
    Option (Area × Area) :=
  if picture.ne window then
    match format with
    | .letterBox => (letterBox? surface dest picture window).map (source, ·)
    | .centreCutOut => (cutOut? source picture window).map (·, dest)
    | .panScan => (cutOut? source picture window).map (·, dest)
    | .zoom43 => (zoom? source picture window).map (·, dest)
    | .fullScreen => some (source, dest)
  else some (source, dest)

/-- One direction of a source that begins before the picture is cut, and its destination shrinks. -/
def trim? (sourceX sourceWidth destX destWidth : ℤ) : Option ((ℤ × ℤ) × (ℤ × ℤ)) :=
  if sourceX < 0 then do
    let shift := signed (-sourceX)
    let cut ← divide? (signed (shift * destWidth)) sourceWidth
    let width := signed (destWidth - cut)
    some ((0, signed (sourceWidth - signed (shift + shift))),
      (signed (destX + (signed (destWidth - width)).tdiv 2), width))
  else some ((sourceX, sourceWidth), (destX, destWidth))

/-! ### The windows -/

namespace Plane

def checkInputDimensions (plane : Plane) (width height : ℕ) : Status :=
  if width < plane.minWidth ∨ plane.maxWidth < width ∨ height < plane.minHeight ∨
      plane.maxHeight < height then .error
  else .noError

def updateDisplayWindows (plane : Plane) (input output : Window) : Status :=
  match plane.activeArea with
  | none => .error
  | some (width, height) =>
    if unsigned (output.x + output.width) > width ∨ unsigned (output.y + output.height) > height then
      .unplayable
    else if ¬ plane.resize ∧ (output.width ≠ input.width ∨ output.height ≠ input.height) then .unplayable
    else if plane.checkInputDimensions input.width input.height = .error then .unplayable
    else .noError

end Plane

namespace State

/-- `SetOutputWindow`; `resizeSteps` is the value of `PolicyVideoOutputWindowResizeSteps`. -/
def setOutputWindow (d : SurfaceDescriptor) (s : State) (x y width height resizeSteps : UInt32) : State :=
  let window : Window :=
    if x = 0 ∧ y = 0 ∧ width = 0 ∧ height = 0 then ⟨0, 0, d.displayWidth, d.displayHeight⟩
    else
      let (x, width) := clip d.displayWidth 0 x.toNat width.toNat
      let (y, height) := clip d.displayHeight 0 y.toNat height.toNat
      ⟨x, y, width, height⟩
  let steps := min resizeSteps.toNat maxResizeSteps
  { s with
    surfaceWindow := window
    step := 0
    steps := steps
    stepping := steps > 1
    streamDisplayParameters := .cleared }

def setInputWindow (plane : Plane) (s : State) (x y width height : UInt32) : State × Status :=
  match plane.checkInputDimensions width.toNat height.toNat with
  | .noError =>
    ({ s with
        inputCrop := ⟨x.toNat, y.toNat, width.toNat, height.toNat⟩
        streamDisplayParameters := .cleared }, .noError)
  | status => (s, status)

/-- Nothing has changed that the windows depend on. -/
def Unchanged (s : State) (policies : Policies) (v : VideoDisplayParameters) : Prop :=
  s.stepping = false ∧ s.policies = some policies ∧
    { s.streamDisplayParameters with frameRate := v.frameRate.restrict } = v

instance (s : State) (policies : Policies) (v : VideoDisplayParameters) :
    Decidable (s.Unchanged policies v) :=
  inferInstanceAs (Decidable (_ ∧ _))

/-- A coordinate of the output window while it is resized. -/
def interpolate (s : State) (old new : ℕ) : ℕ :=
  unsigned (old * unsigned (s.steps - s.step) + new * s.step) / s.steps

/-- The output window to begin with, without a resize. -/
def settle (s : State) : State × Area :=
  ({ s with stepping := false, oldSurfaceWindow := s.surfaceWindow }, s.surfaceWindow.area)

/-- The output window to begin with, in a step of a resize. -/
def resize (s : State) : Area :=
  -- the width is forced to an even number of pixels
  let width := s.interpolate s.oldSurfaceWindow.width s.surfaceWindow.width
  Window.area ⟨s.interpolate s.oldSurfaceWindow.x s.surfaceWindow.x,
    s.interpolate s.oldSurfaceWindow.y s.surfaceWindow.y, unsigned (width + 1) / 2 * 2,
    s.interpolate s.oldSurfaceWindow.height s.surfaceWindow.height⟩

/-- The output window to begin with; `++Step == Steps` ends a resize. -/
def advance (s : State) : State × Area :=
  if s.stepping then
    let t := { s with step := s.step + 1 }
    if t.step = t.steps then t.settle else (t, t.resize)
  else s.settle

section
variable (d : SurfaceDescriptor) (plane : Plane)

/-- The last part of `SetDisplayWindows`. -/
def place (s : State) (source dest : Area) : Option (State × Status) := do
  let ((sourceX, sourceWidth), (destX, destWidth)) ← trim? source.x source.width dest.x dest.width
  let ((sourceY, sourceHeight), (destY, destHeight)) ← trim? source.y source.height dest.y dest.height
  let output := Area.window ⟨destX, destY, destWidth, destHeight⟩
  let input := Area.window ⟨signed (sourceX * inputWindowScaleFactor),
    signed (sourceY * inputWindowScaleFactor), sourceWidth, sourceHeight⟩
  some ({ s with outputWindow := output, inputWindow := input }, plane.updateDisplayWindows input output)

/-- What `SetDisplayWindows` does once it has the source and the destination to begin with. -/
def configure (t : State) (policies : Policies) (v : VideoDisplayParameters) (source dest : Area) :
    Option (State × Status) :=
  let picture := pictureAspectRatio source v
  let window := windowAspectRatio d policies.displayAspectRatio dest
  -- a resize divides by the number of steps, and the report of the picture by the denominators
  if (pictureQuotient source v).denominator = 0 ∨ t.stepping = true ∧ t.steps = 0 then none
  else if t.stepping = false ∧ (v.frameRate.denominator = 0 ∨ v.pixelAspectRatio.denominator = 0) then none
  else if source.width > maxSupportedVideoContentWidth ∨ source.height > maxSupportedVideoContentHeight then
    some ({ t with streamDisplayParameters :=
      { t.streamDisplayParameters with frameRate := v.frameRate.restrict } }, .unplayable)
  else if ¬ FullScreen d dest ∧ dest.height = 0 then none
  else do
    let (source, dest) ← fit? policies.displayFormat t.surfaceWindow source dest picture window
    { t with streamDisplayParameters := v }.place plane source dest

def setDisplayWindows (s : State) (policies : Policies) (v : VideoDisplayParameters) :
    Option (State × Status) :=
  if s.Unchanged policies v then
    some ({ s with streamDisplayParameters := v }, .noError)
  else
    let (t, dest) := { s with policies := some policies, inputCrop := clipCrop s.inputCrop v }.advance
    t.configure d plane policies v (source s.inputCrop v) dest

end

end State

/-! ### Steps -/

/-- The calls. -/
inductive Label
  | setOutputWindow (x y width height resizeSteps : UInt32)
  | setInputWindow (x y width height : UInt32)
  | setDisplayWindows (policies : Policies) (v : VideoDisplayParameters)

instance (v : VideoDisplayParameters) : Decidable v.Supported :=
  decidable_of_iff ((0 < v.width ∧ v.width ≤ maxSupportedVideoContentWidth ∧ 0 < v.height ∧
      v.height ≤ maxSupportedVideoContentHeight) ∧
    (v.pixelAspectRatio.negative = false ∧ v.pixelAspectRatio.numerator ≠ 0) ∧
    v.pixelAspectRatio.denominator ≠ 0 ∧ v.frameRate.denominator ≠ 0)
    ⟨fun ⟨⟨a, b, c, d⟩, e, f⟩ => ⟨a, b, c, d, e, f⟩, fun ⟨a, b, c, d, e, f⟩ => ⟨⟨a, b, c, d⟩, e, f⟩⟩

namespace State

section
variable (d : SurfaceDescriptor) (plane : Plane)

/-- One call. -/
def call (s : State) : Label → Option State
  | .setOutputWindow x y width height resizeSteps => some (s.setOutputWindow d x y width height resizeSteps)
  | .setInputWindow x y width height => some (s.setInputWindow plane x y width height).1
  | .setDisplayWindows policies v =>
    if v.Supported then (s.setDisplayWindows d plane policies v).map (·.1) else none

/-- After `Reset` and `GetDecodeBufferPool`. -/
def start : State where
  surfaceWindow := ⟨0, 0, d.displayWidth, d.displayHeight⟩
  oldSurfaceWindow := ⟨0, 0, d.displayWidth, d.displayHeight⟩
  inputCrop := ⟨0, 0, 0, 0⟩
  inputWindow := ⟨0, 0, d.displayWidth, d.displayHeight⟩
  outputWindow := ⟨0, 0, d.displayWidth, d.displayHeight⟩
  step := 0
  steps := 1
  stepping := false
  policies := none
  streamDisplayParameters := .cleared

end

end State

/-! ### What is meant -/

/-- A window is inside a rectangle of the given size. -/
def Window.Inside (w : Window) (width height : ℕ) : Prop := w.x + w.width ≤ width ∧ w.y + w.height ≤ height

/-- What is left on one side of an extent differs from what is left on the other by at most one. -/
def Centred (position extent position' extent' : ℕ) : Prop :=
  |((position' : ℤ) - position) - ((position + extent) - (position' + extent'))| ≤ 1

/-- The window spans the surface window in one direction and is centred in the other. -/
def Spans (surface output : Window) : Prop :=
  output.x = surface.x ∧ output.width = surface.width ∧
      Centred surface.y surface.height output.y output.height ∨
    output.y = surface.y ∧ output.height = surface.height ∧
      Centred surface.x surface.width output.x output.width

/-- The input window, which begins at sixteenths, is inside the picture, and the output window inside the
surface window, which it spans in one direction. -/
structure Placed (surface : Window) (v : VideoDisplayParameters) (output input : Window) : Prop where
  input : Window.Inside ⟨input.x, input.y, 16 * input.width, 16 * input.height⟩ (16 * v.width)
    (16 * v.height)
  begins : surface.x ≤ output.x ∧ surface.y ≤ output.y
  ends : output.Inside (surface.x + surface.width) (surface.y + surface.height)
  spans : Spans surface output

/-- The call divides by nothing, leaves the surface window inside the display, and places the windows unless
there is an error, or a resize that goes on. -/
def Right (d : SurfaceDescriptor) (plane : Plane) (s : State) : Label → Prop
  | .setDisplayWindows policies v => v.Supported → ∃ t status,
      s.setDisplayWindows d plane policies v = some (t, status) ∧
        t.surfaceWindow.Inside d.displayWidth d.displayHeight ∧
        (status = .noError → t.stepping = false → Placed t.surfaceWindow v t.outputWindow t.inputWindow)
  | label => ∀ t, s.call d plane label = some t → t.surfaceWindow.Inside d.displayWidth d.displayHeight

/-! ### What keeps the arithmetic in range -/

/-- A dimension can be multiplied by one aspect ratio and divided by another in thousandths. -/
structure Scalable (dimension : ℤ) (ratio divisor : Rational) : Prop where
  ratio_ne : ratio.denominator ≠ 0
  divisor_ne : divisor.denominator ≠ 0
  one_le : 1 ≤ 1000 * divisor.value
  lt : 1000 * divisor.value < 2 ^ 31
  fits : dimension * ⌊1000 * ratio.value⌋ < 2 ^ 31

instance (dimension : ℤ) (ratio divisor : Rational) : Decidable (Scalable dimension ratio divisor) :=
  decidable_of_iff (ratio.denominator ≠ 0 ∧ divisor.denominator ≠ 0 ∧ 1 ≤ 1000 * divisor.value ∧
      1000 * divisor.value < 2 ^ 31 ∧ dimension * ⌊1000 * ratio.value⌋ < 2 ^ 31)
    ⟨fun ⟨a, b, c, d, e⟩ => ⟨a, b, c, d, e⟩, fun ⟨a, b, c, d, e⟩ => ⟨a, b, c, d, e⟩⟩

/-- A dimension can be multiplied by one aspect ratio and divided by another. -/
structure Rescalable (dimension : ℤ) (ratio divisor : Rational) : Prop where
  divisor_ne : divisor.denominator ≠ 0
  numerator : dimension * ratio.numerator.toNat * divisor.denominator.toNat < 2 ^ 64
  denominator : ratio.denominator.toNat * divisor.numerator.toNat < 2 ^ 64

instance (dimension : ℤ) (ratio divisor : Rational) : Decidable (Rescalable dimension ratio divisor) :=
  decidable_of_iff (divisor.denominator ≠ 0 ∧
      dimension * ratio.numerator.toNat * divisor.denominator.toNat < 2 ^ 64 ∧
      ratio.denominator.toNat * divisor.numerator.toNat < 2 ^ 64)
    ⟨fun ⟨a, b, c⟩ => ⟨a, b, c⟩, fun ⟨a, b, c⟩ => ⟨a, b, c⟩⟩

/-- What the display format divides by is neither too small nor too large. -/
def Fits (format : DisplayFormat) (source dest : Area) (picture window : Rational) : Prop :=
  picture.ne window = true →
    match format with
    | .letterBox =>
      if picture.gt window then Scalable dest.height window picture
      else Scalable dest.width picture window
    | .centreCutOut | .panScan =>
      if picture.gt window then Scalable source.width window picture
      else Scalable source.height picture window
    | .zoom43 =>
      picture.gt window = true →
        Rescalable source.width window picture ∧ Rescalable source.height window picture
    | .fullScreen => True

instance (format : DisplayFormat) (source dest : Area) (picture window : Rational) :
    Decidable (Fits format source dest picture window) :=
  match format with
  | .letterBox | .centreCutOut | .panScan => inferInstanceAs (Decidable (_ → ite _ _ _))
  | .zoom43 => inferInstanceAs (Decidable (_ → _ → _ ∧ _))
  | .fullScreen => inferInstanceAs (Decidable (_ → True))

/-- The ends of the crop do not wrap, neither the source nor the destination is without height, and the
display format can do its divisions. -/
structure Feasible (d : SurfaceDescriptor) (s : State) (policies : Policies) (v : VideoDisplayParameters) :
    Prop where
  crop : s.inputCrop.width ≠ 0 → s.inputCrop.height ≠ 0 →
    (clip v.width 0 s.inputCrop.x s.inputCrop.width).1 + s.inputCrop.width < 2 ^ 32 ∧
      (clip v.height v.height s.inputCrop.y s.inputCrop.height).1 + s.inputCrop.height < 2 ^ 32
  picture : (pictureQuotient (source s.inputCrop v) v).denominator ≠ 0
  window : s.advance.2.height ≠ 0
  fits : Fits policies.displayFormat (source s.inputCrop v) s.advance.2
    (pictureAspectRatio (source s.inputCrop v) v)
    (windowAspectRatio d policies.displayAspectRatio s.advance.2)

instance (d : SurfaceDescriptor) (s : State) (policies : Policies) (v : VideoDisplayParameters) :
    Decidable (Feasible d s policies v) :=
  decidable_of_iff ((s.inputCrop.width ≠ 0 → s.inputCrop.height ≠ 0 →
      (clip v.width 0 s.inputCrop.x s.inputCrop.width).1 + s.inputCrop.width < 2 ^ 32 ∧
        (clip v.height v.height s.inputCrop.y s.inputCrop.height).1 + s.inputCrop.height < 2 ^ 32) ∧
      (pictureQuotient (source s.inputCrop v) v).denominator ≠ 0 ∧ s.advance.2.height ≠ 0 ∧
      Fits policies.displayFormat (source s.inputCrop v) s.advance.2
        (pictureAspectRatio (source s.inputCrop v) v)
        (windowAspectRatio d policies.displayAspectRatio s.advance.2))
    ⟨fun ⟨a, b, c, e⟩ => ⟨a, b, c, e⟩, fun ⟨a, b, c, e⟩ => ⟨a, b, c, e⟩⟩

/-- The ends of a window do not wrap, and what is computed for a picture is feasible. -/
def InRange (d : SurfaceDescriptor) (s : State) : Label → Prop
  | .setOutputWindow x y width height _ =>
    (clip d.displayWidth 0 x.toNat width.toNat).1 + width.toNat < 2 ^ 32 ∧
      (clip d.displayHeight 0 y.toNat height.toNat).1 + height.toNat < 2 ^ 32
  | .setInputWindow _ _ _ _ => True
  | .setDisplayWindows policies v => s.Unchanged policies v ∨ Feasible d s policies v

instance (d : SurfaceDescriptor) (s : State) (label : Label) : Decidable (InRange d s label) :=
  match label with
  | .setOutputWindow _ _ _ _ _ => inferInstanceAs (Decidable (_ ∧ _))
  | .setInputWindow _ _ _ _ => inferInstanceAs (Decidable True)
  | .setDisplayWindows policies v =>
    inferInstanceAs (Decidable (s.Unchanged policies v ∨ Feasible d s policies v))

end Player2.DisplayWindows

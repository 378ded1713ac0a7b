import Mathlib.Data.Int.Notation
import Mathlib.Data.Nat.Notation

/-! # Rationals on 64-bit words

`Rational_c`: a sign, a numerator and a denominator.  The arithmetic is that of unsigned words, without a
check for overflow.  An assignment brings numerator and denominator down to 32 bits (`restrict`).

An operator with an integer on one side takes an `int`: a 64-bit time that is multiplied or divided by a
rational is truncated to 32 bits first (`intOf`). -/

namespace Player2

/-- `Rational_c`. -/
structure Rational where
  negative : Bool
  numerator : UInt64
  denominator : UInt64
deriving DecidableEq, Repr

namespace Rational

/-! ### Conversions -/

/-- The conversion of an `unsigned long long` to `int`. -/
def intOf (t : UInt64) : Int32 := t.toUInt32.toInt32

/-- The conversion of an `int` to `unsigned long long`. -/
def wordOf (v : Int32) : UInt64 := v.toInt64.toUInt64

/-- `Abs(V)` of an `int`, as an `unsigned long long`. -/
def absolute (v : Int32) : UInt64 := wordOf (if v < 0 then -v else v)

/-! ### Constructors -/

/-- `Rational_c(long long N)`, for an `int`. -/
def ofInt (v : Int32) : Rational where
  negative := v < 0
  numerator := if v < 0 then -wordOf v else wordOf v
  denominator := 1

/-- `Rational_c(long long N, long long D)`. -/
def ofIntegers (n d : ℤ) : Rational where
  negative := (n < 0 : Bool) ^^ (d < 0 : Bool)
  numerator := UInt64.ofNat n.natAbs
  denominator := UInt64.ofNat d.natAbs

/-- The constructor that divides by a factor when it divides both. -/
def ofFactor (numerator denominator factor : UInt64) (negative : Bool) : Rational :=
  if factor ≠ 0 ∧ factor * (numerator / factor) = numerator ∧
      factor * (denominator / factor) = denominator then
    ⟨negative, numerator / factor, denominator / factor⟩
  else ⟨negative, numerator, denominator⟩

/-! ### `Restrict` -/

/-- How far a word is to be shifted, less one. -/
def shiftOf (tmp : UInt64) : UInt64 :=
  let shift : UInt64 := if tmp &&& 0xffff0000 ≠ 0 then 16 else 0
  let shift := shift + if (tmp >>> shift) &&& 0x0000ff00 ≠ 0 then 8 else 0
  let shift := shift + if (tmp >>> shift) &&& 0x000000f0 ≠ 0 then 4 else 0
  let shift := shift + if (tmp >>> shift) &&& 0x0000000c ≠ 0 then 2 else 0
  shift + if (tmp >>> shift) &&& 0x00000002 ≠ 0 then 1 else 0

/-- Scale both, where that does not overflow, so that the shift does not hurt a small denominator. -/
def scaled (r : Rational) (shift : UInt64) : Rational :=
  let spareBitsForArithmetic := 31 - shift
  if r.denominator < 1 <<< spareBitsForArithmetic then
    let newDenominator := r.denominator &&& ((0xffffffff <<< (shift + 1)) &&& 0xffffffff)
    { r with
      numerator := (r.numerator * newDenominator) / r.denominator
      denominator := newDenominator }
  else r

/-- Shift both, rounding; `1 << Shift` is an `int`. -/
def shifted (r : Rational) (shift : UInt64) : Rational :=
  let half := wordOf (intOf (1 <<< shift))
  { r with
    numerator := (r.numerator + half) >>> (shift + 1)
    denominator := (r.denominator + half) >>> (shift + 1) }

/-- The loop that divides both by ten.  A word can be divided by ten at most 19 times. -/
def reduceByTen : ℕ → Rational → Rational
  | 0, r => r
  | n + 1, r =>
    if 10 * (r.numerator / 10) = r.numerator ∧ 10 * (r.denominator / 10) = r.denominator then
      reduceByTen n { r with numerator := r.numerator / 10, denominator := r.denominator / 10 }
    else r

/-- Divide both by a common factor, in three frequent cases. -/
def reduced (r : Rational) : Rational :=
  if r.denominator ≠ 1 ∧ r.numerator ≠ 1 ∧ r.denominator ≠ 0 then
    if r.denominator * (r.numerator / r.denominator) = r.numerator then
      { r with numerator := r.numerator / r.denominator, denominator := 1 }
    else if r.numerator * (r.denominator / r.numerator) = r.denominator then
      { r with denominator := r.denominator / r.numerator, numerator := r.numerator / r.numerator }
    else reduceByTen 20 r
  else r

def restrict (r : Rational) : Rational :=
  let tmp := (r.numerator ||| r.denominator) >>> 32
  if tmp ≠ 0 then
    let shift := shiftOf tmp
    ((r.scaled shift).shifted shift).reduced
  else r.reduced

/-! ### Operators -/

/-- `operator==`. -/
def equals (r f : Rational) : Bool :=
  r.negative == f.negative && r.numerator * f.denominator == f.numerator * r.denominator

/-- `operator==`, with an `int`. -/
def equalsInt (r : Rational) (v : Int32) : Bool :=
  r.negative == (v < 0 : Bool) && r.numerator == absolute v * r.denominator

/-- `operator!=`. -/
def ne (r f : Rational) : Bool :=
  r.negative != f.negative || r.numerator * f.denominator != f.numerator * r.denominator

/-- `operator>=`. -/
def ge (r f : Rational) : Bool :=
  if r.negative then
    if f.negative then r.numerator * f.denominator ≤ f.numerator * r.denominator
    else r.numerator = 0 ∧ f.numerator = 0
  else f.negative || r.numerator * f.denominator ≥ f.numerator * r.denominator

/-- `operator>`. -/
def gt (r f : Rational) : Bool :=
  if r.negative then
    f.negative && decide (r.numerator * f.denominator < f.numerator * r.denominator)
  else if f.negative then r.numerator = 0 ∧ f.numerator = 0
  else r.numerator * f.denominator > f.numerator * r.denominator

/-- `operator<=`. -/
def le (r f : Rational) : Bool := !r.gt f

/-- `operator<`. -/
def lt (r f : Rational) : Bool := !r.ge f

/-- `inrange`, with integers for the bounds. -/
def inrange (r : Rational) (lower upper : Int32) : Bool := r.ge (ofInt lower) && r.le (ofInt upper)

/-- `operator+`. -/
def add (r f : Rational) : Rational :=
  let a := r.numerator * f.denominator
  let b := f.numerator * r.denominator
  if r.negative ^^ f.negative then
    if a > b then ofFactor (a - b) (r.denominator * f.denominator) r.denominator r.negative
    else ofFactor (b - a) (r.denominator * f.denominator) r.denominator !r.negative
  else ofFactor (a + b) (r.denominator * f.denominator) r.denominator r.negative

/-- `operator+`, with an `int` on either side. -/
def addInt (r : Rational) (v : Int32) : Rational :=
  let d := absolute v * r.denominator
  if (v < 0 : Bool) == r.negative then { r with numerator := r.numerator + d }
  else if d ≤ r.numerator then { r with numerator := r.numerator - d }
  else { r with numerator := d - r.numerator, negative := !r.negative }

/-- `operator-`. -/
def sub (r f : Rational) : Rational :=
  let a := r.numerator * f.denominator
  let b := f.numerator * r.denominator
  if r.negative ^^ f.negative then ofFactor (a + b) (r.denominator * f.denominator) r.denominator r.negative
  else if a > b then ofFactor (a - b) (r.denominator * f.denominator) r.denominator r.negative
  else ofFactor (b - a) (r.denominator * f.denominator) r.denominator !r.negative

/-- `operator-`, with an `int` on the left. -/
def intSub (v : Int32) (f : Rational) : Rational := (ofInt v).sub f

/-- `operator-`, with an `int`. -/
def subInt (r : Rational) (v : Int32) : Rational :=
  let d := absolute v * r.denominator
  if (v < 0 : Bool) != r.negative then { r with numerator := r.numerator + d }
  else if d ≤ r.numerator then { r with numerator := r.numerator - d }
  else { r with numerator := d - r.numerator, negative := !r.negative }

/-- `operator*`. -/
def mul (r f : Rational) : Rational :=
  ofFactor (r.numerator * f.numerator) (r.denominator * f.denominator) (min r.denominator f.denominator)
    (r.negative ^^ f.negative)

/-- `operator*`, with an `int` on either side. -/
def mulInt (r : Rational) (v : Int32) : Rational :=
  ofFactor (r.numerator * absolute v) r.denominator (min r.denominator (absolute v))
    ((v < 0 : Bool) ^^ r.negative)

/-- `operator/`. -/
def div (r f : Rational) : Rational :=
  let factor :=
    if r.numerator = f.numerator then r.numerator
    else if r.denominator = f.denominator then r.denominator
    else 10
  ofFactor (r.numerator * f.denominator) (r.denominator * f.numerator) factor
    (r.negative ^^ f.negative)

/-- `operator/`, with an `int` on the right. -/
def divInt (r : Rational) (v : Int32) : Rational :=
  ofFactor r.numerator (r.denominator * absolute v) (absolute v) ((v < 0 : Bool) ^^ r.negative)

/-- `operator/`, with an `int` on the left. -/
def intDiv (v : Int32) (f : Rational) : Rational := (ofInt v).div f

/-! ### Extraction -/

def longLongIntegerPart (r : Rational) : UInt64 :=
  if r.denominator = 0 then -1
  else if r.negative then -(r.numerator / r.denominator) else r.numerator / r.denominator

def integerPart (r : Rational) : Int32 :=
  intOf (if r.negative then -(r.numerator / r.denominator) else r.numerator / r.denominator)

def remainder (r : Rational) : Rational :=
  ofFactor (r.numerator - r.denominator * (r.numerator / r.denominator)) r.denominator 3 r.negative

def remainderDecimal (r : Rational) (places : UInt32) : Int32 :=
  let tmp := r.remainder
  let scale : UInt64 := if places = 3 then 1000 else if places = 6 then 1000000 else 1000000000
  intOf (tmp.numerator * scale / tmp.denominator)

def roundedLongLongIntegerPart (r : Rational) : UInt64 :=
  let part := (r.numerator + r.denominator / 2) / r.denominator
  if r.negative then -part else part

def roundedIntegerPart (r : Rational) : Int32 :=
  let part := intOf ((r.numerator + r.denominator / 2) / r.denominator)
  if r.negative then -part else part

def roundedUpLongLongIntegerPart (r : Rational) : UInt64 :=
  let part := (r.numerator + (r.denominator - 1)) / r.denominator
  if r.negative then -part else part

def roundedUpIntegerPart (r : Rational) : Int32 :=
  let part := intOf ((r.numerator + (r.denominator - 1)) / r.denominator)
  if r.negative then -part else part

end Rational

end Player2

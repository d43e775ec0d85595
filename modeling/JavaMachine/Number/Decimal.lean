import JavaMachine.Number.Binary32

/-!
# Decimal texts of floating-point numbers

A decimal is its digits and the power of ten of the first of them. `shortest` finds, for a finite
number, the fewest digits that read back as that number and among those the nearest; `layout`
writes a decimal in a style. There are two styles: the one guest programs see and the one
diagnostics use.
-/
namespace JavaMachine

/-- The number `± d.ddd · 10 ^ exponent`. -/
structure Decimal where
  negative : Bool
  digits : List Nat
  exponent : Int
  deriving DecidableEq, Inhabited

namespace Decimal

def digitsOf (n : Nat) : List Nat := (Nat.toDigits 10 n).map fun c => c.toNat - '0'.toNat

/-- The number of decimal digits, none for zero. -/
def length (n : Nat) : Nat := if n = 0 then 0 else (Nat.toDigits 10 n).length

/-- The power of ten of the leading digit of the positive fraction `num / den`. -/
def leadingExponent (num den : Nat) : Int :=
  if den ≤ num then (length (num / den) : Int) - 1
  else -(length ((den + num - 1) / num - 1) : Int)

/-- The fraction divided by a power of ten. -/
def scale (num den : Nat) (power : Int) : Nat × Nat :=
  if 0 ≤ power then (num, den * Nat.pow 10 power.toNat) else (num * Nat.pow 10 (-power).toNat, den)

/-- The numbers that read back as `significand · 2 ^ exponent`, all in units of a quarter of the
last place: from `low` to `high`, with the ends when `closed`. -/
structure Interval where
  low : Nat
  middle : Nat
  high : Nat
  closed : Bool

/-- The lower gap of a power of two is half as wide, save for the smallest normal number. -/
def Interval.around (f : FloatFormat) (significand : Nat) (exponent : Int) : Interval :=
  let narrow := significand = Nat.pow 2 f.fractionBits && f.minExponent < exponent
  { low := 4 * significand - (if narrow then 1 else 2)
    middle := 4 * significand
    high := 4 * significand + 2
    closed := significand % 2 == 0 }

/-- The point of the grid of the given power of ten that lies in the interval and is nearest to
its middle; a tie goes up. The interval is in units of `num / den`. -/
def Interval.onGrid? (i : Interval) (num den : Nat) (power : Int) : Option Nat :=
  let (a, b) := scale num den power
  let down := i.middle * a / b
  let up := down + 1
  let downFits := if i.closed then decide (i.low * a ≤ down * b) else decide (i.low * a < down * b)
  let upFits := if i.closed then decide (up * b ≤ i.high * a) else decide (up * b < i.high * a)
  if downFits && upFits then
    if i.middle * a - down * b < up * b - i.middle * a then some down else some up
  else if downFits then some down
  else if upFits then some up
  else none

/-- Seventeen digits tell any two double-precision numbers apart. -/
def maxDigits : Nat := 17

/-- The shortest digits of `significand · 2 ^ exponent`, which is not zero. -/
def shortest (f : FloatFormat) (negative : Bool) (significand : Nat) (exponent : Int) : Decimal :=
  let quarter := exponent - 2
  let num := if 0 ≤ quarter then Nat.pow 2 quarter.toNat else 1
  let den := if 0 ≤ quarter then 1 else Nat.pow 2 (-quarter).toNat
  let interval := Interval.around f significand exponent
  let leading := leadingExponent (interval.middle * num) den
  let found := (List.range maxDigits).findSome? fun (n : Nat) =>
    (interval.onGrid? num den (leading - (n : Int))).map fun point => (point, n)
  let (point, n) := found.getD (0, 0)
  let digits := digitsOf point
  -- a point that rounds up to the next power of ten has one digit more than the grid
  let carry : Int := (digits.length : Int) - (n + 1)
  if 0 < carry then ⟨negative, digits.take (n + 1), leading + carry⟩
  else ⟨negative, digits, leading⟩

end Decimal

/-- How decimals are laid out. Exponents in `[leastPlain, leastScientific)` are written without
an exponent part, always with a digit after the point. -/
structure DecimalStyle where
  leastPlain : Int
  leastScientific : Int
  exponentMark : Char
  /-- What follows a single leading digit in scientific notation. -/
  loneDigitTail : List Char
  nan : String
  infinity : String

namespace DecimalStyle

/-- What guest programs print: plain from a thousandth up to ten million. -/
def guest : DecimalStyle :=
  { leastPlain := -3, leastScientific := 7, exponentMark := 'E', loneDigitTail := ['.', '0'],
    nan := "NaN", infinity := "Infinity" }

/-- What diagnostics print: plain from a ten-thousandth up to ten quadrillions. -/
def diagnostic : DecimalStyle :=
  { leastPlain := -4, leastScientific := 16, exponentMark := 'e', loneDigitTail := [],
    nan := "NaN", infinity := "inf" }

def digitChars (digits : List Nat) : List Char := digits.map Nat.digitChar

/-- The digits with their point, without an exponent part. -/
def plain (digits : List Nat) (exponent : Int) : List Char :=
  if exponent < 0 then
    '0' :: '.' :: digitChars (List.replicate ((-exponent).toNat - 1) 0 ++ digits)
  else
    let point := exponent.toNat + 1
    if point < digits.length then
      digitChars (digits.take point) ++ '.' :: digitChars (digits.drop point)
    else digitChars (digits ++ List.replicate (point - digits.length) 0) ++ ['.', '0']

def exponentChars (e : Int) : List Char :=
  if e < 0 then '-' :: Nat.toDigits 10 (-e).toNat else Nat.toDigits 10 e.toNat

/-- The first digit before the point and the power of ten at the end. -/
def scientific (s : DecimalStyle) (digits : List Nat) (exponent : Int) : List Char :=
  let rest := digits.drop 1
  let tail := if rest.isEmpty then s.loneDigitTail else '.' :: digitChars rest
  digitChars (digits.take 1) ++ tail ++ s.exponentMark :: exponentChars exponent

def layout (s : DecimalStyle) (d : Decimal) : List Char :=
  let unsigned :=
    if s.leastPlain ≤ d.exponent ∧ d.exponent < s.leastScientific then plain d.digits d.exponent
    else s.scientific d.digits d.exponent
  if d.negative then '-' :: unsigned else unsigned

/-- The text of what a bit pattern of the format denotes. -/
def write (s : DecimalStyle) (f : FloatFormat) : FloatReading → String
  | .nan => s.nan
  | .infinite negative => if negative then "-" ++ s.infinity else s.infinity
  | .finite negative significand exponent =>
    if significand = 0 then if negative then "-0.0" else "0.0"
    else String.ofList (s.layout (Decimal.shortest f negative significand exponent))

example : guest.layout ⟨true, [2, 5], -4⟩ = "-2.5E-4".toList := by decide
example : guest.layout ⟨false, [1, 2, 3], 1⟩ = "12.3".toList := by decide
example : diagnostic.layout ⟨false, [1], 16⟩ = "1e16".toList := by decide
example : guest.layout (Decimal.shortest .binary64 false (2 ^ 52) (-77)) =
    "2.9802322387695313E-8".toList := by decide +kernel
example : guest.layout (Decimal.shortest .binary64 false 1 (-1074)) = "5.0E-324".toList := by
  decide +kernel

end DecimalStyle

def Binary64.text (x : Binary64) (s : DecimalStyle) : String := s.write .binary64 x.read

def Binary32.text (x : Binary32) (s : DecimalStyle) : String := s.write .binary32 x.read

end JavaMachine

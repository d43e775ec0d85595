/-!
# Binary floating-point formats

A format is given by the widths of its fraction and exponent fields. `read` says what a bit
pattern denotes: a finite value is `± significand · 2 ^ exponent`, subnormal numbers included, and
everything that is exact about floats (remainders, decimal digits, truncation to integers) is
computed from that reading in whole numbers.
-/
namespace JavaMachine

/-- What a bit pattern denotes. -/
inductive FloatReading
  | nan
  | infinite (negative : Bool)
  | finite (negative : Bool) (significand : Nat) (exponent : Int)
  deriving DecidableEq, Inhabited

/-- An interchange format with one sign bit. -/
structure FloatFormat where
  fractionBits : Nat
  exponentBits : Nat
  deriving DecidableEq

namespace FloatFormat

def binary32 : FloatFormat := ⟨23, 8⟩

def binary64 : FloatFormat := ⟨52, 11⟩

/-- The exponent of the least significant bit of a subnormal number. -/
def minExponent (f : FloatFormat) : Int := 2 - Nat.pow 2 (f.exponentBits - 1) - f.fractionBits

def read (f : FloatFormat) (bits : Nat) : FloatReading :=
  let fraction := bits % Nat.pow 2 f.fractionBits
  let biased := bits / Nat.pow 2 f.fractionBits % Nat.pow 2 f.exponentBits
  let negative := bits / Nat.pow 2 (f.fractionBits + f.exponentBits) % 2 == 1
  if biased = Nat.pow 2 f.exponentBits - 1 then
    if fraction = 0 then .infinite negative else .nan
  else if biased = 0 then .finite negative fraction f.minExponent
  else .finite negative (Nat.pow 2 f.fractionBits + fraction) (f.minExponent + (biased - 1))

example : binary64.read 0x3FF8000000000000 = .finite false (3 * 2 ^ 51) (-52) := by decide
example : binary32.read 0x80000001 = .finite true 1 (-149) := by decide

end FloatFormat

namespace FloatReading

/-- `significand · 2 ^ exponent` without its fractional part. -/
def wholePart (significand : Nat) (exponent : Int) : Nat :=
  if 0 ≤ exponent then significand <<< exponent.toNat else significand >>> (-exponent).toNat

/-- Whether the value is an odd integer: the bit for one is the last that is set. -/
def isOddInteger : FloatReading → Bool
  | finite _ significand exponent =>
    exponent ≤ 0 &&
      significand % Nat.pow 2 ((-exponent).toNat + 1) == Nat.pow 2 (-exponent).toNat
  | _ => false

/-- Truncation toward zero to a signed integer of the given width. Values beyond the range go to
its nearer end and no number is zero. -/
def toInt (width : Nat) : FloatReading → Int
  | nan => 0
  | infinite negative => if negative then -Nat.pow 2 (width - 1) else Nat.pow 2 (width - 1) - 1
  | finite negative significand exponent =>
    let whole : Int := wholePart significand exponent
    if negative then max (-whole) (-Nat.pow 2 (width - 1))
    else min whole (Nat.pow 2 (width - 1) - 1)

/-- The remainder `x - n · y` with the quotient `n` truncated toward zero, as a significand and an
exponent; it has the sign of `x`. -/
def remainder (m : Nat) (e : Int) (m' : Nat) (e' : Int) : Nat × Int :=
  let least := min e e'
  ((m <<< (e - least).toNat) % (m' <<< (e' - least).toNat), least)

example : (finite true (3 * 2 ^ 51) (-51)).isOddInteger = true := by decide
example : (finite false 3 1).isOddInteger = false := by decide

end FloatReading

end JavaMachine

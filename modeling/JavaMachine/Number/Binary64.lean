import JavaMachine.Number.Format

/-!
# Double-precision numbers

A number is its bit pattern, so that equality is decidable and the payload of a NaN survives
every move. Arithmetic on numbers is the host's; NaNs follow one rule: an operation on a NaN gives
its first NaN operand made quiet, and an invalid operation gives the default NaN, whose sign bit
is set.
-/
namespace JavaMachine

/-- A 64-bit floating-point number. -/
structure Binary64 where
  bits : UInt64
  deriving DecidableEq, Inhabited

namespace Binary64

def read (x : Binary64) : FloatReading := FloatFormat.binary64.read x.bits.toNat

def isNaN (x : Binary64) : Bool := x.bits &&& 0x7FFFFFFFFFFFFFFF > 0x7FF0000000000000

def isNegative (x : Binary64) : Bool := x.bits &&& 0x8000000000000000 ≠ 0

def isZero (x : Binary64) : Bool := x.bits &&& 0x7FFFFFFFFFFFFFFF = 0

/-- Whether the number is a NaN without its quiet bit. -/
def isSignaling (x : Binary64) : Bool := x.isNaN && x.bits &&& 0x0008000000000000 = 0

/-- The same NaN with its quiet bit set. -/
def quiet (x : Binary64) : Binary64 := ⟨x.bits ||| 0x0008000000000000⟩

def defaultNaN : Binary64 := ⟨0xFFF8000000000000⟩

def zero : Binary64 := ⟨0⟩

def one : Binary64 := ⟨0x3FF0000000000000⟩

def toFloat (x : Binary64) : Float := Float.ofBits x.bits

/-- The result of an operation whose operands are numbers. -/
def ofFloat (x : Float) : Binary64 := if x.isNaN then defaultNaN else ⟨x.toBits⟩

def map (op : Float → Float) (x : Binary64) : Binary64 :=
  if x.isNaN then x.quiet else ofFloat (op x.toFloat)

def combine (op : Float → Float → Float) (x y : Binary64) : Binary64 :=
  if x.isNaN then x.quiet else if y.isNaN then y.quiet else ofFloat (op x.toFloat y.toFloat)

def add : Binary64 → Binary64 → Binary64 := combine (· + ·)

def sub : Binary64 → Binary64 → Binary64 := combine (· - ·)

def mul : Binary64 → Binary64 → Binary64 := combine (· * ·)

def div : Binary64 → Binary64 → Binary64 := combine (· / ·)

/-- Negation flips the sign bit, also of a NaN. -/
def neg (x : Binary64) : Binary64 := ⟨x.bits ^^^ 0x8000000000000000⟩

/-- The number with the given sign whose magnitude is `m · 2 ^ e`, where that is a number of the
format. -/
def ofParts (negative : Bool) (m : Nat) (e : Int) : Binary64 :=
  let magnitude := ofFloat ((Float.ofNat m).scaleB e)
  if negative then magnitude.neg else magnitude

/-- The remainder with a truncated quotient, which is always exact. -/
def rem (x y : Binary64) : Binary64 :=
  if x.isNaN then x.quiet
  else if y.isNaN then y.quiet
  else
    match x.read, y.read with
    | .finite _ _ _, .infinite _ => x
    | .finite negative m e, .finite _ m' e' =>
      if m' = 0 then defaultNaN
      else if m = 0 then x
      else
        let r := FloatReading.remainder m e m' e'
        ofParts negative r.1 r.2
    | _, _ => defaultNaN

def sqrt : Binary64 → Binary64 := map Float.sqrt

/-- A power. Anything to the zero and one to anything are one, quiet NaNs included but not
signaling ones. A NaN base stays itself, except that an odd exponent changes the sign of a negative
one. -/
def pow (x y : Binary64) : Binary64 :=
  if y.isZero then if x.isSignaling then x.quiet else one
  else if x = one then if y.isSignaling then y.quiet else one
  else if x.isNaN && x.isNegative && y.read.isOddInteger then x.quiet.neg
  else combine Float.pow x y

/-- A whole number that grows with the number; both zeros are 0. -/
def orderKey (x : Binary64) : Int :=
  let magnitude : Int := (x.bits &&& 0x7FFFFFFFFFFFFFFF).toNat
  if x.bits &&& 0x8000000000000000 = 0 then magnitude else -magnitude

def toInt32 (x : Binary64) : Int32 := Int32.ofInt (x.read.toInt 32)

def toInt64 (x : Binary64) : Int64 := Int64.ofInt (x.read.toInt 64)

def ofInt32 (v : Int32) : Binary64 := ofFloat v.toFloat

def ofInt64 (v : Int64) : Binary64 := ofFloat v.toFloat

end Binary64

end JavaMachine

import JavaMachine.Number.Binary64

/-!
# Single-precision numbers

The same decisions as for double precision, and the conversions between the two widths: widening
is exact, narrowing rounds once, and both keep as much of a NaN as the target can hold.
-/
namespace JavaMachine

/-- A 32-bit floating-point number. -/
structure Binary32 where
  bits : UInt32
  deriving DecidableEq, Inhabited

namespace Binary32

def read (x : Binary32) : FloatReading := FloatFormat.binary32.read x.bits.toNat

def isNaN (x : Binary32) : Bool := x.bits &&& 0x7FFFFFFF > 0x7F800000

/-- The same NaN with its quiet bit set. -/
def quiet (x : Binary32) : Binary32 := ⟨x.bits ||| 0x00400000⟩

def defaultNaN : Binary32 := ⟨0xFFC00000⟩

def zero : Binary32 := ⟨0⟩

def one : Binary32 := ⟨0x3F800000⟩

def two : Binary32 := ⟨0x40000000⟩

def toFloat32 (x : Binary32) : Float32 := Float32.ofBits x.bits

/-- The result of an operation whose operands are numbers. -/
def ofFloat32 (x : Float32) : Binary32 := if x.isNaN then defaultNaN else ⟨x.toBits⟩

def combine (op : Float32 → Float32 → Float32) (x y : Binary32) : Binary32 :=
  if x.isNaN then x.quiet else if y.isNaN then y.quiet
  else ofFloat32 (op x.toFloat32 y.toFloat32)

def add : Binary32 → Binary32 → Binary32 := combine (· + ·)

def sub : Binary32 → Binary32 → Binary32 := combine (· - ·)

def mul : Binary32 → Binary32 → Binary32 := combine (· * ·)

def div : Binary32 → Binary32 → Binary32 := combine (· / ·)

/-- Negation flips the sign bit, also of a NaN. -/
def neg (x : Binary32) : Binary32 := ⟨x.bits ^^^ 0x80000000⟩

/-- Every single-precision number is a double-precision number; a NaN keeps its sign and payload. -/
def widen (x : Binary32) : Binary64 :=
  if x.isNaN then
    let sign : UInt64 := (x.bits &&& 0x80000000).toUInt64 <<< 32
    let payload : UInt64 := (x.bits &&& 0x7FFFFF).toUInt64 <<< 29
    Binary64.quiet ⟨sign ||| 0x7FF0000000000000 ||| payload⟩
  else Binary64.ofFloat x.toFloat32.toFloat

/-- The nearest single-precision number; a NaN keeps its sign and the top of its payload. -/
def ofBinary64 (x : Binary64) : Binary32 :=
  if x.isNaN then
    let sign : UInt32 := (x.bits >>> 32).toUInt32 &&& 0x80000000
    let payload : UInt32 := (x.bits >>> 29).toUInt32 &&& 0x7FFFFF
    quiet ⟨sign ||| 0x7F800000 ||| payload⟩
  else ofFloat32 x.toFloat.toFloat32

/-- The number with the given sign whose magnitude is `m · 2 ^ e`, where that is a number of the
format. -/
def ofParts (negative : Bool) (m : Nat) (e : Int) : Binary32 :=
  ofBinary64 (Binary64.ofParts negative m e)

/-- The remainder with a truncated quotient, which is always exact. -/
def rem (x y : Binary32) : Binary32 :=
  if x.isNaN then x.quiet
  else if y.isNaN then y.quiet
  else
    match x.read, y.read with
    | .finite _ _ _, .infinite _ => x
    | .finite negative m e, .finite _ m' e' =>
      if m' = 0 then defaultNaN
      else if m = 0 then x
      else
        let r := FloatReading.remainder m e m' e'
        ofParts negative r.1 r.2
    | _, _ => defaultNaN

/-- A whole number that grows with the number; both zeros are 0. -/
def orderKey (x : Binary32) : Int :=
  let magnitude : Int := (x.bits &&& 0x7FFFFFFF).toNat
  if x.bits &&& 0x80000000 = 0 then magnitude else -magnitude

def toInt32 (x : Binary32) : Int32 := Int32.ofInt (x.read.toInt 32)

def toInt64 (x : Binary32) : Int64 := Int64.ofInt (x.read.toInt 64)

def ofInt32 (v : Int32) : Binary32 := ofFloat32 v.toFloat32

def ofInt64 (v : Int64) : Binary32 := ofFloat32 v.toFloat32

end Binary32

end JavaMachine

import JavaMachine.Native.Registry

/-!
# Standard native methods

The implementations that every machine starts with: identity and class of objects, interned
strings, the clock, and the bits and two functions of floating-point numbers.
-/
namespace JavaMachine

namespace Intrinsics

open World (Operation)

/-- The argument at a position, read in a way. -/
def read {α : Type} (arguments : List NativeValue) (index : Nat)
    (as : NativeValue → Except Error α) : Operation α :=
  ofExcept ((nativeArgument arguments index).bind as)

def int (v : Int32) : Option NativeValue := some (.scalar (.int v))

def long (v : Int64) : Option NativeValue := some (.scalar (.long v))

def double (v : Binary64) : Option NativeValue := some (.scalar (.double v))

def nothing : NativeMethod := fun _ => return none

def identityHash : NativeMethod := fun arguments => do
  let r ← read arguments 0 NativeValue.asReference
  return int r.identityHash

def getClass : NativeMethod := fun arguments => do
  let r ← read arguments 0 NativeValue.asReference
  match (← get).classOf? r with
  | some c => return some (.reference (← World.classObject c))
  | none => throw .nullPointer

/-- The time since 1970 in milliseconds. -/
def currentTimeMillis : NativeMethod := fun _ => do
  return long (Int64.ofNat ((← get).clock / 1000000))

def nanoTime : NativeMethod := fun _ => do
  return long (Int64.ofNat (← get).clock)

/-- The canonical string of the receiver's text. -/
def intern : NativeMethod := fun arguments => do
  let r ← read arguments 0 NativeValue.asReference
  if r = .null then throw .nullPointer
  match (← get).stringText? r with
  | some text => return some (.reference (← World.internString text))
  | none => throw (.typeMismatch "string" (.reference r))

def floatToRawIntBits : NativeMethod := fun arguments => do
  return int (← read arguments 0 NativeValue.asFloat).bits.toInt32

def intBitsToFloat : NativeMethod := fun arguments => do
  return some (.scalar (.float ⟨(← read arguments 0 NativeValue.asInt).toUInt32⟩))

def doubleToRawLongBits : NativeMethod := fun arguments => do
  return long (← read arguments 0 NativeValue.asDouble).bits.toInt64

def longBitsToDouble : NativeMethod := fun arguments => do
  return double ⟨(← read arguments 0 NativeValue.asLong).toUInt64⟩

def sqrt : NativeMethod := fun arguments => do
  return double (← read arguments 0 NativeValue.asDouble).sqrt

def pow : NativeMethod := fun arguments => do
  let base ← read arguments 0 NativeValue.asDouble
  let exponent ← read arguments 1 NativeValue.asDouble
  return double (base.pow exponent)

end Intrinsics

open Intrinsics in
/-- The registry that machines start with. -/
def NativeRegistry.standard : NativeRegistry :=
  empty
  |>.register "java/lang/Object" "registerNatives" "()V" nothing
  |>.register "java/lang/System" "registerNatives" "()V" nothing
  |>.register "java/lang/Class" "registerNatives" "()V" nothing
  |>.register "java/lang/Object" "hashCode" "()I" identityHash
  |>.register "java/lang/Object" "getClass" "()Ljava/lang/Class;" getClass
  |>.register "java/lang/System" "identityHashCode" "(Ljava/lang/Object;)I" identityHash
  |>.register "java/lang/System" "currentTimeMillis" "()J" currentTimeMillis
  |>.register "java/lang/System" "nanoTime" "()J" nanoTime
  |>.register "java/lang/String" "intern" "()Ljava/lang/String;" intern
  |>.register "java/io/PrintStream" "flush" "()V" nothing
  |>.register "java/lang/Float" "floatToRawIntBits" "(F)I" floatToRawIntBits
  |>.register "java/lang/Float" "intBitsToFloat" "(I)F" intBitsToFloat
  |>.register "java/lang/Double" "doubleToRawLongBits" "(D)J" doubleToRawLongBits
  |>.register "java/lang/Double" "longBitsToDouble" "(J)D" longBitsToDouble
  |>.register "java/lang/StrictMath" "sqrt" "(D)D" sqrt
  |>.register "java/lang/StrictMath" "pow" "(DD)D" pow

end JavaMachine

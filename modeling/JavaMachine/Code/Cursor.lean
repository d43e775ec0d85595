import JavaMachine.Error.Basic

/-!
# Reading code bytes

A cursor is a position in the code of a method, possibly past its end. Every read takes its bytes
from what remains at the position, most significant byte first, and moves to where the rest
begins. A read that finds too few bytes fails at the position and stays there.
-/
namespace JavaMachine

structure Cursor where
  code : Array UInt8
  position : Nat
  deriving DecidableEq, Inhabited

namespace Cursor

/-- A read that may fail. -/
abbrev Reading (α : Type) := EStateM Error Cursor α

/-- The number of bytes from the position to the end. -/
def remaining (c : Cursor) : Nat := c.code.size - c.position

def truncated (c : Cursor) : Error := .truncatedInstruction c.position

/-- Reads `n` bytes. The new position is counted from the end of the code. -/
def take (n : Nat) : Reading (List UInt8) := fun c =>
  if n ≤ c.remaining then
    .ok (c.code.extract c.position (c.position + n)).toList
      { c with position := c.code.size - (c.remaining - n) }
  else .error c.truncated c

/-- The number whose digits to base 256 are the bytes. -/
def bigEndian (bytes : List UInt8) : Nat := bytes.foldl (fun n b => n * 256 + b.toNat) 0

def readU8 : Reading UInt8 := do return UInt8.ofNat (bigEndian (← take 1))

def readI8 : Reading Int8 := do return Int8.ofNat (bigEndian (← take 1))

def readU16 : Reading UInt16 := do return UInt16.ofNat (bigEndian (← take 2))

def readI16 : Reading Int16 := do return Int16.ofNat (bigEndian (← take 2))

def readI32 : Reading Int32 := do return Int32.ofNat (bigEndian (← take 4))

/-- The consecutive numbers of four bytes each. -/
def wordsOf : List UInt8 → List Int32
  | a :: b :: c :: d :: rest => Int32.ofNat (bigEndian [a, b, c, d]) :: wordsOf rest
  | _ => []

/-- Reads `n` numbers of four bytes at once. -/
def readI32s (n : Nat) : Reading (List Int32) := do return wordsOf (← take (4 * n))

/-- The bytes up to the next multiple of four, counted from the start of the code. -/
def padding (position : Nat) : Nat := (4 - position % 4) % 4

/-- Skips the padding in front of the operands of a switch. -/
def align : Reading Unit := fun c =>
  let skipped := padding c.position
  if c.remaining < skipped then .error c.truncated c
  else .ok () { c with position := c.position + skipped }

theorem take_of_le {n : Nat} {c : Cursor} (h : n ≤ c.remaining) :
    take n c = .ok (c.code.extract c.position (c.position + n)).toList
      { c with position := c.code.size - (c.remaining - n) } :=
  if_pos h

theorem take_of_lt {n : Nat} {c : Cursor} (h : c.remaining < n) :
    take n c = .error c.truncated c :=
  if_neg (Nat.not_le.2 h)

theorem length_take {n : Nat} {c c' : Cursor} {bytes : List UInt8}
    (h : take n c = .ok bytes c') : bytes.length = n := by
  by_cases hn : n ≤ c.remaining
  · rw [take_of_le hn, EStateM.Result.ok.injEq] at h
    simp only [remaining] at hn
    rw [← h.1]
    simp only [Array.length_toList, Array.size_extract]
    omega
  · simp [take_of_lt (Nat.not_le.1 hn)] at h

end Cursor

end JavaMachine

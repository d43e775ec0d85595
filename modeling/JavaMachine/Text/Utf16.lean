/-!
# UTF-16

Guest strings are sequences of 16-bit units and may hold unpaired surrogates; host texts are
sequences of characters and cannot. `encode` is exact. `decode` puts the replacement character
U+FFFD for every unpaired surrogate, so it undoes `encode` but identifies some unit sequences.
-/
namespace JavaMachine.Utf16

def isHighSurrogate (u : UInt16) : Bool := 0xD800 ≤ u && u < 0xDC00

def isLowSurrogate (u : UInt16) : Bool := 0xDC00 ≤ u && u < 0xE000

/-- One unit for the basic plane, a surrogate pair above it. -/
def encodeChar (c : Char) : List UInt16 :=
  if c.toNat < 0x10000 then [UInt16.ofNat c.toNat]
  else
    let n := c.toNat - 0x10000
    [UInt16.ofNat (0xD800 + n / 0x400), UInt16.ofNat (0xDC00 + n % 0x400)]

def encode (text : List Char) : List UInt16 := text.flatMap encodeChar

/-- The character that a surrogate pair stands for. -/
def joinSurrogates (high low : UInt16) : Char :=
  Char.ofNat (0x10000 + (high.toNat - 0xD800) * 0x400 + (low.toNat - 0xDC00))

def replacement : Char := '\uFFFD'

/-- The character of a unit that is read alone. -/
def single (u : UInt16) : Char :=
  if isHighSurrogate u || isLowSurrogate u then replacement else Char.ofNat u.toNat

/-- Reads the units from left to right, a high surrogate together with a low one after it. -/
def decode : List UInt16 → List Char
  | [] => []
  | [u] => [single u]
  | u :: v :: rest =>
    if isHighSurrogate u && isLowSurrogate v then joinSurrogates u v :: decode rest
    else single u :: decode (v :: rest)

example : decode (encode "aé😀".toList) = "aé😀".toList := by decide
example : decode [0xDE00, 0xD83D, 0x41] = [replacement, replacement, 'A'] := by decide

end JavaMachine.Utf16

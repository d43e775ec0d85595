import JavaMachine.Text.Unprintable

/-!
# Quoted texts

A text between double quotes on one line. Backslashes, double quotes and the common controls are
written with a letter after a backslash, other unprintable characters by their code point; a
single quote and every printable character stand for themselves.
-/
namespace JavaMachine.Text

/-- The code point in lower-case hexadecimal digits. -/
def hexadecimal (n : Nat) : List Char := Nat.toDigits 16 n

def escapeChar (c : Char) : List Char :=
  match c with
  | '"' => ['\\', '"']
  | '\\' => ['\\', '\\']
  | '\n' => ['\\', 'n']
  | '\r' => ['\\', 'r']
  | '\t' => ['\\', 't']
  | '\x00' => ['\\', '0']
  | c => if isUnprintable c then ['\\', 'u', '\x7b'] ++ hexadecimal c.toNat ++ ['\x7d'] else [c]

/-- The text in quotes, with every character that needs it escaped. -/
def quote (text : String) : String :=
  String.ofList ('"' :: text.toList.flatMap escapeChar ++ ['"'])

end JavaMachine.Text

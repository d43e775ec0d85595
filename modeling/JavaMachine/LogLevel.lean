import JavaMachine.Text.Blank

/-!
# Log levels

A level is named by its English word in either case, with white space around it ignored.
-/
namespace JavaMachine

inductive LogLevel
  | off | error | warn | info | debug | trace
  deriving DecidableEq, Repr, Inhabited

namespace LogLevel

def name : LogLevel → String
  | off => "OFF"
  | error => "ERROR"
  | warn => "WARN"
  | info => "INFO"
  | debug => "DEBUG"
  | trace => "TRACE"

def all : List LogLevel := [off, error, warn, info, debug, trace]

/-- Only ASCII letters are folded: a dotted capital I does not make `info`. -/
def ofText? (text : String) : Option LogLevel :=
  let word := (Text.trim text.toList).map Char.toUpper
  all.find? fun level => level.name.toList = word

end LogLevel

end JavaMachine

import JavaMachine.Error.Basic

/-!
# Consoles

A console has two sinks, for output and for errors. A sink keeps the text written to it, or fails
every write of at least one character with the same reason.
-/
namespace JavaMachine

structure Sink where
  text : String
  /-- Why the sink takes nothing. -/
  failure : Option String
  deriving DecidableEq, Inhabited

def Sink.working : Sink := ⟨"", none⟩

def Sink.broken (reason : String) : Sink := ⟨"", some reason⟩

structure Console where
  out : Sink
  err : Sink
  deriving DecidableEq, Inhabited

namespace Console

def working : Console := ⟨.working, .working⟩

/-- The descriptor of the error sink; every other one names the output sink. -/
def errorDescriptor : Int32 := 2

def writeTo (s : Sink) (text : String) : Except Error Sink :=
  if text.isEmpty then .ok s
  else
    match s.failure with
    | some reason => .error (.io reason)
    | none => .ok { s with text := s.text ++ text }

/-- Writes the text as it is. -/
def write (c : Console) (descriptor : Int32) (text : String) : Except Error Console :=
  if descriptor = errorDescriptor then
    (writeTo c.err text).map fun s => { c with err := s }
  else (writeTo c.out text).map fun s => { c with out := s }

/-- The texts written so far, and the console without them. -/
def drain (c : Console) : String × String × Console :=
  (c.out.text, c.err.text, { out := { c.out with text := "" }, err := { c.err with text := "" } })

end Console

end JavaMachine

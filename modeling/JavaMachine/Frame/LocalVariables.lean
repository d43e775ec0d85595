import JavaMachine.Error.Basic

/-!
# Local variables

A fixed number of slots. A `long` or `double` sits in the first of its two slots and leaves the
second empty. A write over either half of such a pair removes the pair, so no half of a 64-bit
value is ever read.
-/
namespace JavaMachine

/-- The local variables of a frame. -/
structure LocalVariables where
  slots : Array (Option Value)
  deriving DecidableEq, Inhabited

namespace LocalVariables

def empty (maxLocals : Nat) : LocalVariables := ⟨Array.replicate maxLocals none⟩

def size (l : LocalVariables) : Nat := l.slots.size

def get (l : LocalVariables) (index : Nat) : Except Error Value :=
  match l.slots[index]? with
  | some (some v) => .ok v
  | some none => .error (.typeMismatch "initialized local variable" (.emptySlot index))
  | none => .error (.invalidLocalIndex index l.size)

/-- Whether the slot holds a value that also takes the slot after it. -/
def holdsWide (l : LocalVariables) (index : Nat) : Bool :=
  match l.slots[index]? with
  | some (some v) => v.category == 2
  | _ => false

/-- The slots after a write at an index that is known to fit. -/
def write (l : LocalVariables) (index : Nat) (v : Value) : LocalVariables :=
  let slots := if v.category = 2 then l.slots.setIfInBounds (index + 1) none else l.slots
  let slots :=
    if 0 < index ∧ l.holdsWide (index - 1) then slots.setIfInBounds (index - 1) none else slots
  ⟨slots.setIfInBounds index (some v)⟩

/-- Stores a value, or fails and changes nothing when it does not fit. -/
def set (l : LocalVariables) (index : Nat) (v : Value) : Except Error LocalVariables :=
  if l.size ≤ index then .error (.invalidLocalIndex index l.size)
  else if v.category = 2 ∧ l.size ≤ index + 1 then .error (.invalidLocalIndex (index + 1) l.size)
  else .ok (l.write index v)

/-- Reads a value that `read?` accepts. -/
def getAs {α : Type} (l : LocalVariables) (index : Nat) (expected : String)
    (read? : Value → Option α) : Except Error α := do
  let v ← l.get index
  match read? v with
  | some a => .ok a
  | none => .error (.typeMismatch expected (.value v))

def getInt (l : LocalVariables) (index : Nat) : Except Error Int32 :=
  l.getAs index "int" Value.int?

def getReference (l : LocalVariables) (index : Nat) : Except Error Reference :=
  l.getAs index "reference" Value.reference?

def getReturnAddress (l : LocalVariables) (index : Nat) : Except Error Nat :=
  l.getAs index "returnAddress" Value.returnAddress?

/-- Reads a value of the type in the type's own width. -/
def getScalar (l : LocalVariables) (p : Primitive) (index : Nat) : Except Error Scalar :=
  l.getAs index p.stackKind (Scalar.ofValue? p)

/-- Stores the values one after the other from the index on. -/
def setAll (l : LocalVariables) : Nat → List Value → Except Error LocalVariables
  | _, [] => .ok l
  | index, v :: rest => do
    let l ← l.set index v
    l.setAll (index + v.category) rest

/-- The variables of a method at its start: the arguments in order from index 0. -/
def ofArguments (maxLocals : Nat) (arguments : List Value) : Except Error LocalVariables :=
  (empty maxLocals).setAll 0 arguments

@[simp] theorem size_empty (maxLocals : Nat) : (empty maxLocals).size = maxLocals := by
  simp [empty, size]

@[simp] theorem size_write (l : LocalVariables) (index : Nat) (v : Value) :
    (l.write index v).size = l.size := by
  simp only [write, size, Array.size_setIfInBounds]
  split <;> split <;> simp

theorem set_eq_ok_iff {l l' : LocalVariables} {index : Nat} {v : Value} :
    l.set index v = .ok l' ↔ index + v.category ≤ l.size ∧ l' = l.write index v := by
  have hpos := v.category_pos
  have hle := v.category_le_two
  simp only [set]
  split
  · simp only [reduceCtorEq, false_iff, not_and]
    omega
  · split
    · simp only [reduceCtorEq, false_iff, not_and]
      omega
    · simp only [Except.ok.injEq, @eq_comm _ l']
      constructor
      · intro h
        exact ⟨by omega, h⟩
      · exact And.right

theorem size_set {l l' : LocalVariables} {index : Nat} {v : Value}
    (h : l.set index v = .ok l') : l'.size = l.size := by
  rw [(set_eq_ok_iff.1 h).2, size_write]

end LocalVariables

end JavaMachine

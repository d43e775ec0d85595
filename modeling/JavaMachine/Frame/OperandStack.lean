import JavaMachine.Error.Basic

/-!
# Operand stacks

A stack is the list of its values with the top first. A `long` or `double` is one entry that
counts two slots, so it is pushed and popped as a whole. The height in slots is kept beside the
values, and a push that would take it past the limit fails and changes nothing. A pop of the
wrong kind of value fails after it has removed that value.
-/
namespace JavaMachine

/-- A bounded stack of values. -/
structure OperandStack where
  /-- The values, the top first. -/
  values : List Value
  /-- The height in slots. -/
  size : Nat
  maxStack : Nat
  deriving DecidableEq, Inhabited

namespace OperandStack

/-- The slots that the values take together. -/
def slots (values : List Value) : Nat := values.foldr (fun v n => v.category + n) 0

def empty (maxStack : Nat) : OperandStack := ⟨[], 0, maxStack⟩

def isEmpty (s : OperandStack) : Bool := s.values.isEmpty

def clear (s : OperandStack) : OperandStack := { s with values := [], size := 0 }

/-- The height is that of the values and within the limit. -/
structure WellFormed (s : OperandStack) : Prop where
  size_eq : s.size = slots s.values
  size_le : s.size ≤ s.maxStack

theorem wellFormed_empty (maxStack : Nat) : (empty maxStack).WellFormed :=
  ⟨rfl, Nat.zero_le _⟩

theorem WellFormed.clear {s : OperandStack} : s.clear.WellFormed :=
  ⟨rfl, Nat.zero_le _⟩

/-- A change of the stack that may fail, and then leaves it as it was by that time. -/
abbrev Change (α : Type) := EStateM Error OperandStack α

def push (v : Value) : Change Unit := fun s =>
  let size := s.size + v.category
  if s.maxStack < size then .error (.operandStackOverflow s.maxStack) s
  else .ok () { s with values := v :: s.values, size := size }

def pop : Change Value := fun s =>
  match s.values with
  | [] => .error .operandStackUnderflow s
  | v :: rest => .ok v { s with values := rest, size := s.size - v.category }

def peek (s : OperandStack) : Except Error Value :=
  match s.values with
  | [] => .error .operandStackUnderflow
  | v :: _ => .ok v

/-- Pops a value that `read?` accepts. -/
def popAs {α : Type} (expected : String) (read? : Value → Option α) : Change α := do
  let v ← pop
  match read? v with
  | some a => pure a
  | none => throw (.typeMismatch expected (.value v))

/-- Pops a value that takes one slot. -/
def popCategory1 : Change Value :=
  popAs "category 1 value" fun v => if v.category = 1 then some v else none

def popInt : Change Int32 := popAs "int" Value.int?

def popFloat : Change Binary32 := popAs "float" Value.float?

def popLong : Change Int64 := popAs "long" Value.long?

def popDouble : Change Binary64 := popAs "double" Value.double?

def popReference : Change Reference := popAs "reference" Value.reference?

/-- Pops a reference that has to lead somewhere. -/
def popNonNull : Change Reference := do
  let r ← popReference
  if r = .null then throw .nullPointer
  return r

/-- Pops a value of the type in the type's own width. -/
def popScalar (p : Primitive) : Change Scalar := popAs p.stackKind (Scalar.ofValue? p)

def pushScalar (s : Scalar) : Change Unit := push s.widen

/-- Pushes the values in order, so that the last one ends on top. -/
def pushAll : List Value → Change Unit
  | [] => pure ()
  | v :: rest => do
    push v
    pushAll rest

/-- Pops a value of the type; the types narrower than `int` keep only what fits them. -/
def popTyped : FieldType → Change Value
  | .primitive p => do return (← popScalar p).widen
  | _ => do return .reference (← popReference)

/-- Pops the arguments of the parameters, the last parameter first, and puts them before the
arguments already popped. -/
def popParameters : List FieldType → List Value → Change (List Value)
  | [], popped => pure popped
  | t :: earlier, popped => do
    let v ← popTyped t
    popParameters earlier (v :: popped)

/-- Pops the arguments of a call, and the receiver below them when there is one. They come in the
order of declaration with the receiver first. -/
def popArguments (parameters : List FieldType) (hasReceiver : Bool) : Change (List Value) := do
  let arguments ← popParameters parameters.reverse []
  if hasReceiver then
    let receiver ← popReference
    return .reference receiver :: arguments
  else return arguments

@[simp] theorem slots_nil : slots [] = 0 := rfl

@[simp] theorem slots_cons (v : Value) (vs : List Value) :
    slots (v :: vs) = v.category + slots vs := rfl

theorem WellFormed.push {s : OperandStack} (h : s.WellFormed) {v : Value} {s' : OperandStack}
    (hs : OperandStack.push v s = .ok () s') : s'.WellFormed := by
  simp only [OperandStack.push] at hs
  split at hs
  · simp at hs
  · simp only [EStateM.Result.ok.injEq, true_and] at hs
    subst hs
    refine ⟨?_, ?_⟩
    · have := h.size_eq
      simp only [slots_cons]
      omega
    · simp only
      omega

theorem WellFormed.pop {s : OperandStack} (h : s.WellFormed) {v : Value} {s' : OperandStack}
    (hs : OperandStack.pop s = .ok v s') : s'.WellFormed := by
  have hsize := h.size_eq
  have hle := h.size_le
  simp only [OperandStack.pop] at hs
  split at hs
  · simp at hs
  · rename_i w rest hv
    simp only [EStateM.Result.ok.injEq] at hs
    obtain ⟨rfl, rfl⟩ := hs
    rw [hv, slots_cons] at hsize
    refine ⟨?_, ?_⟩ <;> simp only <;> omega

end OperandStack

end JavaMachine

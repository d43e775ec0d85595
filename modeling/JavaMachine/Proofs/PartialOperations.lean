import JavaMachine.Execution.Control
import JavaMachine.Proofs.Decoding
import JavaMachine.Proofs.Effects

/-!
# Partial operations

Some operations have a value only within a domain: the difference of natural numbers, the natural
number of an integer, access to an element at an index, and slices. The machine uses total versions
of them. Here every operation that relies on one is written once more with partial operations
alone, so that it has no outcome at all where one of them is used outside its domain. It turns out
to have an outcome always, and the same one: because of a check made before, because of what the
decoder guarantees, or, for a pop, because the height of a well-formed stack is that of its values.
-/
namespace JavaMachine

/-- The difference, if it is a natural number. -/
def difference? (a b : Nat) : Option Nat := if b ≤ a then some (a - b) else none

def natural? (n : Int) : Option Nat := if 0 ≤ n then some n.toNat else none

section Arrays

variable {α : Type}

/-- The array with the element at the index replaced, if there is one. -/
def replaceAt? (xs : Array α) (i : Nat) (x : α) : Option (Array α) :=
  if i < xs.size then some (xs.setIfInBounds i x) else none

def slice? (xs : Array α) (start stop : Nat) : Option (Array α) :=
  if start ≤ stop ∧ stop ≤ xs.size then some (xs.extract start stop) else none

theorem difference?_eq {a b : Nat} (h : b ≤ a) : difference? a b = some (a - b) := if_pos h

theorem natural?_eq {n : Int} (h : 0 ≤ n) : natural? n = some n.toNat := if_pos h

theorem replaceAt?_eq {xs : Array α} {i : Nat} (h : i < xs.size) (x : α) :
    replaceAt? xs i x = some (xs.setIfInBounds i x) := if_pos h

theorem slice?_eq {xs : Array α} {start stop : Nat} (h : start ≤ stop) (h' : stop ≤ xs.size) :
    slice? xs start stop = some (xs.extract start stop) := if_pos ⟨h, h'⟩

end Arrays

/-! ### Local variables -/

namespace LocalVariables

def get? (l : LocalVariables) (index : Nat) : Option (Except Error Value) :=
  if l.size ≤ index then some (.error (.invalidLocalIndex index l.size))
  else do
    match ← l.slots[index]? with
    | some v => return .ok v
    | none => return .error (.typeMismatch "initialized local variable" (.emptySlot index))

/-- Empties the slot after an index for a value that takes both. -/
def emptyAfter? (slots : Array (Option Value)) (index : Nat) (v : Value) :
    Option (Array (Option Value)) :=
  if v.category = 2 then replaceAt? slots (index + 1) none else some slots

/-- Empties the slot before an index, if there is one, when the value in it takes both. -/
def emptyBefore? (slots : Array (Option Value)) (index : Nat) : Option (Array (Option Value)) :=
  if 0 < index then do
    let before ← difference? index 1
    let slot ← slots[before]?
    if slot.any fun v => v.category == 2 then replaceAt? slots before none else some slots
  else some slots

/-- Stores a value at an index that has been checked, and empties the neighbours that belong to it
or to a value that it overwrites a half of. -/
def set? (l : LocalVariables) (index : Nat) (v : Value) : Option (Except Error LocalVariables) :=
  if l.size ≤ index then some (.error (.invalidLocalIndex index l.size))
  else if v.category = 2 ∧ l.size ≤ index + 1 then
    some (.error (.invalidLocalIndex (index + 1) l.size))
  else do
    let slots ← emptyAfter? l.slots index v
    let slots ← emptyBefore? slots index
    let slots ← replaceAt? slots index (some v)
    return .ok ⟨slots⟩

variable (l : LocalVariables) {slots : Array (Option Value)} (index : Nat) (v : Value)

theorem get?_eq : l.get? index = some (l.get index) := by
  unfold get? get
  by_cases outside : l.size ≤ index
  · rw [if_pos outside, Array.getElem?_eq_none outside]
  · have inside : index < l.slots.size := Nat.not_le.1 outside
    rw [if_neg outside, Array.getElem?_eq_getElem inside]
    cases l.slots[index] <;> rfl

variable {index}

theorem emptyAfter?_eq (fits : v.category = 2 → index + 1 < slots.size) :
    emptyAfter? slots index v =
      some (if v.category = 2 then slots.setIfInBounds (index + 1) none else slots) := by
  unfold emptyAfter?
  by_cases wide : v.category = 2
  · rw [if_pos wide, if_pos wide, replaceAt?_eq (fits wide)]
  · rw [if_neg wide, if_neg wide]

theorem emptyBefore?_eq (inside : index < slots.size) :
    emptyBefore? slots index = some
      (if 0 < index ∧ holdsWide ⟨slots⟩ (index - 1) then slots.setIfInBounds (index - 1) none
        else slots) := by
  unfold emptyBefore? holdsWide
  by_cases pos : 0 < index
  · have before : index - 1 < slots.size := by omega
    simp only [pos, difference?_eq (show 1 ≤ index from pos), Array.getElem?_eq_getElem before,
      Option.bind_eq_bind, Option.bind_some, replaceAt?_eq before, if_true, true_and]
    cases slots[index - 1] with
    | none => rfl
    | some u => cases wide : u.category == 2 <;> simp [wide]
  · simp only [pos, if_false, false_and]

variable (index)

theorem set?_eq : l.set? index v = some (l.set index v) := by
  unfold set? set
  by_cases outside : l.size ≤ index
  · simp only [if_pos outside]
  by_cases half : v.category = 2 ∧ l.size ≤ index + 1
  · simp only [if_neg outside, if_pos half]
  have inside : index < l.slots.size := Nat.not_le.1 outside
  have fits (wide : v.category = 2) : index + 1 < l.slots.size :=
    Nat.not_le.1 fun beyond => half ⟨wide, beyond⟩
  -- The slot before the value is read after the one behind it has been emptied.
  have same : holdsWide ⟨if v.category = 2 then l.slots.setIfInBounds (index + 1) none
      else l.slots⟩ (index - 1) = l.holdsWide (index - 1) := by
    have apart : index + 1 ≠ index - 1 := by omega
    simp only [holdsWide, apply_ite (fun xs : Array (Option Value) => xs[index - 1]?),
      Array.getElem?_setIfInBounds_ne apart, ite_self]
  simp only [if_neg outside, if_neg half, emptyAfter?_eq v fits, Option.bind_eq_bind,
    Option.bind_some]
  rw [emptyBefore?_eq, Option.bind_some, same, replaceAt?_eq, Option.bind_some]
  · rfl
  all_goals simpa only [apply_ite Array.size, Array.size_setIfInBounds, ite_self] using inside

end LocalVariables

/-! ### Operand stacks -/

namespace OperandStack

/-- Takes the top value off and lowers the height by the slots that it takes. -/
def pop? (s : OperandStack) : Option (EStateM.Result Error OperandStack Value) :=
  match s.values with
  | [] => some (.error .operandStackUnderflow s)
  | v :: rest => do
    let size ← difference? s.size v.category
    return .ok v { s with values := rest, size := size }

theorem WellFormed.pop?_eq {s : OperandStack} (h : s.WellFormed) :
    s.pop? = some (OperandStack.pop s) := by
  have height := h.size_eq
  unfold pop? OperandStack.pop
  cases values : s.values with
  | nil => rfl
  | cons v rest =>
    rw [values, slots_cons] at height
    simp only [difference?_eq (show v.category ≤ s.size by omega), Option.bind_eq_bind,
      Option.bind_some]
    rfl

end OperandStack

/-! ### Reading code -/

namespace Cursor

def take? (n : Nat) (c : Cursor) : Option (EStateM.Result Error Cursor (List UInt8)) :=
  let ahead := c.code.toList.drop c.position
  if ahead.length < n then some (.error c.truncated c)
  else do
    let position ← difference? c.code.size (ahead.drop n).length
    return .ok (ahead.take n) { c with position := position }

def align? (c : Cursor) : Option (EStateM.Result Error Cursor Unit) := do
  let skipped := (← difference? 4 (c.position % 4)) % 4
  return if c.remaining < skipped then .error c.truncated c
    else .ok () { c with position := c.position + skipped }

theorem align?_eq (c : Cursor) : c.align? = some (align c) := by
  unfold align?
  rw [difference?_eq (Nat.le_of_lt (Nat.mod_lt _ (by decide)))]
  rfl

theorem take?_eq (n : Nat) (c : Cursor) : c.take? n = some (take n c) := by
  have length : (c.code.toList.drop c.position).length = c.remaining := by
    rw [List.length_drop, Array.length_toList, remaining]
  unfold take?
  simp only [List.length_drop (i := n), length]
  by_cases short : c.remaining < n
  · rw [if_pos short, take_of_lt short]
  · have within : c.remaining - n ≤ c.code.size := by
      unfold remaining
      omega
    rw [if_neg short, difference?_eq within, Option.bind_eq_bind, Option.bind_some,
      take_of_le (Nat.not_lt.1 short), Array.toList_extract, List.extract_eq_take_drop,
      Nat.add_sub_cancel_left]
    rfl

theorem length_readI32s {n : Nat} {c c' : Cursor} {numbers : List Int32}
    (h : readI32s n c = .ok numbers c') : numbers.length = n := by
  obtain ⟨bytes, c₁, taken, same⟩ := bind_eq_ok.1 h
  cases same
  exact (tableBytes_wordsOf (length_take taken)).1

end Cursor

/-! ### Switches -/

namespace Instruction

/-- The pairs of a list cut into twos. A piece that is left over is no pair. -/
def pairsOf? : List Int32 → Option (List (Int32 × Int32))
  | [] => some []
  | [_] => none
  | key :: offset :: rest => do return (key, offset) :: (← pairsOf? rest)

theorem pairsOf?_eq {n : Nat} {numbers : List Int32} (even : numbers.length = 2 * n) :
    pairsOf? numbers = some (pairsOf numbers) := by
  induction n generalizing numbers with
  | zero =>
    cases List.length_eq_zero_iff.1 even
    rfl
  | succ n ih =>
    match numbers, even with
    | key :: offset :: rest, even =>
      have fewer : rest.length = 2 * n := by
        simp only [List.length_cons] at even
        omega
      unfold pairsOf?
      rw [ih fewer]
      rfl

end Instruction

namespace Execution

/-- The offset that a table gives for a key. -/
def tableOffset? (default low high : Int32) (offsets : List Int32) (key : Int32) : Option Int32 :=
  if key < low ∨ high < key then some default
  else do offsets[← natural? (key.toInt - low.toInt)]?

/-- A table with an offset for each number from the low to the high one has one for every key
between them. -/
theorem tableOffset?_eq {default low high : Int32} {offsets : List Int32}
    (count : (offsets.length : Int) = high.toInt - low.toInt + 1) (key : Int32) :
    ∃ offset, tableOffset? default low high offsets key = some offset ∧
      tableOffset default low high offsets key = .ok offset := by
  unfold tableOffset? tableOffset
  by_cases outside : key < low ∨ high < key
  · exact ⟨default, if_pos outside, if_pos outside⟩
  · have from_low : low.toInt ≤ key.toInt :=
      Int32.le_iff_toInt_le.1 (Int32.not_lt.1 fun h => outside (.inl h))
    have to_high : key.toInt ≤ high.toInt :=
      Int32.le_iff_toInt_le.1 (Int32.not_lt.1 fun h => outside (.inr h))
    have inside : (key.toInt - low.toInt).toNat < offsets.length := by omega
    simp only [if_neg outside, natural?_eq (show 0 ≤ key.toInt - low.toInt by omega),
      Option.bind_eq_bind, Option.bind_some, List.getElem?_eq_getElem inside]
    exact ⟨_, rfl, rfl⟩

/-- Every table that is fetched is that long. -/
theorem tableOffset?_of_fetch {code : Array UInt8} {p : Nat} {opcode : UInt8} {c : Cursor}
    {default low high : Int32} {offsets : List Int32}
    (h : Instruction.fetch ⟨code, p⟩ = .ok (opcode, .tableSwitch default low high offsets) c)
    (key : Int32) :
    ∃ offset, tableOffset? default low high offsets key = some offset ∧
      tableOffset default low high offsets key = .ok offset := by
  obtain ⟨operands, after, -, encodes, -⟩ := Instruction.fetch_eq_ok_iff.1 h
  exact tableOffset?_eq encodes.length_offsets key

end Execution

end JavaMachine

import JavaMachine.Proofs.Decoding
import JavaMachine.Proofs.KnownOperands
import Mathlib.Data.List.Indexes

/-!
# Branches

A table is a list of pairs written without the keys, so a switch on a table is the switch on these
pairs, whatever it finds. Every jump adds its offset to the position of its own instruction as
whole numbers: it goes on there if that is in the code, and fails otherwise, with its operands gone
but nothing else done. A call of a subroutine pushes a value before it goes on, for which there has
to be room.
-/
namespace JavaMachine

/-! ### Tables and pairs -/

/-- The pairs that a table stands for: the offsets are those of consecutive keys. -/
def tablePairs (low : Int32) (offsets : List Int32) : List (Int32 × Int32) :=
  offsets.mapIdx fun i offset => (Int32.ofInt (low.toInt + i), offset)

namespace Execution

variable {default low high key : Int32} {offsets : List Int32} {pairs : List (Int32 × Int32)}

/-- The offset is that of the first pair with the key, or the default if there is none. -/
theorem pairOffset_eq (default key : Int32) (pairs : List (Int32 × Int32)) :
    (∃ before after, pairs = before ++ (key, pairOffset default pairs key) :: after ∧
      ∀ pair ∈ before, pair.1 ≠ key) ∨
    (∀ pair ∈ pairs, pair.1 ≠ key) ∧ pairOffset default pairs key = default := by
  unfold pairOffset
  cases found : pairs.lookup key with
  | some offset =>
    obtain ⟨before, after, split, others⟩ := List.lookup_eq_some_iff.1 found
    exact .inl ⟨before, after, split, fun pair h => (bne_iff_ne.1 (others pair h)).symm⟩
  | none =>
    have others := List.lookup_eq_none_iff.1 found
    exact .inr ⟨fun pair h => (bne_iff_ne.1 (others pair h)).symm, rfl⟩

section Table

variable (count : (offsets.length : Int) = high.toInt - low.toInt + 1)

include count

theorem toInt_tableKey {i : Nat} (inside : i < offsets.length) :
    (Int32.ofInt (low.toInt + i)).toInt = low.toInt + i := by
  have least := Int32.le_toInt low
  have most := Int32.toInt_lt high
  exact Int32.toInt_ofInt_of_le (by omega) (by omega)

/-- The pair with a key between the bounds is as far from the first one as the key from the low
bound. -/
theorem mem_tablePairs_iff {offset : Int32} : (key, offset) ∈ tablePairs low offsets ↔
    low.toInt ≤ key.toInt ∧ offsets[(key.toInt - low.toInt).toNat]? = some offset := by
  unfold tablePairs
  rw [List.mem_mapIdx]
  constructor
  · rintro ⟨i, inside, same⟩
    obtain ⟨rfl, rfl⟩ := Prod.mk.inj same
    rw [toInt_tableKey count inside, show (low.toInt + i - low.toInt).toNat = i by omega]
    exact ⟨by omega, List.getElem?_eq_getElem inside⟩
  · rintro ⟨from_low, at_key⟩
    obtain ⟨inside, same⟩ := List.getElem?_eq_some_iff.1 at_key
    have back : Int32.ofInt (low.toInt + ((key.toInt - low.toInt).toNat : Int)) = key := by
      rw [show low.toInt + ((key.toInt - low.toInt).toNat : Int) = key.toInt by omega,
        Int32.ofInt_toInt]
    exact ⟨_, inside, Prod.ext back same⟩

theorem tableOffset_eq : tableOffset default low high offsets key =
    .ok (pairOffset default (tablePairs low offsets) key) := by
  have below : key < low ↔ key.toInt < low.toInt := Int32.lt_iff_toInt_lt
  have above : high < key ↔ high.toInt < key.toInt := Int32.lt_iff_toInt_lt
  simp only [tableOffset, below, above]
  rcases pairOffset_eq default key (tablePairs low offsets) with
    ⟨before, after, pairs, -⟩ | ⟨others, same⟩
  · generalize pairOffset default (tablePairs low offsets) key = offset at pairs ⊢
    have found : (key, offset) ∈ tablePairs low offsets :=
      pairs ▸ List.mem_append_right before (.head after)
    obtain ⟨from_low, at_key⟩ := (mem_tablePairs_iff count).1 found
    have inside := (List.getElem?_eq_some_iff.1 at_key).1
    rw [if_neg (by omega), at_key]
  · rw [same]
    split
    · rfl
    · have inside : (key.toInt - low.toInt).toNat < offsets.length := by omega
      have found := (mem_tablePairs_iff count).2 ⟨by omega, List.getElem?_eq_getElem inside⟩
      exact absurd rfl (others _ found)

end Table

end Execution

/-! ### Jumps -/

def Condition.Relates : Condition → Int → Int → Prop
  | eq, x, y => x = y
  | ne, x, y => x ≠ y
  | lt, x, y => x < y
  | ge, x, y => y ≤ x
  | gt, x, y => y < x
  | le, x, y => x ≤ y

theorem Condition.holds_eq_true_iff (c : Condition) (x y : Int32) :
    c.holds x y = true ↔ c.Relates x.toInt y.toInt := by
  cases c <;> simp [holds, Relates, Int32.lt_iff_toInt_lt, Int32.le_iff_toInt_le, Int32.toInt_inj]

/-- The instruction takes the operands off the stack, the last one from the top, and then jumps by
the offset. -/
inductive Jumps : Instruction → List Value → Int32 → Prop
  | jump (wide : Bool) (offset : Int32) : Jumps (.jump wide offset) [] offset
  | ifZero {c : Condition} {x : Int32} (taken : c.Relates x.toInt 0) (offset : Int32) :
      Jumps (.ifZero c offset) [.int x] offset
  | ifInts {c : Condition} {x y : Int32} (taken : c.Relates x.toInt y.toInt) (offset : Int32) :
      Jumps (.ifInts c offset) [.int x, .int y] offset
  | ifReferences {equal : Bool} {r r' : Reference} (taken : r = r' ↔ equal = true)
      (offset : Int32) :
      Jumps (.ifReferences equal offset) [.reference r, .reference r'] offset
  | ifNull {isNull : Bool} {r : Reference} (taken : r = .null ↔ isNull = true) (offset : Int32) :
      Jumps (.ifNull isNull offset) [.reference r] offset
  | tableSwitch {code : Array UInt8} {p : Nat} {opcode : UInt8} {default low high : Int32}
      {offsets : List Int32} {c : Cursor}
      (fetched :
        Instruction.fetch ⟨code, p⟩ = .ok (opcode, .tableSwitch default low high offsets) c)
      (key : Int32) :
      Jumps (.tableSwitch default low high offsets) [.int key]
        (Execution.pairOffset default (tablePairs low offsets) key)
  | lookupSwitch (default : Int32) (pairs : List (Int32 × Int32)) (key : Int32) :
      Jumps (.lookupSwitch default pairs) [.int key] (Execution.pairOffset default pairs key)

def Frame.Reaches (f : Frame) (offset : Int32) : Prop :=
  0 ≤ (f.pc : Int) + offset.toInt ∧ (f.pc : Int) + offset.toInt < f.code.size

def Activation.jumped (a : Activation) (offset : Int32) : Activation :=
  { a with frame := { a.frame with nextPc := ((a.frame.pc : Int) + offset.toInt).toNat } }

namespace Execution

variable {a : Activation} {offset : Int32}

theorem branchTarget_of_reaches (reaches : a.frame.Reaches offset) :
    a.frame.branchTarget offset = .ok ((a.frame.pc : Int) + offset.toInt).toNat :=
  if_pos reaches

theorem branchTarget_of_not_reaches (outside : ¬ a.frame.Reaches offset) :
    a.frame.branchTarget offset = .error (.invalidBranchTarget a.frame.pc offset.toInt) :=
  if_neg outside

theorem branch_of_reaches (reaches : a.frame.Reaches offset) :
    branch offset a = .ok () (a.jumped offset) := by
  unfold branch
  rw [get_bind, branchTarget_of_reaches reaches]
  rfl

theorem branch_of_not_reaches (outside : ¬ a.frame.Reaches offset) :
    branch offset a = .error (.invalidBranchTarget a.frame.pc offset.toInt) a := by
  unfold branch
  rw [get_bind, branchTarget_of_not_reaches outside]
  rfl

end Execution

namespace Instruction

open Execution

variable {i : Instruction} {operands rest : List Value} {offset : Int32} {a : Activation}

theorem test_of_true {x : OperandStack.Change Bool}
    (ran : x a.frame.stack = .ok true (a.frame.stack.withValues rest)) :
    test x offset a = proceeding (branch offset) (a.withValues rest) := by
  apply proceeding_congr
  exact bind_onStack ran _

theorem execute_tableSwitch {default low high : Int32} {offsets : List Int32}
    (count : (offsets.length : Int) = high.toInt - low.toInt + 1) (natives : NativeRegistry)
    (callers : List Frame) : (tableSwitch default low high offsets).execute natives callers =
      (lookupSwitch default (tablePairs low offsets)).execute natives callers := by
  have same : Execution.tableSwitch default low high offsets =
      Execution.lookupSwitch default (tablePairs low offsets) := by
    unfold Execution.tableSwitch Execution.lookupSwitch
    simp only [tableOffset_eq count]
    rfl
  exact congrArg proceeding same

/-- What is left of a switch once its key is known. -/
theorem execute_lookupSwitch {default key : Int32} {pairs : List (Int32 × Int32)}
    (natives : NativeRegistry) (callers : List Frame) (wellFormed : a.frame.stack.WellFormed)
    (values : a.frame.stack.values = .int key :: rest) :
    (lookupSwitch default pairs).execute natives callers a =
      proceeding (branch (pairOffset default pairs key)) (a.withValues rest) := by
  apply proceeding_congr
  unfold Execution.lookupSwitch
  rw [bind_onStack (wellFormed.popInt_eq values)]

/-- Every instruction that jumps takes its operands and branches. -/
theorem execute_of_jumps (jumps : Jumps i operands offset) (natives : NativeRegistry)
    (callers : List Frame) (wellFormed : a.frame.stack.WellFormed)
    (values : a.frame.stack.values = operands.reverse ++ rest) :
    i.execute natives callers a = proceeding (branch offset) (a.withValues rest) := by
  cases jumps with
  | jump wide offset =>
    have same : a.frame.stack.values = rest := values
    rw [← same, Activation.withValues, wellFormed.withValues_self]
    rfl
  | ifZero taken offset =>
    apply test_of_true
    unfold Condition.testZero
    rw [bind_of_ok (wellFormed.popInt_eq values), (Condition.holds_eq_true_iff _ _ _).2 taken]
    rfl
  | @ifInts c x y taken offset =>
    apply test_of_true
    have top : a.frame.stack.values = .int y :: .int x :: rest := values
    have beneath := wellFormed.below top
    unfold Condition.testInts
    rw [bind_of_ok (wellFormed.popInt_eq top), bind_of_ok (beneath.popInt_eq rfl),
      (Condition.holds_eq_true_iff _ _ _).2 taken]
    rfl
  | @ifReferences equal r r' taken offset =>
    apply test_of_true
    have top : a.frame.stack.values = .reference r' :: .reference r :: rest := values
    have beneath := wellFormed.below top
    have agree : ((r == r') == equal) = true := by
      rw [beq_iff_eq, Bool.eq_iff_iff, beq_iff_eq]
      exact taken
    unfold Comparison.references
    rw [bind_of_ok (wellFormed.popReference_eq top), bind_of_ok (beneath.popReference_eq rfl),
      agree]
    rfl
  | @ifNull isNull r taken offset =>
    apply test_of_true
    have agree : ((r == .null) == isNull) = true := by
      rw [beq_iff_eq, Bool.eq_iff_iff, beq_iff_eq]
      exact taken
    unfold Comparison.null
    rw [bind_of_ok (wellFormed.popReference_eq values), agree]
    rfl
  | tableSwitch fetched key =>
    obtain ⟨_, _, -, encodes, -⟩ := fetch_eq_ok_iff.1 fetched
    rw [execute_tableSwitch encodes.length_offsets]
    exact execute_lookupSwitch natives callers wellFormed values
  | lookupSwitch default pairs key => exact execute_lookupSwitch natives callers wellFormed values

section Subroutines

variable (wide : Bool) (offset : Int32) (natives : NativeRegistry) (callers : List Frame)

theorem execute_jumpToSubroutine (wellFormed : a.frame.stack.WellFormed)
    (reaches : a.frame.Reaches offset)
    (room : OperandStack.slots a.frame.stack.values < a.frame.stack.maxStack) :
    (jumpToSubroutine wide offset).execute natives callers a = .ok .proceed
      ((a.withValues (.returnAddress a.frame.nextPc :: a.frame.stack.values)).jumped offset) := by
  have fits : OperandStack.slots (.returnAddress a.frame.nextPc :: a.frame.stack.values) ≤
      a.frame.stack.maxStack := by
    rw [OperandStack.slots_cons, Nat.add_comm]
    exact room
  apply proceeding_of_ok
  unfold Execution.jumpToSubroutine
  rw [get_bind, branchTarget_of_reaches reaches]
  exact bind_onStack (OperandStack.push_of_fits wellFormed fits) _

theorem execute_jumpToSubroutine_of_full (wellFormed : a.frame.stack.WellFormed)
    (reaches : a.frame.Reaches offset)
    (full : a.frame.stack.maxStack ≤ OperandStack.slots a.frame.stack.values) :
    (jumpToSubroutine wide offset).execute natives callers a =
      .error (.operandStackOverflow a.frame.stack.maxStack) a := by
  have exceeds : a.frame.stack.maxStack <
      OperandStack.slots (.returnAddress a.frame.nextPc :: a.frame.stack.values) := by
    rw [OperandStack.slots_cons, Nat.add_comm]
    exact Nat.lt_succ_of_le full
  have refused := OperandStack.push_of_full wellFormed exceeds
  apply proceeding_of_error
  unfold Execution.jumpToSubroutine
  rw [get_bind, branchTarget_of_reaches reaches]
  exact bind_of_error (x := onStack _) (onStack_eq_error.2 ⟨_, refused, rfl⟩)

theorem execute_jumpToSubroutine_of_outside (outside : ¬ a.frame.Reaches offset) :
    (jumpToSubroutine wide offset).execute natives callers a =
      .error (.invalidBranchTarget a.frame.pc offset.toInt) a := by
  apply proceeding_of_error
  unfold Execution.jumpToSubroutine
  rw [get_bind, branchTarget_of_not_reaches outside]
  rfl

end Subroutines

/-- A fetched table switches as its pairs do, whose keys are the numbers from the low bound on. The
offset for a key is that of the first pair with it, or the default. What jumps goes on at its offset
from the instruction if that is in the code and fails otherwise. A call of a subroutine does so too
and leaves the position after it on the stack, but if it is to go on in the code it needs room
there. -/
theorem branches_exact (natives : NativeRegistry) (callers : List Frame) :
    (∀ code p opcode default low high offsets c,
      fetch ⟨code, p⟩ = .ok (opcode, .tableSwitch default low high offsets) c →
      (tableSwitch default low high offsets).execute natives callers =
        (lookupSwitch default (tablePairs low offsets)).execute natives callers ∧
      ∀ (i : Nat) offset, offsets[i]? = some offset → ∃ key : Int32, key.toInt = low.toInt + i ∧
        (tablePairs low offsets)[i]? = some (key, offset)) ∧
    (∀ default key pairs,
      (∃ before after, pairs = before ++ (key, pairOffset default pairs key) :: after ∧
        ∀ pair ∈ before, pair.1 ≠ key) ∨
      (∀ pair ∈ pairs, pair.1 ≠ key) ∧ pairOffset default pairs key = default) ∧
    ∀ a : Activation, a.frame.stack.WellFormed →
      (∀ i operands offset rest, Jumps i operands offset →
        a.frame.stack.values = operands.reverse ++ rest →
        (a.frame.Reaches offset →
          i.execute natives callers a = .ok .proceed ((a.withValues rest).jumped offset)) ∧
        (¬ a.frame.Reaches offset → i.execute natives callers a =
          .error (.invalidBranchTarget a.frame.pc offset.toInt) (a.withValues rest))) ∧
      ∀ wide offset,
        (a.frame.Reaches offset →
          OperandStack.slots a.frame.stack.values < a.frame.stack.maxStack →
          (jumpToSubroutine wide offset).execute natives callers a = .ok .proceed ((a.withValues
            (.returnAddress a.frame.nextPc :: a.frame.stack.values)).jumped offset)) ∧
        (a.frame.Reaches offset →
          a.frame.stack.maxStack ≤ OperandStack.slots a.frame.stack.values →
          (jumpToSubroutine wide offset).execute natives callers a =
            .error (.operandStackOverflow a.frame.stack.maxStack) a) ∧
        (¬ a.frame.Reaches offset → (jumpToSubroutine wide offset).execute natives callers a =
          .error (.invalidBranchTarget a.frame.pc offset.toInt) a) := by
  refine ⟨?_, pairOffset_eq, ?_⟩
  · intro code p opcode default low high offsets c fetched
    obtain ⟨_, _, -, encodes, -⟩ := fetch_eq_ok_iff.1 fetched
    have count := encodes.length_offsets
    refine ⟨execute_tableSwitch count natives callers, fun i offset at_index => ?_⟩
    have inside := (List.getElem?_eq_some_iff.1 at_index).1
    refine ⟨_, toInt_tableKey count inside, ?_⟩
    rw [tablePairs, List.getElem?_mapIdx, at_index]
    rfl
  · intro a wellFormed
    refine ⟨?_, fun wide offset => ⟨?_, ?_, ?_⟩⟩
    · intro i operands offset rest jumps values
      rw [execute_of_jumps jumps natives callers wellFormed values]
      exact ⟨fun reaches => proceeding_of_ok (branch_of_reaches reaches),
        fun outside => proceeding_of_error (branch_of_not_reaches outside)⟩
    · exact execute_jumpToSubroutine wide offset natives callers wellFormed
    · exact execute_jumpToSubroutine_of_full wide offset natives callers wellFormed
    · exact execute_jumpToSubroutine_of_outside wide offset natives callers

def startingAt (code : Array UInt8) (nextPc : Nat) (values : List Value) (maxStack : Nat) :
    Activation where
  frame :=
    { owner := 0
      method := { (default : Method) with body := some ⟨0, 0, code, []⟩ }
      pc := 0
      nextPc := nextPc
      locals := .empty 0
      stack := ⟨values, OperandStack.slots values, maxStack⟩ }
  world := .empty .working 0

def switchingCode : Array UInt8 :=
  #[0xaa, 0, 0, 0, 0, 0, 0, 24, 0xff, 0xff, 0xff, 0xff, 0, 0, 0, 0, 0, 0, 0, 25, 0x80, 0, 0, 0,
    0xb1, 0xb1]

/-- The table switches to its last instruction for the key -1 and fails for the key 0; a subroutine
is called where there is room. -/
theorem branches_exact_switching :
    fetch ⟨switchingCode, 0⟩ =
      .ok (0xaa, .tableSwitch 24 (-1) 0 [25, -2147483648]) ⟨switchingCode, 24⟩ ∧
    (tableSwitch 24 (-1) 0 [25, -2147483648]).execute .standard [] =
      (lookupSwitch 24 [(-1, 25), (0, -2147483648)]).execute .standard [] ∧
    (tableSwitch 24 (-1) 0 [25, -2147483648]).execute .standard []
        (startingAt switchingCode 24 [.int (-1)] 1) =
      .ok .proceed (startingAt switchingCode 25 [] 1) ∧
    (tableSwitch 24 (-1) 0 [25, -2147483648]).execute .standard []
        (startingAt switchingCode 24 [.int 0] 1) =
      .error (.invalidBranchTarget 0 (-2147483648)) (startingAt switchingCode 24 [] 1) ∧
    (jumpToSubroutine false 4).execute .standard []
        (startingAt #[0xa8, 0, 4, 0xb1, 0xb1] 3 [] 1) =
      .ok .proceed (startingAt #[0xa8, 0, 4, 0xb1, 0xb1] 4 [.returnAddress 3] 1) := by
  have fetched : fetch ⟨switchingCode, 0⟩ =
      .ok (0xaa, .tableSwitch 24 (-1) 0 [25, -2147483648]) ⟨switchingCode, 24⟩ := rfl
  obtain ⟨tables, -, jumps⟩ := branches_exact .standard []
  obtain ⟨switched, -⟩ := jumps (startingAt switchingCode 24 [.int (-1)] 1) ⟨rfl, by decide⟩
  obtain ⟨refused, -⟩ := jumps (startingAt switchingCode 24 [.int 0] 1) ⟨rfl, by decide⟩
  obtain ⟨-, called⟩ := jumps (startingAt #[0xa8, 0, 4, 0xb1, 0xb1] 3 [] 1) ⟨rfl, by decide⟩
  exact ⟨fetched, (tables _ _ _ _ _ _ _ _ fetched).1,
    (switched _ _ _ [] (.tableSwitch fetched (-1)) rfl).1 ⟨by decide, by decide⟩,
    (refused _ _ _ [] (.tableSwitch fetched 0) rfl).2 (fun reaches => absurd reaches.1 (by decide)),
    (called false 4).1 ⟨by decide, by decide⟩ (by decide)⟩

/-- On a full stack a call of a subroutine fails, although it is to go on in the code. -/
theorem jumpToSubroutine_without_room :
    fetch ⟨#[0xa8, 0, 4, 0xb1, 0xb1], 0⟩ =
      .ok (0xa8, jumpToSubroutine false 4) ⟨#[0xa8, 0, 4, 0xb1, 0xb1], 3⟩ ∧
    (startingAt #[0xa8, 0, 4, 0xb1, 0xb1] 3 [] 0).frame.stack.WellFormed ∧
    (startingAt #[0xa8, 0, 4, 0xb1, 0xb1] 3 [] 0).frame.Reaches 4 ∧
    (jumpToSubroutine false 4).execute .standard [] (startingAt #[0xa8, 0, 4, 0xb1, 0xb1] 3 [] 0) =
      .error (.operandStackOverflow 0) (startingAt #[0xa8, 0, 4, 0xb1, 0xb1] 3 [] 0) :=
  ⟨rfl, ⟨rfl, by decide⟩, ⟨by decide, by decide⟩, rfl⟩

end Instruction

end JavaMachine

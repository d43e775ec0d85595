import JavaMachine.Code.Instruction
import JavaMachine.Proofs.ExactReading

/-!
# The format of instructions

For every opcode, the operands that follow it and the instruction that they make. The tables list
the opcodes one by one, in the order of their numbers, and say nothing about how an instruction is
read.
-/
namespace JavaMachine

namespace Instruction

open Cursor

/-- How the operands of an opcode are laid out, and the instruction that they make. -/
inductive Form
  | plain (instruction : Instruction)
  /-- An index in one byte. -/
  | index8 (make : UInt16 → Instruction)
  | index16 (make : UInt16 → Instruction)
  /-- A signed number in one byte. -/
  | int8 (make : Int32 → Instruction)
  | int16 (make : Int32 → Instruction)
  | int32 (make : Int32 → Instruction)
  | tag (make : UInt8 → Instruction)
  | increment
  | wideIncrement
  | invokeInterface
  | invokeDynamic
  | newMultiArray
  | tableSwitch
  | lookupSwitch

def constantForms : List (UInt8 × Form) :=
  [(0x00, .plain nop), (0x01, .plain pushNull), (0x02, .plain (pushInt (-1))),
    (0x03, .plain (pushInt 0)), (0x04, .plain (pushInt 1)), (0x05, .plain (pushInt 2)),
    (0x06, .plain (pushInt 3)), (0x07, .plain (pushInt 4)), (0x08, .plain (pushInt 5))] ++
  [0x09, 0x0a].zip ((List.finRange 2).map (.plain ∘ pushLong)) ++
  [0x0b, 0x0c, 0x0d].zip ((List.finRange 3).map (.plain ∘ pushFloat)) ++
  [0x0e, 0x0f].zip ((List.finRange 2).map (.plain ∘ pushDouble)) ++
  [(0x10, .int8 pushInt), (0x11, .int16 pushInt),
    (0x12, .index8 pushConstant), (0x13, .index16 pushConstant), (0x14, .index16 pushWideConstant)]

def loadForms : List (UInt8 × Form) :=
  [(0x15, .index8 (load .int)), (0x16, .index8 (load .long)), (0x17, .index8 (load .float)),
    (0x18, .index8 (load .double)), (0x19, .index8 (load .reference)),
    (0x1a, .plain (load .int 0)), (0x1b, .plain (load .int 1)),
    (0x1c, .plain (load .int 2)), (0x1d, .plain (load .int 3)),
    (0x1e, .plain (load .long 0)), (0x1f, .plain (load .long 1)),
    (0x20, .plain (load .long 2)), (0x21, .plain (load .long 3)),
    (0x22, .plain (load .float 0)), (0x23, .plain (load .float 1)),
    (0x24, .plain (load .float 2)), (0x25, .plain (load .float 3)),
    (0x26, .plain (load .double 0)), (0x27, .plain (load .double 1)),
    (0x28, .plain (load .double 2)), (0x29, .plain (load .double 3)),
    (0x2a, .plain (load .reference 0)), (0x2b, .plain (load .reference 1)),
    (0x2c, .plain (load .reference 2)), (0x2d, .plain (load .reference 3)),
    (0x2e, .plain (arrayLoad .int)), (0x2f, .plain (arrayLoad .long)),
    (0x30, .plain (arrayLoad .float)), (0x31, .plain (arrayLoad .double)),
    (0x32, .plain (arrayLoad .reference)), (0x33, .plain (arrayLoad .byte)),
    (0x34, .plain (arrayLoad .char)), (0x35, .plain (arrayLoad .short))]

def storeForms : List (UInt8 × Form) :=
  [(0x36, .index8 (store .int)), (0x37, .index8 (store .long)), (0x38, .index8 (store .float)),
    (0x39, .index8 (store .double)), (0x3a, .index8 (store .reference)),
    (0x3b, .plain (store .int 0)), (0x3c, .plain (store .int 1)),
    (0x3d, .plain (store .int 2)), (0x3e, .plain (store .int 3)),
    (0x3f, .plain (store .long 0)), (0x40, .plain (store .long 1)),
    (0x41, .plain (store .long 2)), (0x42, .plain (store .long 3)),
    (0x43, .plain (store .float 0)), (0x44, .plain (store .float 1)),
    (0x45, .plain (store .float 2)), (0x46, .plain (store .float 3)),
    (0x47, .plain (store .double 0)), (0x48, .plain (store .double 1)),
    (0x49, .plain (store .double 2)), (0x4a, .plain (store .double 3)),
    (0x4b, .plain (store .reference 0)), (0x4c, .plain (store .reference 1)),
    (0x4d, .plain (store .reference 2)), (0x4e, .plain (store .reference 3)),
    (0x4f, .plain (arrayStore .int)), (0x50, .plain (arrayStore .long)),
    (0x51, .plain (arrayStore .float)), (0x52, .plain (arrayStore .double)),
    (0x53, .plain (arrayStore .reference)), (0x54, .plain (arrayStore .byte)),
    (0x55, .plain (arrayStore .char)), (0x56, .plain (arrayStore .short))]

def stackForms : List (UInt8 × Form) :=
  [(0x57, .plain (stack .pop)), (0x58, .plain (stack .pop2)),
    (0x59, .plain (stack .dup)), (0x5a, .plain (stack .dupX1)), (0x5b, .plain (stack .dupX2)),
    (0x5c, .plain (stack .dup2)), (0x5d, .plain (stack .dup2X1)), (0x5e, .plain (stack .dup2X2)),
    (0x5f, .plain (stack .swap))]

def mathForms : List (UInt8 × Form) :=
  [(0x60, .plain (arithmetic .add .int)), (0x61, .plain (arithmetic .add .long)),
    (0x62, .plain (arithmetic .add .float)), (0x63, .plain (arithmetic .add .double)),
    (0x64, .plain (arithmetic .sub .int)), (0x65, .plain (arithmetic .sub .long)),
    (0x66, .plain (arithmetic .sub .float)), (0x67, .plain (arithmetic .sub .double)),
    (0x68, .plain (arithmetic .mul .int)), (0x69, .plain (arithmetic .mul .long)),
    (0x6a, .plain (arithmetic .mul .float)), (0x6b, .plain (arithmetic .mul .double)),
    (0x6c, .plain (arithmetic .div .int)), (0x6d, .plain (arithmetic .div .long)),
    (0x6e, .plain (arithmetic .div .float)), (0x6f, .plain (arithmetic .div .double)),
    (0x70, .plain (arithmetic .rem .int)), (0x71, .plain (arithmetic .rem .long)),
    (0x72, .plain (arithmetic .rem .float)), (0x73, .plain (arithmetic .rem .double)),
    (0x74, .plain (negate .int)), (0x75, .plain (negate .long)),
    (0x76, .plain (negate .float)), (0x77, .plain (negate .double)),
    (0x78, .plain (shift .left .int)), (0x79, .plain (shift .left .long)),
    (0x7a, .plain (shift .right .int)), (0x7b, .plain (shift .right .long)),
    (0x7c, .plain (shift .unsignedRight .int)), (0x7d, .plain (shift .unsignedRight .long)),
    (0x7e, .plain (bitwise .and .int)), (0x7f, .plain (bitwise .and .long)),
    (0x80, .plain (bitwise .or .int)), (0x81, .plain (bitwise .or .long)),
    (0x82, .plain (bitwise .xor .int)), (0x83, .plain (bitwise .xor .long)),
    (0x84, .increment)]

def conversionForms : List (UInt8 × Form) :=
  [(0x85, .plain (convert .intToLong)), (0x86, .plain (convert .intToFloat)),
    (0x87, .plain (convert .intToDouble)),
    (0x88, .plain (convert .longToInt)), (0x89, .plain (convert .longToFloat)),
    (0x8a, .plain (convert .longToDouble)),
    (0x8b, .plain (convert .floatToInt)), (0x8c, .plain (convert .floatToLong)),
    (0x8d, .plain (convert .floatToDouble)),
    (0x8e, .plain (convert .doubleToInt)), (0x8f, .plain (convert .doubleToLong)),
    (0x90, .plain (convert .doubleToFloat)),
    (0x91, .plain (convert .intToByte)), (0x92, .plain (convert .intToChar)),
    (0x93, .plain (convert .intToShort))]

def comparisonForms : List (UInt8 × Form) :=
  [(0x94, .plain compareLong),
    (0x95, .plain (compareFloat false)), (0x96, .plain (compareFloat true)),
    (0x97, .plain (compareDouble false)), (0x98, .plain (compareDouble true)),
    (0x99, .int16 (ifZero .eq)), (0x9a, .int16 (ifZero .ne)), (0x9b, .int16 (ifZero .lt)),
    (0x9c, .int16 (ifZero .ge)), (0x9d, .int16 (ifZero .gt)), (0x9e, .int16 (ifZero .le)),
    (0x9f, .int16 (ifInts .eq)), (0xa0, .int16 (ifInts .ne)), (0xa1, .int16 (ifInts .lt)),
    (0xa2, .int16 (ifInts .ge)), (0xa3, .int16 (ifInts .gt)), (0xa4, .int16 (ifInts .le)),
    (0xa5, .int16 (ifReferences true)), (0xa6, .int16 (ifReferences false))]

def controlForms : List (UInt8 × Form) :=
  [(0xa7, .int16 (jump false)), (0xa8, .int16 (jumpToSubroutine false)),
    (0xa9, .index8 returnFromSubroutine), (0xaa, .tableSwitch), (0xab, .lookupSwitch),
    (0xac, .plain (returnValue .int)), (0xad, .plain (returnValue .long)),
    (0xae, .plain (returnValue .float)), (0xaf, .plain (returnValue .double)),
    (0xb0, .plain (returnValue .reference)), (0xb1, .plain returnVoid)]

def referenceForms : List (UInt8 × Form) :=
  [(0xb2, .index16 getStatic), (0xb3, .index16 putStatic),
    (0xb4, .index16 getField), (0xb5, .index16 putField),
    (0xb6, .index16 invokeVirtual), (0xb7, .index16 invokeSpecial), (0xb8, .index16 invokeStatic),
    (0xb9, .invokeInterface), (0xba, .invokeDynamic),
    (0xbb, .index16 newObject), (0xbc, .tag newPrimitiveArray), (0xbd, .index16 newReferenceArray),
    (0xbe, .plain arrayLength), (0xbf, .plain throwException),
    (0xc0, .index16 checkCast), (0xc1, .index16 instanceOf),
    (0xc2, .plain enterMonitor), (0xc3, .plain leaveMonitor)]

/-- All but the opcode that widens the operands of others, which is 0xc4. -/
def extendedForms : List (UInt8 × Form) :=
  [(0xc5, .newMultiArray), (0xc6, .int16 (ifNull true)), (0xc7, .int16 (ifNull false)),
    (0xc8, .int32 (jump true)), (0xc9, .int32 (jumpToSubroutine true))]

def forms : List (UInt8 × Form) :=
  constantForms ++ loadForms ++ storeForms ++ stackForms ++ mathForms ++ conversionForms ++
    comparisonForms ++ controlForms ++ referenceForms ++ extendedForms

/-- The opcodes that may follow 0xc4, with the operands they have there. -/
def wideForms : List (UInt8 × Form) :=
  [(0x15, .index16 (load .int)), (0x16, .index16 (load .long)), (0x17, .index16 (load .float)),
    (0x18, .index16 (load .double)), (0x19, .index16 (load .reference)),
    (0x36, .index16 (store .int)), (0x37, .index16 (store .long)), (0x38, .index16 (store .float)),
    (0x39, .index16 (store .double)), (0x3a, .index16 (store .reference)),
    (0x84, .wideIncrement), (0xa9, .index16 returnFromSubroutine)]

def flat : List (Int32 × Int32) → List Int32
  | [] => []
  | (key, offset) :: rest => key :: offset :: flat rest

/-- The operands, the first of them `p` bytes into the code, and the instruction they make. -/
def Form.Lays (p : Nat) : Form → Format Instruction
  | plain made => fun bytes i => bytes = [] ∧ i = made
  | index8 make => fun bytes i => ∃ index : UInt8, bytes = [index] ∧ i = make index.toUInt16
  | index16 make => fun bytes i => ∃ index, bytes = shortBytes index ∧ i = make index
  | int8 make => fun bytes i => ∃ n : Int8, bytes = [n.toUInt8] ∧ i = make n.toInt32
  | int16 make => fun bytes i => ∃ n : Int16, bytes = shortBytes n.toUInt16 ∧ i = make n.toInt32
  | int32 make => fun bytes i => ∃ n : Int32, bytes = intBytes n.toUInt32 ∧ i = make n
  | tag make => fun bytes i => ∃ n, bytes = [n] ∧ i = make n
  | increment => fun bytes i => ∃ (index : UInt8) (amount : Int8),
      bytes = [index, amount.toUInt8] ∧ i = .increment index.toUInt16 amount.toInt16
  | wideIncrement => fun bytes i => ∃ (index : UInt16) (amount : Int16),
      bytes = shortBytes index ++ shortBytes amount.toUInt16 ∧ i = .increment index amount
  -- The last byte is zero by convention.
  | invokeInterface => fun bytes i => ∃ (index : UInt16) (count last : UInt8),
      bytes = shortBytes index ++ [count, last] ∧ i = .invokeInterface index count
  -- The last two bytes are zero by convention.
  | invokeDynamic => fun bytes i => ∃ (index last : UInt16),
      bytes = shortBytes index ++ shortBytes last ∧ i = .invokeDynamic index
  | newMultiArray => fun bytes i => ∃ (index : UInt16) (dimensions : UInt8),
      bytes = shortBytes index ++ [dimensions] ∧ i = .newMultiArray index dimensions
  | tableSwitch => fun bytes i => ∃ (skipped : List UInt8) (default low high : Int32)
      (offsets : List Int32), Pads p skipped ∧ low ≤ high ∧
      (offsets.length : Int) = high.toInt - low.toInt + 1 ∧
      bytes = skipped ++ intBytes default.toUInt32 ++ intBytes low.toUInt32 ++
        intBytes high.toUInt32 ++ tableBytes offsets ∧
      i = .tableSwitch default low high offsets
  | lookupSwitch => fun bytes i => ∃ (skipped : List UInt8) (default count : Int32)
      (pairs : List (Int32 × Int32)), Pads p skipped ∧ count.toInt = pairs.length ∧
      bytes = skipped ++ intBytes default.toUInt32 ++ intBytes count.toUInt32 ++
        tableBytes (flat pairs) ∧
      i = .lookupSwitch default pairs

/-- The opcode at `p` with the operands after it makes the instruction. -/
inductive Encodes (p : Nat) : UInt8 → Format Instruction
  | short {opcode form operands i} : (opcode, form) ∈ forms → form.Lays (p + 1) operands i →
      Encodes p opcode operands i
  | wide {widened form operands i} : (widened, form) ∈ wideForms → form.Lays (p + 2) operands i →
      Encodes p 0xc4 (widened :: operands) i

/-! ### Which opcodes there are -/

def opcodes (table : List (UInt8 × Form)) : List Nat := table.map (·.1.toNat)

theorem mem_opcodes {table : List (UInt8 × Form)} {opcode : UInt8} :
    opcode.toNat ∈ opcodes table ↔ ∃ form, (opcode, form) ∈ table := by
  simp [opcodes, UInt8.toNat_inj]

theorem opcodes_forms : opcodes forms = (List.range 0xca).filter (· ≠ 0xc4) := by decide +kernel

theorem opcodes_wideForms : opcodes wideForms =
    [0x15, 0x16, 0x17, 0x18, 0x19, 0x36, 0x37, 0x38, 0x39, 0x3a, 0x84, 0xa9] := rfl

theorem exists_mem_forms {opcode : UInt8} :
    (∃ form, (opcode, form) ∈ forms) ↔ opcode.toNat < 0xca ∧ opcode.toNat ≠ 0xc4 := by
  rw [← mem_opcodes, opcodes_forms]
  simp

/-- Every form has operands, wherever they start. -/
theorem Form.exists_lays (form : Form) (p : Nat) : ∃ operands i, form.Lays p operands i := by
  have pads : Pads p (List.replicate (padding p) 0) := pads_iff.2 List.length_replicate
  cases form with
  | plain made => exact ⟨_, _, rfl, rfl⟩
  | index8 make => exact ⟨_, _, 0, rfl, rfl⟩
  | index16 make => exact ⟨_, _, 0, rfl, rfl⟩
  | int8 make => exact ⟨_, _, 0, rfl, rfl⟩
  | int16 make => exact ⟨_, _, 0, rfl, rfl⟩
  | int32 make => exact ⟨_, _, 0, rfl, rfl⟩
  | tag make => exact ⟨_, _, 0, rfl, rfl⟩
  | increment => exact ⟨_, _, 0, 0, rfl, rfl⟩
  | wideIncrement => exact ⟨_, _, 0, 0, rfl, rfl⟩
  | invokeInterface => exact ⟨_, _, 0, 0, 0, rfl, rfl⟩
  | invokeDynamic => exact ⟨_, _, 0, 0, rfl, rfl⟩
  | newMultiArray => exact ⟨_, _, 0, 0, rfl, rfl⟩
  | tableSwitch => exact ⟨_, _, _, 0, 0, 0, [0], pads, by decide, by decide, rfl, rfl⟩
  | lookupSwitch => exact ⟨_, _, _, 0, 0, [], pads, by decide, rfl, rfl⟩

/-- The opcodes with an instruction are those up to 0xc9. -/
theorem exists_encodes {opcode : UInt8} (p : Nat) :
    (∃ operands i, Encodes p opcode operands i) ↔ opcode ≤ 0xc9 := by
  rw [UInt8.le_iff_toNat_le]
  constructor
  · rintro ⟨operands, i, ⟨mem, -⟩ | _⟩
    · exact Nat.le_of_lt_succ (exists_mem_forms.1 ⟨_, mem⟩).1
    · decide
  · intro small
    by_cases narrow : opcode = 0xc4
    · subst narrow
      obtain ⟨operands, i, lays⟩ := (Form.index16 (load .int)).exists_lays (p + 2)
      exact ⟨0x15 :: operands, i, .wide (by simp [wideForms]) lays⟩
    · have other : opcode.toNat ≠ 0xc4 := fun h => narrow (UInt8.toNat_inj.1 h)
      obtain ⟨form, mem⟩ := exists_mem_forms.2 ⟨Nat.lt_succ_of_le small, other⟩
      obtain ⟨operands, i, lays⟩ := form.exists_lays (p + 1)
      exact ⟨operands, i, .short mem lays⟩

/-! ### Switches -/

def isSwitch : Instruction → Bool
  | tableSwitch _ _ _ _ | lookupSwitch _ _ => true
  | _ => false

def Form.isAligned : Form → Bool
  | tableSwitch | lookupSwitch => true
  | _ => false

variable {p q : Nat} {operands : List UInt8} {i : Instruction}

theorem Form.lays_of_not_isAligned {form : Form} (free : form.isAligned = false)
    (h : form.Lays p operands i) : form.Lays q operands i := by
  cases form <;> first | exact h | cases free

theorem pads_congr {bytes : List UInt8} (same : q % 4 = p % 4) : Pads q bytes ↔ Pads p bytes := by
  unfold Pads
  omega

theorem Form.lays_of_mod_eq {form : Form} (same : q % 4 = p % 4) (h : form.Lays p operands i) :
    form.Lays q operands i := by
  cases form with
  | tableSwitch =>
    obtain ⟨skipped, default, low, high, offsets, pads, rest⟩ := h
    exact ⟨skipped, default, low, high, offsets, (pads_congr same).2 pads, rest⟩
  | lookupSwitch =>
    obtain ⟨skipped, default, count, pairs, pads, rest⟩ := h
    exact ⟨skipped, default, count, pairs, (pads_congr same).2 pads, rest⟩
  | _ => exact lays_of_not_isAligned rfl h

theorem opcode_of_isAligned :
    ∀ e ∈ forms, e.2.isAligned = true → e.1 = 0xaa ∨ e.1 = 0xab := by decide +kernel

theorem isAligned_of_mem_wideForms : ∀ e ∈ wideForms, e.2.isAligned = false := by decide

/-- Where the instruction stands matters to the switches only, and to them only up to alignment. -/
theorem Encodes.moved {opcode : UInt8} (h : Encodes p opcode operands i)
    (aligned : opcode = 0xaa ∨ opcode = 0xab → q % 4 = p % 4) : Encodes q opcode operands i := by
  cases h with
  | @short _ form _ _ mem lays =>
    by_cases switch : form.isAligned = true
    · have same := aligned (opcode_of_isAligned _ mem switch)
      exact .short mem (Form.lays_of_mod_eq (by omega) lays)
    · exact .short mem (Form.lays_of_not_isAligned (by simpa using switch) lays)
  | wide mem lays =>
    exact .wide mem (Form.lays_of_not_isAligned (isAligned_of_mem_wideForms _ mem) lays)

/-- The form makes no switch out of operands that are not those of a switch. -/
def Form.Ordinary : Form → Prop
  | plain made => made.isSwitch = false
  | index8 make | index16 make => ∀ n, (make n).isSwitch = false
  | int8 make | int16 make | int32 make => ∀ n, (make n).isSwitch = false
  | tag make => ∀ n, (make n).isSwitch = false
  | _ => True

theorem ordinary_of_mem_forms : ∀ e ∈ forms, e.2.Ordinary := by
  simp only [forms, List.forall_mem_append]
  and_intros
  all_goals
    simp only [constantForms, loadForms, storeForms, stackForms, mathForms, conversionForms,
      comparisonForms, controlForms, referenceForms, extendedForms, List.forall_mem_append,
      List.finRange_succ, List.finRange_zero, List.map_cons, List.map_nil, List.zip_cons_cons,
      List.zip_nil_right, List.forall_mem_cons, List.not_mem_nil, IsEmpty.forall_iff,
      implies_true, and_true]
    and_intros <;> first | exact rfl | exact fun _ => rfl | trivial

theorem ordinary_of_mem_wideForms : ∀ e ∈ wideForms, e.2.Ordinary := by
  simp [wideForms, Form.Ordinary, isSwitch]

theorem Form.isAligned_of_isSwitch {form : Form} (ordinary : form.Ordinary)
    (h : form.Lays p operands i) (switch : i.isSwitch = true) : form.isAligned = true := by
  cases form with
  | tableSwitch | lookupSwitch => rfl
  | plain made =>
    obtain ⟨rfl, rfl⟩ := h
    rw [ordinary] at switch
    cases switch
  | index8 make | index16 make | int8 make | int16 make | int32 make | tag make =>
    obtain ⟨n, rfl, rfl⟩ := h
    rw [ordinary] at switch
    cases switch
  | increment | wideIncrement | invokeDynamic | newMultiArray =>
    obtain ⟨m, n, rfl, rfl⟩ := h
    cases switch
  | invokeInterface =>
    obtain ⟨m, n, k, rfl, rfl⟩ := h
    cases switch

theorem Encodes.lays_of_isSwitch {opcode : UInt8} (h : Encodes p opcode operands i)
    (switch : i.isSwitch = true) :
    ∃ form : Form, form.isAligned = true ∧ form.Lays (p + 1) operands i := by
  cases h with
  | @short _ form _ _ mem lays =>
    exact ⟨form, Form.isAligned_of_isSwitch (ordinary_of_mem_forms _ mem) lays switch, lays⟩
  | wide mem lays =>
    have := Form.isAligned_of_isSwitch (ordinary_of_mem_wideForms _ mem) lays switch
    rw [isAligned_of_mem_wideForms _ mem] at this
    cases this

theorem Encodes.length_offsets {opcode : UInt8} {default low high : Int32} {offsets : List Int32}
    (h : Encodes p opcode operands (.tableSwitch default low high offsets)) :
    (offsets.length : Int) = high.toInt - low.toInt + 1 := by
  obtain ⟨form, aligned, lays⟩ := h.lays_of_isSwitch rfl
  cases form with
  | tableSwitch =>
    obtain ⟨_, _, _, _, _, -, -, count, -, same⟩ := lays
    cases same
    exact count
  | lookupSwitch =>
    obtain ⟨_, _, _, _, -, -, -, same⟩ := lays
    cases same
  | _ => cases aligned

theorem Encodes.length_pairs {opcode : UInt8} {default : Int32} {pairs : List (Int32 × Int32)}
    (h : Encodes p opcode operands (.lookupSwitch default pairs)) :
    ∃ (skipped rest : List UInt8) (count : Int32), Pads (p + 1) skipped ∧
      operands = skipped ++ intBytes default.toUInt32 ++ intBytes count.toUInt32 ++ rest ∧
      count.toInt = pairs.length := by
  obtain ⟨form, aligned, lays⟩ := h.lays_of_isSwitch rfl
  cases form with
  | tableSwitch =>
    obtain ⟨_, _, _, _, _, -, -, -, -, same⟩ := lays
    cases same
  | lookupSwitch =>
    obtain ⟨skipped, _, count, _, pads, length, rfl, same⟩ := lays
    cases same
    exact ⟨skipped, _, count, pads, rfl, length⟩
  | _ => cases aligned

end Instruction

end JavaMachine

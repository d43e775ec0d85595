import JavaMachine.Code.Decode
import JavaMachine.Proofs.InstructionFormat

/-!
# Decoding

The decoder is compared with the tables of the format opcode by opcode, and the operands of each
form are shown to be read exactly as they are laid out. With both, a fetch takes the bytes of an
instruction and no others.
-/
namespace JavaMachine

namespace Instruction

open Cursor

variable {p : Nat}

/-! ### Operands of each form -/

def Form.read : Form → Reading Instruction
  | plain i => pure i
  | index8 make => do return make (← readIndex)
  | index16 make => do return make (← readU16)
  | int8 make => do return make (← readI8).toInt32
  | int16 make => do return make (← readOffset)
  | int32 make => do return make (← readI32)
  | tag make => do return make (← readU8)
  | increment => do
    let index ← readIndex
    return .increment index (← readI8).toInt16
  | wideIncrement => do
    let index ← readU16
    return .increment index (← readI16)
  | invokeInterface => do
    let index ← readU16
    let count ← readU8
    let _ ← readU8
    return .invokeInterface index count
  | invokeDynamic => do
    let index ← readU16
    let _ ← readU16
    return .invokeDynamic index
  | newMultiArray => do
    let index ← readU16
    return .newMultiArray index (← readU8)
  | tableSwitch => readTableSwitch
  | lookupSwitch => readLookupSwitch

theorem readOperands_signed : readOperands 0x11 = (Form.int16 pushInt).read := by
  simp [readOperands, readConstant, Form.read, readOffset]

theorem readOperands_narrow : readOperands 0x12 = (Form.index8 pushConstant).read := by
  simp [readOperands, readConstant, Form.read, readIndex]

/-- The decoder reads the operands that the table gives. -/
theorem readOperands_of_mem : ∀ e ∈ forms, readOperands e.1 = e.2.read := by
  simp only [forms, List.forall_mem_append]
  and_intros
  all_goals
    simp only [constantForms, loadForms, storeForms, stackForms, mathForms, conversionForms,
      comparisonForms, controlForms, referenceForms, extendedForms, List.forall_mem_append,
      List.finRange_succ, List.finRange_zero, Fin.succ_zero_eq_one, Fin.succ_one_eq_two,
      List.map_cons, List.map_nil, List.zip_cons_cons, List.zip_nil_right, List.forall_mem_cons,
      List.not_mem_nil, IsEmpty.forall_iff, implies_true, and_true]
    and_intros <;> first
      | with_reducible exact readOperands_signed
      | with_reducible exact readOperands_narrow
      | cbv

/-! ### Exactness of each form -/

theorem exact_readIndex :
    Exact p readIndex fun bytes n => ∃ index : UInt8, bytes = [index] ∧ n = index.toUInt16 :=
  exact_readU8.map

theorem exact_readOffset :
    Exact p readOffset fun bytes n =>
      ∃ offset : Int16, bytes = shortBytes offset.toUInt16 ∧ n = offset.toInt32 :=
  exact_readI16.map

theorem flat_pairsOf {k : Nat} {numbers : List Int32} (even : numbers.length = 2 * k) :
    (pairsOf numbers).length = k ∧ flat (pairsOf numbers) = numbers := by
  induction k generalizing numbers with
  | zero =>
    cases List.length_eq_zero_iff.1 even
    exact ⟨rfl, rfl⟩
  | succ k ih =>
    match numbers, even with
    | key :: offset :: rest, even =>
      have fewer : rest.length = 2 * k := by
        simp only [List.length_cons] at even
        omega
      obtain ⟨count, same⟩ := ih fewer
      simp [pairsOf, flat, count, same]

theorem pairsOf_flat (pairs : List (Int32 × Int32)) :
    pairsOf (flat pairs) = pairs ∧ (flat pairs).length = 2 * pairs.length := by
  induction pairs with
  | nil => exact ⟨rfl, rfl⟩
  | cons pair pairs ih =>
    simp only [flat, pairsOf, ih.1, List.length_cons, ih.2, true_and]
    omega

theorem exact_readTableSwitch : Exact p readTableSwitch (Form.tableSwitch.Lays p) := by
  unfold readTableSwitch
  refine (exact_align.bind fun _ => exact_readI32.bind fun _ => exact_readI32.bind fun _ =>
    exact_readI32.bind fun _ => (exact_readI32s _).map.guard fun c => ⟨_, c, rfl⟩).congr ?_
  intro bytes i
  constructor
  · rintro ⟨skipped, default, low, high, offsets, pads, ordered, count, rfl, rfl⟩
    refine ⟨skipped, _, (), by simp only [List.append_assoc], pads, _, _, default, rfl, rfl,
      _, _, low, rfl, rfl, _, _, high, rfl, rfl, Int32.not_lt.2 ordered, offsets, ⟨?_, rfl⟩, rfl⟩
    omega
  · rintro ⟨skipped, _, _, rfl, pads, _, _, default, rfl, rfl, _, _, low, rfl, rfl, _, _, high, rfl,
      rfl, ordered, offsets, ⟨count, rfl⟩, rfl⟩
    refine ⟨skipped, default, low, high, offsets, pads, Int32.not_lt.1 ordered, ?_,
      by simp only [List.append_assoc], rfl⟩
    have := Int32.le_iff_toInt_le.1 (Int32.not_lt.1 ordered)
    omega

theorem exact_readLookupSwitch : Exact p readLookupSwitch (Form.lookupSwitch.Lays p) := by
  unfold readLookupSwitch
  refine (exact_align.bind fun _ => exact_readI32.bind fun _ => exact_readI32.bind fun _ =>
    (exact_readI32s _).map.guard fun c => ⟨_, c, rfl⟩).congr ?_
  intro bytes i
  constructor
  · rintro ⟨skipped, default, count, pairs, pads, length, rfl, rfl⟩
    refine ⟨skipped, _, (), by simp only [List.append_assoc], pads, _, _, default, rfl, rfl,
      _, _, count, rfl, rfl, ?_, flat pairs, ⟨?_, rfl⟩, by rw [(pairsOf_flat pairs).1]⟩
    · rw [Int32.lt_iff_toInt_lt, length]
      exact Int.not_lt.2 (Int.natCast_nonneg _)
    · rw [(pairsOf_flat pairs).2, length, Int.toNat_natCast]
  · rintro ⟨skipped, _, _, rfl, pads, _, _, default, rfl, rfl, _, _, count, rfl, rfl, nonneg,
      numbers, ⟨length, rfl⟩, rfl⟩
    obtain ⟨number, same⟩ := flat_pairsOf length
    refine ⟨skipped, default, count, pairsOf numbers, pads, ?_,
      by simp only [List.append_assoc, same], rfl⟩
    have := Int32.le_iff_toInt_le.1 (Int32.not_lt.1 nonneg)
    simp only [Int32.toInt_zero] at this
    omega

theorem exact_read (form : Form) : Exact p form.read (form.Lays p) := by
  cases form with
  | plain i => exact Exact.pure i
  | index8 make =>
    refine exact_readIndex.map.congr ?_
    intro bytes i
    constructor
    · rintro ⟨index, rfl, rfl⟩
      exact ⟨_, ⟨index, rfl, rfl⟩, rfl⟩
    · rintro ⟨_, ⟨index, rfl, rfl⟩, rfl⟩
      exact ⟨index, rfl, rfl⟩
  | index16 make => exact exact_readU16.map
  | int8 make => exact exact_readI8.map
  | int16 make =>
    refine exact_readOffset.map.congr ?_
    intro bytes i
    constructor
    · rintro ⟨offset, rfl, rfl⟩
      exact ⟨_, ⟨offset, rfl, rfl⟩, rfl⟩
    · rintro ⟨_, ⟨offset, rfl, rfl⟩, rfl⟩
      exact ⟨offset, rfl, rfl⟩
  | int32 make => exact exact_readI32.map
  | tag make => exact exact_readU8.map
  | increment =>
    refine (exact_readIndex.bind fun _ => exact_readI8.map).congr ?_
    intro bytes i
    constructor
    · rintro ⟨index, amount, rfl, rfl⟩
      exact ⟨[index], _, _, rfl, ⟨index, rfl, rfl⟩, amount, rfl, rfl⟩
    · rintro ⟨_, _, _, rfl, ⟨index, rfl, rfl⟩, amount, rfl, rfl⟩
      exact ⟨index, amount, rfl, rfl⟩
  | wideIncrement => exact exact_readU16.two exact_readI16
  | invokeInterface =>
    refine (exact_readU16.bind fun _ => exact_readU8.bind fun _ => exact_readU8.map).congr ?_
    intro bytes i
    constructor
    · rintro ⟨index, count, last, rfl, rfl⟩
      exact ⟨_, _, index, rfl, rfl, [count], _, count, rfl, rfl, last, rfl, rfl⟩
    · rintro ⟨_, _, index, rfl, rfl, _, _, count, rfl, rfl, last, rfl, rfl⟩
      exact ⟨index, count, last, rfl, rfl⟩
  | invokeDynamic => exact exact_readU16.two exact_readU16
  | newMultiArray => exact exact_readU16.two exact_readU8
  | tableSwitch => exact exact_readTableSwitch
  | lookupSwitch => exact exact_readLookupSwitch

/-! ### Exactness of the tables -/

/-- A reader that goes by a table, and fails for the opcodes that the table does not have. -/
theorem exact_of_table {table : List (UInt8 × Form)} {x : UInt8 → Reading Instruction}
    {opcode : UInt8} (listed : ∀ e ∈ table, x e.1 = e.2.read)
    (others : opcode.toNat ∉ opcodes table → x opcode = throw (.unknownOpcode opcode)) :
    Exact p (x opcode) fun operands i =>
      ∃ form, (opcode, form) ∈ table ∧ form.Lays p operands i where
  accepts read ahead here := by
    rintro ⟨form, mem, lays⟩
    rw [listed _ mem]
    exact (exact_read form).accepts read ahead here lays
  refuses read here := by
    rintro ⟨form, mem, lays⟩ short
    rw [listed _ mem]
    exact (exact_read form).refuses read here lays short
  reads here ran := by
    by_cases known : opcode.toNat ∈ opcodes table
    · obtain ⟨form, mem⟩ := mem_opcodes.1 known
      rw [listed _ mem] at ran
      obtain ⟨operands, after, rfl, lays⟩ := (exact_read form).reads here ran
      exact ⟨operands, after, rfl, form, mem, lays⟩
    · rw [others known] at ran
      cases ran

/-- What the opcode that widens others reads once it has read the other opcode. -/
def readWidened (widened : UInt8) : Reading Instruction := do
  let n := widened.toNat
  if 0x15 ≤ n ∧ n ≤ 0x19 then
    return load (nth ValueKind.all (n - 0x15)) (← readU16)
  else if 0x36 ≤ n ∧ n ≤ 0x3a then
    return store (nth ValueKind.all (n - 0x36)) (← readU16)
  else if n = 0xa9 then
    return returnFromSubroutine (← readU16)
  else if n = 0x84 then
    let index ← readU16
    return .increment index (← readI16)
  else throw (.unknownOpcode widened)

theorem readWide_eq : readWide = readU8 >>= readWidened := rfl

theorem readWidened_of_mem : ∀ e ∈ wideForms, readWidened e.1 = e.2.read := by
  simp only [wideForms, List.forall_mem_cons, List.not_mem_nil, IsEmpty.forall_iff, implies_true,
    and_true]
  and_intros <;> cbv

theorem readWidened_of_not_mem {widened : UInt8} (other : widened.toNat ∉ opcodes wideForms) :
    readWidened widened = throw (.unknownOpcode widened) := by
  rw [opcodes_wideForms] at other
  simp only [List.mem_cons, List.not_mem_nil, or_false] at other
  unfold readWidened
  simp only
  rw [if_neg (by omega), if_neg (by omega), if_neg (by omega), if_neg (by omega)]

theorem exact_readWide :
    Exact (p + 1) readWide fun bytes i => ∃ widened operands form, bytes = widened :: operands ∧
      (widened, form) ∈ wideForms ∧ form.Lays (p + 2) operands i := by
  have second : ∀ {bytes widened}, bytes = [widened] → Exact (p + 1 + bytes.length)
      (readWidened widened) fun operands i =>
        ∃ form, (widened, form) ∈ wideForms ∧ form.Lays (p + 2) operands i := by
    rintro _ widened rfl
    exact exact_of_table readWidened_of_mem readWidened_of_not_mem
  rw [readWide_eq]
  refine (exact_readU8.bind second).congr ?_
  intro bytes i
  constructor
  · rintro ⟨widened, operands, form, rfl, mem, lays⟩
    exact ⟨[widened], operands, widened, rfl, rfl, form, mem, lays⟩
  · rintro ⟨_, operands, widened, rfl, rfl, form, mem, lays⟩
    exact ⟨widened, operands, form, rfl, mem, lays⟩

theorem readOperands_of_not_mem {opcode : UInt8} (narrow : opcode ≠ 0xc4)
    (other : opcode.toNat ∉ opcodes forms) :
    readOperands opcode = throw (.unknownOpcode opcode) := by
  have : opcode.toNat ≠ 0xc4 := fun h => narrow (UInt8.toNat_inj.1 h)
  simp only [opcodes_forms, List.mem_filter, List.mem_range, decide_eq_true_eq] at other
  unfold readOperands
  simp only
  iterate 10 rw [if_neg (by omega)]

theorem exact_readOperands (opcode : UInt8) :
    Exact (p + 1) (readOperands opcode) (Encodes p opcode) := by
  by_cases narrow : opcode = 0xc4
  · subst narrow
    refine exact_readWide.congr ?_
    intro operands i
    constructor
    · rintro (⟨mem, -⟩ | ⟨mem, lays⟩)
      · exact absurd rfl (exists_mem_forms.1 ⟨_, mem⟩).2
      · exact ⟨_, _, _, rfl, mem, lays⟩
    · rintro ⟨_, _, _, rfl, mem, lays⟩
      exact .wide mem lays
  · refine (exact_of_table readOperands_of_mem (readOperands_of_not_mem narrow)).congr ?_
    intro operands i
    constructor
    · rintro (⟨mem, lays⟩ | _)
      · exact ⟨_, mem, lays⟩
      · exact absurd rfl narrow
    · rintro ⟨_, mem, lays⟩
      exact .short mem lays

theorem exact_fetch :
    Exact p fetch fun bytes a =>
      ∃ operands, bytes = a.1 :: operands ∧ Encodes p a.1 operands a.2 := by
  refine (exact_readU8.bind (T := fun opcode operands a =>
    a.1 = opcode ∧ Encodes p opcode operands a.2) ?_).congr ?_
  · rintro _ opcode rfl
    refine (exact_readOperands opcode).map.congr ?_
    rintro operands ⟨_, i⟩
    constructor
    · rintro ⟨rfl, h⟩
      exact ⟨i, h, rfl⟩
    · rintro ⟨_, h, ⟨⟩⟩
      exact ⟨rfl, h⟩
  · rintro bytes ⟨opcode, i⟩
    constructor
    · rintro ⟨operands, rfl, h⟩
      exact ⟨[opcode], operands, opcode, rfl, rfl, rfl, h⟩
    · rintro ⟨_, operands, _, rfl, rfl, rfl, h⟩
      exact ⟨operands, rfl, h⟩

/-! ### Fetching -/

variable {code : Array UInt8} {c : Cursor} {opcode : UInt8} {i : Instruction}

theorem position_le_of_fetch {a : UInt8 × Instruction} (ran : fetch ⟨code, p⟩ = .ok a c) :
    p ≤ code.size := by
  by_contra beyond
  have none : take 1 ⟨code, p⟩ = .error (truncated ⟨code, p⟩) ⟨code, p⟩ :=
    take_of_lt (by simp only [remaining]; omega)
  simp [fetch, readU8, Bind.bind, EStateM.bind, none] at ran

/-- The bytes that a fetch passes over are the instruction. -/
theorem fetch_eq_ok_iff :
    fetch ⟨code, p⟩ = .ok (opcode, i) c ↔ ∃ operands after,
      code.toList.drop p = opcode :: operands ++ after ∧ Encodes p opcode operands i ∧
        c = ⟨code, p + 1 + operands.length⟩ := by
  constructor
  · intro ran
    have within := position_le_of_fetch ran
    have here : (code.toList.take p).length = p := List.length_take_of_le within
    rw [← between_take_drop within] at ran
    obtain ⟨_, after, split, ⟨operands, rfl, h⟩, rfl⟩ := exact_fetch.ends here ran
    refine ⟨operands, after, split, h, ?_⟩
    rw [between_append, ← split, List.take_append_drop, here]
    simp [Nat.add_assoc, Nat.add_comm 1]
  · rintro ⟨operands, after, split, h, rfl⟩
    have within : p ≤ code.size := by
      have := congrArg List.length split
      simp at this
      omega
    have here : (code.toList.take p).length = p := List.length_take_of_le within
    have ran := exact_fetch.accepts (p := p) (a := (opcode, i)) _ after here ⟨operands, rfl, h⟩
    rw [← split, between_take_drop within, between_append, ← split, List.take_append_drop] at ran
    rw [ran, here]
    simp [Nat.add_assoc, Nat.add_comm 1]

/-- What the fetch of an instruction at `p`, when it ends at `q`, tells about the code. -/
structure Fetched (code : Array UInt8) (p q : Nat) (opcode : UInt8) (i : Instruction) : Prop where
  advances : p < q
  within : q ≤ code.size
  encoded : ∃ operands, (code.extract p q).toList = opcode :: operands ∧
    Encodes p opcode operands i
  /-- Nothing but the bytes passed over matters, and for the two switches their alignment. -/
  anywhere : ∀ (other : Array UInt8) (p' : Nat),
    other.extract p' (p' + (q - p)) = code.extract p q →
    (opcode = 0xaa ∨ opcode = 0xab → p' % 4 = p % 4) →
    fetch ⟨other, p'⟩ = .ok (opcode, i) ⟨other, p' + (q - p)⟩
  offsets : ∀ default low high offsets, i = .tableSwitch default low high offsets →
    (offsets.length : Int) = high.toInt - low.toInt + 1
  pairs : ∀ default pairs, i = .lookupSwitch default pairs →
    ∃ (skipped rest : List UInt8) (count : Int32), Pads (p + 1) skipped ∧
      (code.extract p q).toList = opcode ::
        (skipped ++ intBytes default.toUInt32 ++ intBytes count.toUInt32 ++ rest) ∧
      count.toInt = pairs.length
  /-- Code that ends before the instruction does is found to be truncated. -/
  cut : ∀ n, p ≤ n → n < q → ∃ k c,
    fetch ⟨code.extract 0 n, p⟩ = .error (.truncatedInstruction k) c

theorem between_extract {bytes after : List UInt8} {n : Nat} (within : p ≤ code.size)
    (split : code.toList.drop p = bytes ++ after) (from_p : p ≤ n) (ends : n ≤ p + bytes.length) :
    between (code.toList.take p) (bytes.take (n - p)) = ⟨code.extract 0 n, p⟩ := by
  have here : (code.toList.take p).length = p := List.length_take_of_le within
  have cut : (code.extract 0 n).toList = code.toList.take p ++ bytes.take (n - p) := by
    rw [Array.toList_extract, List.extract_eq_take_drop, List.drop_zero, Nat.sub_zero,
      ← Nat.add_sub_cancel' from_p, List.take_add, split,
      List.take_append_of_le_length (by omega), Nat.add_sub_cancel_left]
  rw [between, ← cut, here, Array.toArray_toList]

theorem fetched_of_split {operands after : List UInt8}
    (split : code.toList.drop p = opcode :: operands ++ after) (h : Encodes p opcode operands i) :
    Fetched code p (p + 1 + operands.length) opcode i := by
  have size : p + 1 + operands.length + after.length = code.size := by
    have := congrArg List.length split
    simp at this
    omega
  have here : (code.toList.take p).length = p := List.length_take_of_le (by simp; omega)
  have bytes : (code.extract p (p + 1 + operands.length)).toList = opcode :: operands := by
    rw [Array.toList_extract, List.extract_eq_take_drop, split, List.take_left' (by simp; omega)]
  refine ⟨by omega, by omega, ⟨operands, bytes, h⟩, ?anywhere, ?offsets, ?pairs, ?cut⟩
  case anywhere =>
    intro other p' same aligned
    have length : p + 1 + operands.length - p = (opcode :: operands).length := by simp; omega
    rw [length] at same ⊢
    replace same := congrArg Array.toList same
    rw [bytes, Array.toList_extract, List.extract_eq_take_drop, Nat.add_sub_cancel_left] at same
    refine fetch_eq_ok_iff.2 ⟨operands, (other.toList.drop p').drop (opcode :: operands).length,
      ?_, h.moved aligned, by simp only [List.length_cons]; congr 1; omega⟩
    exact (List.take_append_drop _ _).symm.trans (congrArg (· ++ _) same)
  case offsets =>
    rintro default low high offsets rfl
    exact h.length_offsets
  case pairs =>
    rintro default pairs rfl
    obtain ⟨skipped, rest, count, pads, rfl, length⟩ := h.length_pairs
    exact ⟨skipped, rest, count, pads, bytes, length⟩
  case cut =>
    intro n from_p to_q
    have more : (opcode :: operands).drop (n - p) ≠ [] := by
      rw [Ne, List.drop_eq_nil_iff, List.length_cons]
      omega
    have ends : n ≤ p + (opcode :: operands).length := by
      simp only [List.length_cons]
      omega
    rw [← between_extract (by omega) split from_p ends]
    exact exact_fetch.refuses (a := (opcode, i)) _ here
      ⟨operands, List.take_append_drop _ _, h⟩ more

theorem fetch_end_le (ran : fetch ⟨code, p⟩ = .ok (opcode, i) c) : c.position ≤ code.size := by
  obtain ⟨operands, after, split, h, rfl⟩ := fetch_eq_ok_iff.1 ran
  exact (fetched_of_split split h).within

/-- Every instruction is fetched as the format lays it out, whatever stands before and after it;
what is fetched is laid out so; and the format has the opcodes up to 0xc9. -/
theorem fetch_format :
    (∀ {opcode : UInt8} {operands : List UInt8} {i : Instruction} (before after : List UInt8),
      Encodes before.length opcode operands i →
      fetch ⟨(before ++ opcode :: operands ++ after).toArray, before.length⟩ =
        .ok (opcode, i) ⟨(before ++ opcode :: operands ++ after).toArray,
          before.length + 1 + operands.length⟩) ∧
    (∀ {code : Array UInt8} {p : Nat} {opcode : UInt8} {i : Instruction} {c : Cursor},
      fetch ⟨code, p⟩ = .ok (opcode, i) c →
      c.code = code ∧ Fetched code p c.position opcode i) ∧
    ∀ (p : Nat) (opcode : UInt8), (∃ operands i, Encodes p opcode operands i) ↔ opcode ≤ 0xc9 := by
  refine ⟨?complete, ?sound, fun p opcode => exists_encodes p⟩
  case complete =>
    intro opcode operands i before after h
    exact fetch_eq_ok_iff.2 ⟨operands, after, by simp, h, rfl⟩
  case sound =>
    intro code p opcode i c ran
    obtain ⟨operands, after, split, h, rfl⟩ := fetch_eq_ok_iff.1 ran
    exact ⟨rfl, fetched_of_split split h⟩

def paddedTable : Array UInt8 :=
  #[0x00, 0xaa, 0xff, 0xff, 0, 0, 0, 20, 0, 0, 0, 1, 0, 0, 0, 2, 0, 0, 0, 10, 0xff, 0xff, 0xff,
    0xfe]

theorem fetch_format_paddedTable :
    fetch ⟨paddedTable, 1⟩ = .ok (0xaa, .tableSwitch 20 1 2 [10, -2]) ⟨paddedTable, 24⟩ ∧
      Fetched paddedTable 1 24 0xaa (.tableSwitch 20 1 2 [10, -2]) := by
  have listed : (0xaa, Form.tableSwitch) ∈ forms := by simp [forms, controlForms]
  have ran := fetch_format.1 [0x00] [] (.short listed
    ⟨[0xff, 0xff], 20, 1, 2, [10, -2], ⟨by decide, rfl⟩, by decide, by decide, rfl, rfl⟩)
  exact ⟨ran, (fetch_format.2.1 ran).2⟩

end Instruction

end JavaMachine

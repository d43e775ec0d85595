import JavaMachine.Code.Cursor
import JavaMachine.Proofs.Effects
import Mathlib.Data.List.Induction
import Mathlib.Data.Nat.Digits.Defs
import Mathlib.Order.Bounds.Basic
import Mathlib.Order.Monotone.Basic

/-!
# Histories of reads

Whatever is read of a code, in whatever order and however much of it fails, a number is that of the
bytes at the position, a table holds what reads of its numbers one after the other would give,
padding ends at the next multiple of four, and a read that finds too few bytes changes nothing. The
position never decreases, with one exception: an empty table that is read past the end of the code
takes no bytes, but moves the cursor back to the end.
-/
namespace JavaMachine

/-- How many bytes a number takes, and whether it is in two's complement. -/
structure NumberFormat where
  width : Nat
  signed : Bool
  deriving DecidableEq

/-- The number whose digits to base 256 are the bytes, the most significant one first. In two's
complement the numbers go down to minus one half of what the bytes can tell apart. -/
def NumberFormat.value (f : NumberFormat) (bytes : List UInt8) : Int :=
  let number : Nat := Nat.ofDigits 256 (bytes.reverse.map UInt8.toNat)
  if f.signed then Int.bmod number (256 ^ f.width) else number

/-- A call on a cursor. -/
inductive ReadCall
  | u8
  | i8
  | u16
  | i16
  | i32
  | i32s (n : Nat)
  | align
  deriving DecidableEq

namespace ReadCall

def perform : ReadCall → Cursor.Reading (List Int)
  | u8 => do return [((← Cursor.readU8).toNat : Int)]
  | i8 => do return [(← Cursor.readI8).toInt]
  | u16 => do return [((← Cursor.readU16).toNat : Int)]
  | i16 => do return [(← Cursor.readI16).toInt]
  | i32 => do return [(← Cursor.readI32).toInt]
  | i32s n => do return (← Cursor.readI32s n).map Int32.toInt
  | align => do
    Cursor.align
    return []

/-- Makes the calls one after the other, as long as they succeed, and answers with all numbers. -/
def performAll : List ReadCall → Cursor.Reading (List Int)
  | [] => return []
  | call :: calls => do return (← call.perform) ++ (← performAll calls)

/-- The number that the call is to read. -/
def number? : ReadCall → Option NumberFormat
  | u8 => some ⟨1, false⟩
  | i8 => some ⟨1, true⟩
  | u16 => some ⟨2, false⟩
  | i16 => some ⟨2, true⟩
  | i32 => some ⟨4, true⟩
  | i32s _ | align => none

end ReadCall

namespace Cursor

def next (c : Cursor) (n : Nat) : List UInt8 := (c.code.toList.drop c.position).take n

def advance (c : Cursor) (n : Nat) : Cursor := { c with position := c.position + n }

/-- The cursor after the calls, one after the other, whether or not they fail. -/
def callAll (c : Cursor) (calls : List ReadCall) : Cursor :=
  calls.foldl (fun c call => endState (call.perform c)) c

end Cursor

/-- The call does at the cursor what it is to do there: it reads a number, a table that is as many
numbers one after the other, or padding up to a multiple of four, and if the bytes for that are not
there, it fails and changes nothing. -/
structure ReadCall.Exact (call : ReadCall) (c : Cursor) : Prop where
  number : ∀ f, call.number? = some f → call.perform c =
    if c.position + f.width ≤ c.code.size then .ok [f.value (c.next f.width)] (c.advance f.width)
    else .error (.truncatedInstruction c.position) c
  table : ∀ n, call = .i32s n → call.perform c =
    match performAll (List.replicate n .i32) c with
    | .ok numbers _ => .ok numbers (c.advance (4 * n))
    | .error _ _ => .error (.truncatedInstruction c.position) c
  padding : call = .align → ∀ q, IsLeast {q | 4 ∣ q ∧ c.position ≤ q} q → call.perform c =
    if q ≤ max c.position c.code.size then .ok [] { c with position := q }
    else .error (.truncatedInstruction c.position) c
  failure : ∀ e c', call.perform c = .error e c' → e = .truncatedInstruction c.position ∧ c' = c
  forward : c.position ≤ (endState (call.perform c)).position

namespace Cursor

variable {c : Cursor} {call : ReadCall} {calls : List ReadCall} {f : NumberFormat} {n m : Nat}

@[simp] theorem code_advance (c : Cursor) (n : Nat) : (c.advance n).code = c.code := rfl

@[simp] theorem position_advance (c : Cursor) (n : Nat) :
    (c.advance n).position = c.position + n := rfl

@[simp] theorem advance_zero (c : Cursor) : c.advance 0 = c := rfl

theorem advance_add (c : Cursor) (m n : Nat) : c.advance (m + n) = (c.advance m).advance n := by
  simp [advance, Nat.add_assoc]

/-! ### Bytes and their numbers -/

theorem next_add (c : Cursor) (m n : Nat) :
    c.next (m + n) = c.next m ++ (c.advance m).next n := by
  simp [next, advance, List.take_add]

theorem length_next (h : c.position + n ≤ c.code.size) : (c.next n).length = n := by
  rw [next, List.length_take, List.length_drop, Array.length_toList]
  omega

theorem take_within (h : c.position + n ≤ c.code.size) :
    take n c = .ok (c.next n) (c.advance n) := by
  have enough : n ≤ c.remaining := by
    unfold remaining
    omega
  have back : c.code.size - (c.remaining - n) = c.position + n := by
    unfold remaining
    omega
  rw [take_of_le enough, back, Array.toList_extract, List.extract_eq_take_drop,
    Nat.add_sub_cancel_left]
  rfl

theorem take_beyond (some_bytes : 0 < n) (h : c.code.size < c.position + n) :
    take n c = .error (.truncatedInstruction c.position) c := by
  refine take_of_lt ?_
  unfold remaining
  omega

theorem take_zero_of_lt (h : c.code.size < c.position) :
    take 0 c = .ok [] { c with position := c.code.size } := by
  have nothing : c.remaining = 0 := Nat.sub_eq_zero_of_le (Nat.le_of_lt h)
  rw [take_of_le (Nat.zero_le _), nothing]
  simp

theorem bigEndian_append (bytes : List UInt8) (b : UInt8) :
    bigEndian (bytes ++ [b]) = bigEndian bytes * 256 + b.toNat := by
  simp [bigEndian]

theorem bigEndian_eq_ofDigits (bytes : List UInt8) :
    bigEndian bytes = Nat.ofDigits 256 (bytes.reverse.map UInt8.toNat) := by
  induction bytes using List.reverseRecOn with
  | nil => rfl
  | append_singleton bytes b ih =>
    rw [bigEndian_append, ih, List.reverse_append, List.reverse_singleton, List.singleton_append,
      List.map_cons, Nat.ofDigits_cons]
    omega

theorem bigEndian_lt (bytes : List UInt8) : bigEndian bytes < 256 ^ bytes.length := by
  have digits : ∀ d ∈ bytes.reverse.map UInt8.toNat, d < 256 := by
    intro d member
    obtain ⟨b, -, rfl⟩ := List.mem_map.1 member
    exact b.toNat_lt
  have bound := Nat.ofDigits_lt_base_pow_length (by decide : 1 < 256) digits
  rwa [← bigEndian_eq_ofDigits, List.length_map, List.length_reverse] at bound

theorem value_unsigned (bytes : List UInt8) (w : Nat) :
    (⟨w, false⟩ : NumberFormat).value bytes = bigEndian bytes := by
  rw [bigEndian_eq_ofDigits]
  rfl

theorem value_signed (bytes : List UInt8) (w : Nat) :
    (⟨w, true⟩ : NumberFormat).value bytes = Int.bmod (bigEndian bytes) (256 ^ w) := by
  rw [bigEndian_eq_ofDigits]
  rfl

/-! ### Numbers -/

section

variable {α : Type} {ofNat : Nat → α} {toInt : α → Int} {x : Reading α}

/-- A read that makes a number of the bytes that it takes gives the one that they stand for, if they
are all there. -/
theorem read_number (f : NumberFormat) (reads : x = do return ofNat (bigEndian (← take f.width)))
    (positive : 0 < f.width)
    (value : ∀ bytes : List UInt8, bytes.length = f.width →
      toInt (ofNat (bigEndian bytes)) = f.value bytes) (c : Cursor) :
    (do return [toInt (← x)] : Reading (List Int)) c =
      if c.position + f.width ≤ c.code.size then .ok [f.value (c.next f.width)] (c.advance f.width)
      else .error (.truncatedInstruction c.position) c := by
  rw [reads, bind_assoc]
  by_cases there : c.position + f.width ≤ c.code.size
  · rw [if_pos there, bind_of_ok (take_within there), ← value _ (length_next there)]
    rfl
  · rw [if_neg there, bind_of_error (take_beyond positive (Nat.not_le.1 there))]

theorem value_of_exact {w : Nat} (exact : ∀ k < 256 ^ w, toInt (ofNat k) = k) (bytes : List UInt8)
    (length : bytes.length = w) :
    toInt (ofNat (bigEndian bytes)) = (⟨w, false⟩ : NumberFormat).value bytes := by
  rw [value_unsigned, exact _ (length ▸ bigEndian_lt bytes)]

theorem value_of_reduces {w : Nat} (reduces : ∀ k : Nat, toInt (ofNat k) = Int.bmod k (256 ^ w))
    (bytes : List UInt8) :
    toInt (ofNat (bigEndian bytes)) = (⟨w, true⟩ : NumberFormat).value bytes := by
  rw [value_signed, reduces]

end

theorem perform_number (h : call.number? = some f) (c : Cursor) : call.perform c =
    if c.position + f.width ≤ c.code.size then .ok [f.value (c.next f.width)] (c.advance f.width)
    else .error (.truncatedInstruction c.position) c := by
  cases call with
  | u8 =>
    cases h
    refine read_number ⟨1, false⟩ rfl (by decide) (value_of_exact fun k small => ?_) c
    rw [UInt8.toNat_ofNat_of_lt' small]
  | u16 =>
    cases h
    refine read_number ⟨2, false⟩ rfl (by decide) (value_of_exact fun k small => ?_) c
    rw [UInt16.toNat_ofNat_of_lt' small]
  | i8 =>
    cases h
    refine read_number ⟨1, true⟩ rfl (by decide)
      (fun bytes _ => value_of_reduces (fun k => ?_) bytes) c
    rw [Int8.toInt_ofNat']
    rfl
  | i16 =>
    cases h
    refine read_number ⟨2, true⟩ rfl (by decide)
      (fun bytes _ => value_of_reduces (fun k => ?_) bytes) c
    rw [Int16.toInt_ofNat']
    rfl
  | i32 =>
    cases h
    refine read_number ⟨4, true⟩ rfl (by decide)
      (fun bytes _ => value_of_reduces (fun k => ?_) bytes) c
    rw [Int32.toInt_ofNat']
    rfl
  | i32s | align => cases h

/-! ### Tables -/

theorem wordsOf_append {four : List UInt8} (length : four.length = 4) (rest : List UInt8) :
    wordsOf (four ++ rest) = Int32.ofNat (bigEndian four) :: wordsOf rest := by
  match four, length with
  | [_, _, _, _], _ => rfl

theorem performAll_of_le (h : c.position + 4 * n ≤ c.code.size) :
    ReadCall.performAll (List.replicate n .i32) c =
      .ok ((wordsOf (c.next (4 * n))).map Int32.toInt) (c.advance (4 * n)) := by
  -- at every cursor, since the second read starts where the first one ends
  induction n generalizing c with
  | zero => rfl
  | succ n ih =>
    have there : c.position + 4 ≤ c.code.size := by omega
    have first := perform_number (rfl : ReadCall.i32.number? = some ⟨4, true⟩) c
    rw [if_pos there] at first
    have rest := ih (c := c.advance 4) (by simp; omega)
    have all : 4 * (n + 1) = 4 + 4 * n := by omega
    rw [List.replicate_succ, ReadCall.performAll, bind_of_ok first, bind_of_ok rest, all, next_add,
      advance_add, wordsOf_append (length_next there), List.map_cons, Int32.toInt_ofNat',
      value_signed]
    rfl

/-- If not all numbers of a table are there, one of the reads of its numbers fails. -/
theorem performAll_of_lt (positive : 0 < n) (h : c.code.size < c.position + 4 * n) :
    ∃ e c', ReadCall.performAll (List.replicate n .i32) c = .error e c' := by
  induction n generalizing c with
  | zero => exact absurd positive (Nat.lt_irrefl 0)
  | succ n ih =>
    rw [List.replicate_succ, ReadCall.performAll]
    have first := perform_number (rfl : ReadCall.i32.number? = some ⟨4, true⟩) c
    by_cases there : c.position + 4 ≤ c.code.size
    · rw [if_pos there] at first
      obtain ⟨e, c', failed⟩ := ih (c := c.advance 4) (by omega) (by simp; omega)
      exact ⟨e, c', by rw [bind_of_ok first, bind_of_error failed]⟩
    · rw [if_neg there] at first
      exact ⟨_, _, bind_of_error first⟩

/-- A table that is not empty takes some bytes, and an empty one is within the code. -/
theorem pos_or_within (usual : ¬ (ReadCall.i32s n = .i32s 0 ∧ c.code.size < c.position)) :
    0 < n ∨ c.position ≤ c.code.size := by
  rw [ReadCall.i32s.injEq] at usual
  omega

theorem perform_table (usual : ¬ (ReadCall.i32s n = .i32s 0 ∧ c.code.size < c.position)) :
    (ReadCall.i32s n).perform c =
      if c.position + 4 * n ≤ c.code.size then
        .ok ((wordsOf (c.next (4 * n))).map Int32.toInt) (c.advance (4 * n))
      else .error (.truncatedInstruction c.position) c := by
  rw [ReadCall.perform, readI32s, bind_assoc]
  by_cases there : c.position + 4 * n ≤ c.code.size
  · rw [if_pos there, bind_of_ok (take_within there)]
    rfl
  · have some_bytes := pos_or_within usual
    rw [if_neg there, bind_of_error (take_beyond (by omega) (Nat.not_le.1 there))]

theorem perform_emptyTable (h : c.code.size < c.position) :
    (ReadCall.i32s 0).perform c = .ok [] { c with position := c.code.size } := by
  rw [ReadCall.perform, readI32s, bind_assoc, Nat.mul_zero, bind_of_ok (take_zero_of_lt h)]
  rfl

/-! ### Padding -/

theorem isLeast_padding (p : Nat) : IsLeast {q | 4 ∣ q ∧ p ≤ q} (p + padding p) := by
  unfold padding
  constructor
  · exact ⟨by omega, by omega⟩
  · rintro q ⟨multiple, after⟩
    omega

theorem perform_align (c : Cursor) : ReadCall.align.perform c =
    if c.position + padding c.position ≤ max c.position c.code.size then
      .ok [] (c.advance (padding c.position))
    else .error (.truncatedInstruction c.position) c := by
  have enough : c.remaining < padding c.position ↔
      ¬ c.position + padding c.position ≤ max c.position c.code.size := by
    unfold remaining
    omega
  change ((align >>= fun _ => pure []) : Reading (List Int)) c = _
  by_cases there : c.position + padding c.position ≤ max c.position c.code.size
  · rw [if_pos there]
    exact bind_of_ok (if_neg (mt enough.1 (not_not_intro there)))
  · rw [if_neg there]
    exact bind_of_error (if_pos (enough.2 there))

/-! ### What a call does -/

/-- A call moves the cursor on, never past the end of the code, or it fails and changes nothing. The
exception is an empty table past the end. -/
theorem perform_cases (usual : ¬ (call = .i32s 0 ∧ c.code.size < c.position)) :
    (∃ numbers n, c.position + n ≤ max c.position c.code.size ∧
      call.perform c = .ok numbers (c.advance n)) ∨
    call.perform c = .error (.truncatedInstruction c.position) c := by
  cases kind : call.number? with
  | some f =>
    rw [perform_number kind]
    split
    case isTrue there => exact .inl ⟨_, _, le_max_of_le_right there, rfl⟩
    case isFalse => exact .inr rfl
  | none =>
    cases call with
    | i32s n =>
      rw [perform_table usual]
      split
      case isTrue there => exact .inl ⟨_, _, le_max_of_le_right there, rfl⟩
      case isFalse => exact .inr rfl
    | align =>
      rw [perform_align]
      split
      case isTrue there => exact .inl ⟨_, _, there, rfl⟩
      case isFalse => exact .inr rfl
    | _ => cases kind

/-- Every call but an empty table past the end does what it is to do. -/
theorem exact_iff : call.Exact c ↔ ¬ (call = .i32s 0 ∧ c.code.size < c.position) := by
  constructor
  · rintro exact ⟨rfl, beyond⟩
    have forward := exact.forward
    rw [perform_emptyTable beyond] at forward
    exact Nat.not_lt.2 forward beyond
  · intro usual
    constructor
    case number => exact fun f kind => perform_number kind c
    case table =>
      rintro n rfl
      rw [perform_table usual]
      split
      case isTrue there => rw [performAll_of_le there]
      case isFalse short =>
        have some_bytes := pos_or_within usual
        obtain ⟨e, c', failed⟩ := performAll_of_lt (by omega) (Nat.not_le.1 short)
        rw [failed]
    case padding =>
      rintro rfl q least
      cases least.unique (isLeast_padding c.position)
      exact perform_align c
    case failure =>
      intro e c' failed
      rcases perform_cases usual with ⟨numbers, n, -, read⟩ | truncated
      · cases read.symm.trans failed
      · cases truncated.symm.trans failed
        exact ⟨rfl, rfl⟩
    case forward =>
      rcases perform_cases usual with ⟨numbers, n, -, read⟩ | truncated
      · rw [read]
        exact Nat.le_add_right _ _
      · rw [truncated]
        exact Nat.le_refl _

/-! ### Histories -/

@[simp] theorem callAll_cons (c : Cursor) (call : ReadCall) (calls : List ReadCall) :
    c.callAll (call :: calls) = (endState (call.perform c)).callAll calls := rfl

theorem callAll_take_succ {k : Nat} (c : Cursor) (here : calls[k]? = some call) :
    c.callAll (calls.take (k + 1)) = endState (call.perform (c.callAll (calls.take k))) := by
  rw [List.take_add_one, here]
  simp [callAll]

theorem code_perform (c : Cursor) (call : ReadCall) :
    (endState (call.perform c)).code = c.code := by
  by_cases empty : call = .i32s 0 ∧ c.code.size < c.position
  · obtain ⟨rfl, beyond⟩ := empty
    rw [perform_emptyTable beyond]
    rfl
  · rcases perform_cases empty with ⟨numbers, n, -, read⟩ | truncated
    · rw [read]
      rfl
    · rw [truncated]
      rfl

theorem code_callAll (c : Cursor) (calls : List ReadCall) : (c.callAll calls).code = c.code := by
  induction calls generalizing c with
  | nil => rfl
  | cons call calls ih => rw [callAll_cons, ih, code_perform]

theorem position_perform_le (within : c.position ≤ c.code.size) (call : ReadCall) :
    (endState (call.perform c)).position ≤ c.code.size := by
  have usual : ¬ (call = .i32s 0 ∧ c.code.size < c.position) := fun beyond =>
    Nat.not_lt.2 within beyond.2
  rcases perform_cases usual with ⟨numbers, n, there, read⟩ | truncated
  · rw [read]
    rwa [max_eq_right within] at there
  · rwa [truncated]

theorem position_callAll_le (within : c.position ≤ c.code.size) (calls : List ReadCall) :
    (c.callAll calls).position ≤ c.code.size := by
  induction calls generalizing c with
  | nil => exact within
  | cons call calls ih =>
    have next := position_perform_le within call
    rw [← code_perform c call] at next ⊢
    exact ih next

/-- Past the end nothing but an empty table moves the cursor. -/
theorem perform_of_beyond (beyond : c.code.size < c.position) (other : call ≠ .i32s 0) :
    endState (call.perform c) = c := by
  have usual : ¬ (call = .i32s 0 ∧ c.code.size < c.position) := fun empty => other empty.1
  rcases perform_cases usual with ⟨numbers, n, there, read⟩ | truncated
  · rw [max_eq_left (Nat.le_of_lt beyond)] at there
    cases Nat.add_eq_left.1 (Nat.le_antisymm there (Nat.le_add_right _ _))
    rw [read]
    rfl
  · rw [truncated]
    rfl

theorem callAll_of_beyond (beyond : c.code.size < c.position) (others : .i32s 0 ∉ calls) :
    c.callAll calls = c := by
  induction calls with
  | nil => rfl
  | cons call calls ih =>
    rw [List.mem_cons, not_or] at others
    rw [callAll_cons, perform_of_beyond beyond (Ne.symm others.1), ih others.2]

/-- The history reads an empty table past the end of the code. -/
def Recedes (c : Cursor) (calls : List ReadCall) : Prop :=
  c.code.size < c.position ∧ .i32s 0 ∈ calls

/-- The first empty table that is read past the end finds the cursor where it was at first. -/
theorem Recedes.exists_first (h : c.Recedes calls) :
    ∃ k, calls[k]? = some (.i32s 0) ∧ c.callAll (calls.take k) = c := by
  obtain ⟨beyond, member⟩ := h
  obtain ⟨before, rest, rfl, others⟩ := List.eq_append_cons_of_mem member
  refine ⟨before.length, by simp, ?_⟩
  rw [List.take_left]
  exact callAll_of_beyond beyond others

theorem exact_of_not_recedes {k : Nat} (h : ¬ c.Recedes calls) (here : calls[k]? = some call) :
    call.Exact (c.callAll (calls.take k)) := by
  rw [exact_iff, code_callAll]
  rintro ⟨rfl, beyond⟩
  refine h ⟨Nat.not_le.1 fun within => ?_, List.mem_of_getElem? here⟩
  exact Nat.not_lt.2 (position_callAll_le within _) beyond

theorem position_le_of_exact {k : Nat} (c : Cursor)
    (exact : ∀ call, calls[k]? = some call → call.Exact (c.callAll (calls.take k))) :
    (c.callAll (calls.take k)).position ≤ (c.callAll (calls.take (k + 1))).position := by
  cases here : calls[k]? with
  | some call =>
    rw [callAll_take_succ c here]
    exact (exact call here).forward
  | none =>
    have past : calls.length ≤ k := List.getElem?_eq_none_iff.1 here
    rw [List.take_of_length_le past, List.take_of_length_le (Nat.le_succ_of_le past)]

theorem exact_iff_not_recedes (c : Cursor) (calls : List ReadCall) :
    (∀ k call, calls[k]? = some call → ReadCall.Exact call (c.callAll (calls.take k))) ↔
      ¬ c.Recedes calls := by
  constructor
  · intro exact recedes
    obtain ⟨k, here, still⟩ := recedes.exists_first
    have empty := exact k _ here
    rw [still] at empty
    exact exact_iff.1 empty ⟨rfl, recedes.1⟩
  · exact fun h k call here => exact_of_not_recedes h here

theorem monotone_position_iff (c : Cursor) (calls : List ReadCall) :
    (Monotone fun k => (c.callAll (calls.take k)).position) ↔ ¬ c.Recedes calls := by
  constructor
  · intro monotone recedes
    obtain ⟨k, here, still⟩ := recedes.exists_first
    have step := monotone (Nat.le_succ k)
    simp only [Nat.succ_eq_add_one, callAll_take_succ c here, still,
      perform_emptyTable recedes.1] at step
    exact Nat.not_lt.2 step recedes.1
  · intro h
    exact monotone_nat_of_le_succ fun k =>
      position_le_of_exact c fun call here => exact_of_not_recedes h here

/-- Reads are exact and atomic. After whatever calls, every call does what it is to do, with one
exception: past the end of the code an empty table moves the cursor back to the end. So all calls of
a history do what they are to do, and the position never decreases, exactly if the history does not
read an empty table past the end. -/
theorem reads_exact_iff (c : Cursor) (calls : List ReadCall) :
    (c.callAll calls).code = c.code ∧
    (∀ call, ReadCall.Exact call (c.callAll calls) ↔
      ¬ (call = .i32s 0 ∧ c.code.size < (c.callAll calls).position)) ∧
    (c.code.size < (c.callAll calls).position →
      (ReadCall.i32s 0).perform (c.callAll calls) = .ok [] ⟨c.code, c.code.size⟩) ∧
    ((∀ k call, calls[k]? = some call → ReadCall.Exact call (c.callAll (calls.take k))) ↔
      ¬ c.Recedes calls) ∧
    ((Monotone fun k => (c.callAll (calls.take k)).position) ↔ ¬ c.Recedes calls) := by
  have code := code_callAll c calls
  refine ⟨code, fun call => ?_, fun beyond => ?_, exact_iff_not_recedes c calls,
    monotone_position_iff c calls⟩
  · rw [← code]
    exact exact_iff
  · rw [← code] at beyond ⊢
    exact perform_emptyTable beyond

def mixedCode : Array UInt8 := #[255, 1, 2, 0, 128, 0, 0, 0, 0, 0, 0, 1, 255]

def mixedReads : List ReadCall :=
  [.i8, .u16, .align, .i32s 3, .i32s 2, .i32, .u8, .i32s 0, .align]

/-- The table of three numbers and the number after that of two fail, and are as if they had not
been asked for. Had the reads begun past the end, the empty table would have moved the cursor back.
-/
theorem reads_exact_mixed :
    (Monotone fun k => (callAll ⟨mixedCode, 0⟩ (mixedReads.take k)).position) ∧
      ReadCall.Exact (.i32s 2) (callAll ⟨mixedCode, 0⟩ [.i8, .u16, .align, .i32s 3]) ∧
      (ReadCall.i32s 2).perform (callAll ⟨mixedCode, 0⟩ [.i8, .u16, .align, .i32s 3]) =
        .ok [-2147483648, 1] ⟨mixedCode, 12⟩ ∧
      callAll ⟨mixedCode, 0⟩ mixedReads = ⟨mixedCode, 13⟩ ∧
      (ReadCall.i32s 0).perform (callAll ⟨mixedCode, 16⟩ [.u8, .align]) =
        .ok [] ⟨mixedCode, 13⟩ := by
  obtain ⟨-, -, -, exact, monotone⟩ := reads_exact_iff ⟨mixedCode, 0⟩ mixedReads
  obtain ⟨-, -, empty, -⟩ := reads_exact_iff ⟨mixedCode, 16⟩ [.u8, .align]
  have within : ¬ Recedes ⟨mixedCode, 0⟩ mixedReads := fun h => Nat.not_lt_zero _ h.1
  exact ⟨monotone.2 within, exact.2 within 4 (.i32s 2) rfl, rfl, rfl, empty (by decide)⟩

/-- Past the end padding of no bytes leaves the cursor alone, and an empty table does not. -/
theorem emptyTable_recedes :
    ReadCall.align.perform ⟨#[0, 0, 0, 0], 8⟩ = .ok [] ⟨#[0, 0, 0, 0], 8⟩ ∧
      (ReadCall.i32s 0).perform ⟨#[0, 0, 0, 0], 8⟩ = .ok [] ⟨#[0, 0, 0, 0], 4⟩ ∧
      ¬ (ReadCall.i32s 0).Exact ⟨#[0, 0, 0, 0], 8⟩ :=
  ⟨rfl, rfl, fun exact => exact_iff.1 exact ⟨rfl, by decide⟩⟩

end Cursor

end JavaMachine

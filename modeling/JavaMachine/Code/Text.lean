import JavaMachine.Code.Instruction

/-!
# Texts of instructions

Diagnostics write an instruction as its family, its mnemonic with a capital letter, and its
operands by name.
-/
namespace JavaMachine

namespace InstructionFamily

def title : InstructionFamily → String
  | constant => "Constant"
  | load => "Load"
  | store => "Store"
  | stack => "Stack"
  | math => "Math"
  | conversion => "Conversion"
  | comparison => "Comparison"
  | control => "Control"
  | reference => "Reference"
  | extended => "Extended"

end InstructionFamily

namespace Instruction

def valueLetter : ValueKind → String
  | .int => "I"
  | .long => "L"
  | .float => "F"
  | .double => "D"
  | .reference => "A"

def numericLetter : NumericKind → String
  | .int => "I"
  | .long => "L"
  | .float => "F"
  | .double => "D"

def elementLetters : ElementKind → String
  | .int => "Ia"
  | .long => "La"
  | .float => "Fa"
  | .double => "Da"
  | .reference => "Aa"
  | .byte => "Ba"
  | .char => "Ca"
  | .short => "Sa"

def integralLetter : IntegralKind → String
  | .int => "I"
  | .long => "L"

def arithmeticName : ArithmeticOperator → String
  | .add => "add"
  | .sub => "sub"
  | .mul => "mul"
  | .div => "div"
  | .rem => "rem"

def shiftName : ShiftOperator → String
  | .left => "shl"
  | .right => "shr"
  | .unsignedRight => "ushr"

def bitwiseName : BitwiseOperator → String
  | .and => "and"
  | .or => "or"
  | .xor => "xor"

def conditionName : Condition → String
  | .eq => "eq"
  | .ne => "ne"
  | .lt => "lt"
  | .ge => "ge"
  | .gt => "gt"
  | .le => "le"

def stackName : StackOperator → String
  | .pop => "Pop"
  | .pop2 => "Pop2"
  | .dup => "Dup"
  | .dupX1 => "Dup_x1"
  | .dupX2 => "Dup_x2"
  | .dup2 => "Dup2"
  | .dup2X1 => "Dup2_x1"
  | .dup2X2 => "Dup2_x2"
  | .swap => "Swap"

def conversionName : Conversion → String
  | .intToLong => "I2l"
  | .intToFloat => "I2f"
  | .intToDouble => "I2d"
  | .longToInt => "L2i"
  | .longToFloat => "L2f"
  | .longToDouble => "L2d"
  | .floatToInt => "F2i"
  | .floatToLong => "F2l"
  | .floatToDouble => "F2d"
  | .doubleToInt => "D2i"
  | .doubleToLong => "D2l"
  | .doubleToFloat => "D2f"
  | .intToByte => "I2b"
  | .intToChar => "I2c"
  | .intToShort => "I2s"

/-- The mnemonic of the instruction. -/
def mnemonic : Instruction → String
  | nop => "Nop"
  | pushNull => "Aconst_null"
  | pushInt _ => "Ipush"
  | pushLong v => "Lconst_" ++ toString v.val
  | pushFloat v => "Fconst_" ++ toString v.val
  | pushDouble v => "Dconst_" ++ toString v.val
  | pushConstant _ => "Ldc"
  | pushWideConstant _ => "Ldc2_w"
  | load k _ => valueLetter k ++ "load"
  | store k _ => valueLetter k ++ "store"
  | arrayLoad k => elementLetters k ++ "load"
  | arrayStore k => elementLetters k ++ "store"
  | stack o => stackName o
  | arithmetic o k => numericLetter k ++ arithmeticName o
  | negate k => numericLetter k ++ "neg"
  | shift o k => integralLetter k ++ shiftName o
  | bitwise o k => integralLetter k ++ bitwiseName o
  | increment _ _ => "Iinc"
  | convert c => conversionName c
  | compareLong => "Lcmp"
  | compareFloat greater => if greater then "Fcmpg" else "Fcmpl"
  | compareDouble greater => if greater then "Dcmpg" else "Dcmpl"
  | ifZero c _ => "If" ++ conditionName c
  | ifInts c _ => "If_icmp" ++ conditionName c
  | ifReferences equal _ => if equal then "If_acmpeq" else "If_acmpne"
  | ifNull isNull _ => if isNull then "Ifnull" else "Ifnonnull"
  | jump wide _ => if wide then "Goto_w" else "Goto"
  | jumpToSubroutine wide _ => if wide then "Jsr_w" else "Jsr"
  | returnFromSubroutine _ => "Ret"
  | tableSwitch _ _ _ _ => "Tableswitch"
  | lookupSwitch _ _ => "Lookupswitch"
  | returnValue k => valueLetter k ++ "return"
  | returnVoid => "Return"
  | getStatic _ => "Getstatic"
  | putStatic _ => "Putstatic"
  | getField _ => "Getfield"
  | putField _ => "Putfield"
  | invokeVirtual _ => "Invokevirtual"
  | invokeSpecial _ => "Invokespecial"
  | invokeStatic _ => "Invokestatic"
  | invokeInterface _ _ => "Invokeinterface"
  | invokeDynamic _ => "Invokedynamic"
  | newObject _ => "New"
  | newPrimitiveArray _ => "Newarray"
  | newReferenceArray _ => "Anewarray"
  | newMultiArray _ _ => "Multianewarray"
  | arrayLength => "Arraylength"
  | throwException => "Athrow"
  | checkCast _ => "Checkcast"
  | instanceOf _ => "Instanceof"
  | enterMonitor => "Monitorenter"
  | leaveMonitor => "Monitorexit"

/-- Texts in square brackets with commas between them. -/
def bracketed (texts : List String) : String := "[" ++ ", ".intercalate texts ++ "]"

/-- The operands with their names. -/
def operands : Instruction → List (String × String)
  | pushInt v => [("value", toString v)]
  | pushConstant i | pushWideConstant i | load _ i | store _ i | returnFromSubroutine i
  | getStatic i | putStatic i | getField i | putField i | invokeVirtual i | invokeSpecial i
  | invokeStatic i | invokeDynamic i | newObject i | newReferenceArray i | checkCast i
  | instanceOf i => [("index", toString i)]
  | increment i amount => [("index", toString i), ("constant", toString amount)]
  | ifZero _ offset | ifInts _ offset | ifReferences _ offset | ifNull _ offset
  | jump _ offset | jumpToSubroutine _ offset => [("offset", toString offset)]
  | tableSwitch default low high offsets =>
    [("default", toString default), ("low", toString low), ("high", toString high),
      ("offsets", bracketed (offsets.map toString))]
  | lookupSwitch default pairs =>
    let pairTexts := pairs.map fun p => "(" ++ toString p.1 ++ ", " ++ toString p.2 ++ ")"
    [("default", toString default), ("pairs", bracketed pairTexts)]
  | invokeInterface i count => [("index", toString i), ("count", toString count)]
  | newPrimitiveArray tag => [("atype", toString tag)]
  | newMultiArray i dimensions => [("index", toString i), ("dimensions", toString dimensions)]
  | _ => []

/-- The name of a variant with its fields in braces, if it has any. -/
def withFields (name : String) (fields : List (String × String)) : String :=
  if fields.isEmpty then name
  else
    let texts := fields.map fun field => field.1 ++ ": " ++ field.2
    name ++ " \x7b " ++ ", ".intercalate texts ++ " \x7d"

def text (i : Instruction) : String :=
  i.family.title ++ "(" ++ withFields i.mnemonic i.operands ++ ")"

end Instruction

end JavaMachine

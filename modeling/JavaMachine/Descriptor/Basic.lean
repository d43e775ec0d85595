/-!
# Types and class names

The types that descriptors name. A class is either named (`scalar`) or the array class of a
component type; both are written down differently as a type (`Ljava/lang/String;`) and as a class
name (`java/lang/String`), while array classes are written the same way in both places.
-/
namespace JavaMachine

/-- The eight primitive types. -/
inductive Primitive
  | boolean | byte | char | short | int | long | float | double
  deriving DecidableEq, Repr, Inhabited

/-- The type of a field, parameter or value. -/
inductive FieldType
  | primitive (p : Primitive)
  | object (name : String)
  | array (component : FieldType)
  deriving DecidableEq, Repr, Inhabited

/-- The name of a class. -/
inductive ClassName
  | scalar (name : String)
  | array (component : FieldType)
  deriving DecidableEq, Repr, Inhabited

namespace Primitive

def all : List Primitive := [boolean, byte, char, short, int, long, float, double]

/-- The letter of the type in a descriptor. -/
def letter : Primitive → Char
  | boolean => 'Z'
  | byte => 'B'
  | char => 'C'
  | short => 'S'
  | int => 'I'
  | long => 'J'
  | float => 'F'
  | double => 'D'

def ofLetter? (c : Char) : Option Primitive := all.find? fun p => p.letter = c

theorem ofLetter?_letter (p : Primitive) : ofLetter? p.letter = some p := by
  cases p <;> rfl

/-- The keyword of the type. -/
def keyword : Primitive → String
  | boolean => "boolean"
  | byte => "byte"
  | char => "char"
  | short => "short"
  | int => "int"
  | long => "long"
  | float => "float"
  | double => "double"

def ofKeyword? (s : String) : Option Primitive := all.find? fun p => p.keyword = s

theorem ofKeyword?_keyword (p : Primitive) : ofKeyword? p.keyword = some p := by
  cases p <;> rfl

/-- The keyword with a capital letter, as diagnostics write it. -/
def title : Primitive → String
  | boolean => "Boolean"
  | byte => "Byte"
  | char => "Char"
  | short => "Short"
  | int => "Int"
  | long => "Long"
  | float => "Float"
  | double => "Double"

/-- The code of the type in an instruction that creates an array. -/
def tag : Primitive → UInt8
  | boolean => 4
  | char => 5
  | float => 6
  | double => 7
  | byte => 8
  | short => 9
  | int => 10
  | long => 11

def ofTag? (t : UInt8) : Option Primitive := all.find? fun p => p.tag = t

/-- The number of slots a value of the type takes: two for the 64-bit types. -/
def category : Primitive → Nat
  | long | double => 2
  | _ => 1

end Primitive

namespace FieldType

/-- The descriptor of the type. -/
def chars : FieldType → List Char
  | primitive p => [p.letter]
  | object name => 'L' :: name.toList ++ [';']
  | array component => '[' :: component.chars

def descriptor (t : FieldType) : String := String.ofList t.chars

/-- The number of slots a value of the type takes. -/
def category : FieldType → Nat
  | primitive p => p.category
  | _ => 1

def isPrimitive : FieldType → Bool
  | primitive _ => true
  | _ => false

/-- The primitive type, when it is one. -/
def primitive? : FieldType → Option Primitive
  | primitive p => some p
  | _ => none

/-- The class of a reference type. -/
def class? : FieldType → Option ClassName
  | primitive _ => none
  | object name => some (.scalar name)
  | array component => some (.array component)

/-- The package of the innermost element; primitive elements count as part of `java/lang`. -/
def package (scalar : String → String) : FieldType → String
  | primitive _ => "java/lang"
  | object name => scalar name
  | array component => component.package scalar

end FieldType

/-- The text with slashes turned into dots. -/
def dotted (text : List Char) : String :=
  String.ofList (text.map fun c => if c = '/' then '.' else c)

namespace ClassName

/-- The name as class files write it. -/
def chars : ClassName → List Char
  | scalar name => name.toList
  | array component => '[' :: component.chars

def text (n : ClassName) : String := String.ofList n.chars

/-- The name as programs see it, with dots between its parts. -/
def dotted (n : ClassName) : String := JavaMachine.dotted n.chars

def isArray : ClassName → Bool
  | array _ => true
  | scalar _ => false

/-- The type whose values are the instances of the class. -/
def type : ClassName → FieldType
  | scalar name => .object name
  | array component => .array component

/-- What precedes the last slash of a name, or nothing. -/
def scalarPackage (name : String) : String :=
  String.ofList ((name.toList.reverse.dropWhile (· ≠ '/')).drop 1).reverse

/-- The package of the class; an array belongs to the package of its innermost element. -/
def package : ClassName → String
  | scalar name => scalarPackage name
  | array component => component.package scalarPackage

end ClassName

/-- The keyword of a primitive type, or the dotted name of a class. -/
def FieldType.dotted : FieldType → String
  | primitive p => p.keyword
  | object name => (ClassName.scalar name).dotted
  | array component => (ClassName.array component).dotted

/-- The name of a method with its parameter types and the type of its result, if any. -/
structure MethodSignature where
  name : String
  parameters : List FieldType
  result : Option FieldType
  deriving DecidableEq, Repr, Inhabited

namespace MethodSignature

def descriptorChars (s : MethodSignature) : List Char :=
  '(' :: s.parameters.flatMap FieldType.chars ++ ')' ::
    match s.result with
    | some t => t.chars
    | none => ['V']

def descriptor (s : MethodSignature) : String := String.ofList s.descriptorChars

def text (s : MethodSignature) : String := s.name ++ s.descriptor

/-- The slots that the parameters take, without the receiver's. -/
def parameterSlots (s : MethodSignature) : Nat :=
  s.parameters.foldr (fun t n => t.category + n) 0

end MethodSignature

end JavaMachine

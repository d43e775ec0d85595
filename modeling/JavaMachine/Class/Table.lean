import JavaMachine.Class.Basic
import JavaMachine.Preorder

/-!
# Class tables

The classes in the order of definition, and everything that depends on how they are related:
which classes a class extends and implements, where methods and static fields are found, and
which references may be stored where. A class refers only to classes with smaller numbers; a
reference that breaks this is read as absent, so every walk through the hierarchy ends.

Searches are split into an order (`superclasses`, `interfaceOrder`, `superinterfaces`,
`fieldOrder`) and a test, so that what is found first is a statement about a list.
-/
namespace JavaMachine

structure ClassTable where
  classes : Array Class
  deriving DecidableEq, Inhabited

namespace ClassTable

def empty : ClassTable := ⟨#[]⟩

def size (t : ClassTable) : Nat := t.classes.size

def get? (t : ClassTable) (c : ClassId) : Option Class := t.classes[c]?

def push (t : ClassTable) (c : Class) : ClassTable := ⟨t.classes.push c⟩

/-- The classes with smaller numbers. -/
def earlier (c : ClassId) (k : ClassId) : Bool := k < c

/-- The superclass of a class. -/
def superclass? (t : ClassTable) (c : ClassId) : Option ClassId :=
  ((t.get? c).bind Class.superclass).filter (earlier c)

/-- The interfaces that a class lists itself. -/
def interfaces (t : ClassTable) (c : ClassId) : List ClassId :=
  match t.get? c with
  | some k => k.interfaces.filter (earlier c)
  | none => []

/-- The class of the elements of an array class. -/
def component? (t : ClassTable) (c : ClassId) : Option ClassId :=
  ((t.get? c).bind Class.component).filter (earlier c)

theorem superclass?_lt {t : ClassTable} {c s : ClassId} (h : t.superclass? c = some s) :
    s < c := by
  simpa [earlier] using (Option.filter_eq_some_iff.1 h).2

theorem interfaces_lt {t : ClassTable} {c i : ClassId} (h : i ∈ t.interfaces c) : i < c := by
  unfold interfaces at h
  split at h
  · simpa [earlier] using (List.mem_filter.1 h).2
  · simp at h

theorem component?_lt {t : ClassTable} {c k : ClassId} (h : t.component? c = some k) :
    k < c := by
  simpa [earlier] using (Option.filter_eq_some_iff.1 h).2

def name (t : ClassTable) (c : ClassId) : ClassName :=
  match t.get? c with
  | some k => k.name
  | none => .scalar ""

/-- The name as class files write it. -/
def nameText (t : ClassTable) (c : ClassId) : String := (t.name c).text

def isInterface (t : ClassTable) (c : ClassId) : Bool :=
  match t.get? c with
  | some k => k.isInterface
  | none => false

def pool (t : ClassTable) (c : ClassId) : ConstantPool :=
  match t.get? c with
  | some k => k.pool
  | none => .empty

/-- The method that a class itself declares. -/
def declared? (t : ClassTable) (s : MethodSignature) (c : ClassId) : Option Method :=
  (t.get? c).bind fun k => k.method? s

/-! ### Walks through the hierarchy -/

/-- The class and its superclasses, from the class up. -/
def superclasses (t : ClassTable) (c : ClassId) : List ClassId :=
  c ::
    match h : t.superclass? c with
    | some s =>
      have := superclass?_lt h
      superclasses t s
    | none => []
termination_by c

/-- The interfaces that the class and its superclasses list, the class's own first. -/
def inheritedInterfaces (t : ClassTable) (c : ClassId) : List ClassId :=
  (t.superclasses c).flatMap t.interfaces

/-- The interfaces that instances of the class implement: each inherited interface, followed by
those it inherits in turn, each where it is met first. -/
def superinterfaces (t : ClassTable) (c : ClassId) : List ClassId :=
  (preorder t.inheritedInterfaces c).tail

/-- The classes searched for a method that no superclass declares: each interface with its
superclasses. -/
def interfaceOrder (t : ClassTable) (c : ClassId) : List ClassId :=
  (t.superinterfaces c).flatMap t.superclasses

/-- Where the search for a static field goes on: the interfaces of the class, then its
superclass. -/
def fieldParents (t : ClassTable) (c : ClassId) : List ClassId :=
  t.interfaces c ++ (t.superclass? c).toList

/-- The classes searched for a static field: the class, its interfaces, its superclass, each with
the classes searched for it in turn. -/
def fieldOrder (t : ClassTable) (c : ClassId) : List ClassId := preorder t.fieldParents c

/-! ### Finding methods -/

/-- The first class of an order that declares the signature, with the method. -/
def firstDeclared (t : ClassTable) (s : MethodSignature) (order : List ClassId) :
    Option (ClassId × Method) :=
  order.findSome? fun c => (t.declared? s c).map fun m => (c, m)

/-- The declaration of the signature that the class has or inherits: superclasses come before
interfaces. -/
def findMethod (t : ClassTable) (c : ClassId) (s : MethodSignature) : Option (ClassId × Method) :=
  match t.firstDeclared s (t.superclasses c) with
  | some found => some found
  | none => t.firstDeclared s (t.interfaceOrder c)

/-- Whether the class declares a method that takes the place of the resolved one: not private or
static, and of the same package when the resolved method is visible there only. -/
def overriding? (t : ClassTable) (resolved : Method) (c : ClassId) : Option Method :=
  (t.declared? resolved.signature c).filter fun m =>
    !m.isPrivate && !m.isStatic &&
      (!resolved.isPackagePrivate || (t.name c).package == resolved.owner.package)

/-- The first override of the resolved method from the class up. -/
def dispatch (t : ClassTable) (c : ClassId) (resolved : Method) : Option (ClassId × Method) :=
  (t.superclasses c).findSome? fun k => (t.overriding? resolved k).map fun m => (k, m)

/-- The method that a virtual call runs on an instance of the class: the override found by
dispatch, or else the method found by lookup, if it is not abstract. -/
def select (t : ClassTable) (c : ClassId) (resolved : Method) (s : MethodSignature) :
    Option (ClassId × Method) :=
  match (t.dispatch c resolved).filter fun found => !found.2.isAbstract with
  | some found => some found
  | none => (t.findMethod c s).filter fun found => !found.2.isAbstract

/-! ### Subtypes -/

def sameName (t : ClassTable) (a b : ClassId) : Bool := t.name a == t.name b

/-- Whether the class is the other class or extends it. -/
def isDescendant (t : ClassTable) (c other : ClassId) : Bool :=
  (t.superclasses c).any fun k => t.sameName k other

/-- Whether the class implements the interface, itself or through its superclasses. -/
def implements (t : ClassTable) (c interface : ClassId) : Bool :=
  (t.superinterfaces c).any fun k => t.sameName k interface

/-- The interfaces that every array class implements. -/
def arrayInterfaces : List ClassName :=
  [.scalar "java/lang/Cloneable", .scalar "java/io/Serializable"]

/-- Whether instances of the class may be stored in variables of the other class. Arrays compare
by their components, of which primitive ones match only themselves. -/
def isAssignable (t : ClassTable) (c other : ClassId) : Bool :=
  t.sameName c other ||
  match h : t.component? c, t.component? other with
  | some ours, some theirs =>
    have := component?_lt h
    (t.superclass? ours).isSome && isAssignable t ours theirs
  | _, _ =>
    ((t.name c).isArray && arrayInterfaces.contains (t.name other)) ||
    if t.isInterface other then t.implements c other else t.isDescendant c other
termination_by c

/-! ### Fields -/

/-- The fields of the instances of the class, those of superclasses first. -/
def instanceFields (t : ClassTable) (c : ClassId) : List Field :=
  (t.superclasses c).reverse.flatMap fun k =>
    match t.get? k with
    | some k => k.instanceFields
    | none => []

/-! ### Small facts -/

theorem superclasses_of_some {t : ClassTable} {c s : ClassId} (h : t.superclass? c = some s) :
    t.superclasses c = c :: t.superclasses s := by
  rw [superclasses]
  split <;> simp_all

theorem superclasses_of_none {t : ClassTable} {c : ClassId} (h : t.superclass? c = none) :
    t.superclasses c = [c] := by
  rw [superclasses]
  split <;> simp_all

theorem le_of_mem_superclasses {t : ClassTable} {c k : ClassId} (h : k ∈ t.superclasses c) :
    k ≤ c := by
  induction c using Nat.strongRecOn with
  | ind c ih =>
    cases up : t.superclass? c with
    | none => simp_all [superclasses_of_none up]
    | some s =>
      rw [superclasses_of_some up, List.mem_cons] at h
      rcases h with rfl | h
      · exact Nat.le_refl k
      · exact Nat.le_trans (ih s (superclass?_lt up) h) (Nat.le_of_lt (superclass?_lt up))

theorem inheritedInterfaces_descending (t : ClassTable) : Descending t.inheritedInterfaces := by
  intro c i member
  obtain ⟨k, up, listed⟩ := List.mem_flatMap.1 member
  exact Nat.lt_of_lt_of_le (interfaces_lt listed) (le_of_mem_superclasses up)

theorem fieldParents_descending (t : ClassTable) : Descending t.fieldParents := by
  intro c i member
  rcases List.mem_append.1 member with listed | up
  · exact interfaces_lt listed
  · exact superclass?_lt (by simpa using up)

theorem mem_superclasses_self (t : ClassTable) (c : ClassId) : c ∈ t.superclasses c := by
  rw [superclasses]
  exact List.mem_cons_self

theorem isAssignable_refl (t : ClassTable) (c : ClassId) : t.isAssignable c c = true := by
  rw [isAssignable]
  simp [sameName]

end ClassTable

end JavaMachine

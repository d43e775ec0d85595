import JavaMachine.Execution.Execute
import JavaMachine.Proofs.Superinterfaces
import JavaMachine.Proofs.VirtualCalls

/-!
# Default methods

When no class that the receiver extends declares the signature of a call, the call is meant to run
the default method: the only declaration with code among those in the superinterfaces that no
subinterface declares again. The search through the interfaces takes the first declaration that it
meets, abstract or not, so it finds the default method if there is no way to another declaration
past it, and otherwise it depends on the order in which interfaces are listed.
-/
namespace JavaMachine

namespace ClassTable

variable {t : ClassTable} {s : MethodSignature} {m d e : Method} {b c i j k : ClassId}

def Declares (t : ClassTable) (s : MethodSignature) (c : ClassId) : Prop :=
  (t.declared? s c).isSome = true

/-- The class implements the interface that declares the signature, and no subinterface of it that
the class also implements declares it again. -/
structure MaximallySpecific (t : ClassTable) (s : MethodSignature) (c k : ClassId) : Prop where
  implemented : t.Superinterface c k
  declares : t.Declares s k
  last : ∀ j, t.Superinterface c j → t.Declares s j → ¬ t.Superinterface j k

/-- The method is the only maximally specific declaration with code. -/
structure IsDefault (t : ClassTable) (s : MethodSignature) (c k : ClassId) (d : Method) : Prop
    extends MaximallySpecific t s c k where
  declared : t.declared? s k = some d
  concrete : d.isAbstract = false
  alone : ∀ j e, t.MaximallySpecific s c j → t.declared? s j = some e → e.isAbstract = false → j = k

/-- The class implements interface `i` by way of others than `k`. -/
def Bypasses (t : ClassTable) (k : ClassId) : ClassId → ClassId → Prop :=
  Relation.TransGen fun a i => i ∈ t.inheritedInterfaces a ∧ i ≠ k

/-! ### The search through the interfaces -/

theorem firstDeclared_eq_none (bare : ∀ b ∈ t.superclasses c, t.declared? s b = none) :
    t.firstDeclared s (t.superclasses c) = none :=
  List.findSome?_eq_none_iff.2 fun b member => by rw [bare b member]; rfl

theorem select_eq_of_bare (own : m.signature = s)
    (bare : ∀ b ∈ t.superclasses c, t.declared? s b = none) :
    t.select c m s = (t.firstDeclared s (t.interfaceOrder c)).bind unlessAbstract := by
  have dispatched : t.dispatch c m = none :=
    List.findSome?_eq_none_iff.2 fun b member => by simp [overriding?, own, bare b member]
  have found : t.findMethod c s = t.firstDeclared s (t.interfaceOrder c) := by
    rw [findMethod, firstDeclared_eq_none bare]
  rw [select, dispatched, found]
  cases t.firstDeclared s (t.interfaceOrder c) with
  | none => rfl
  | some x => cases abstract : x.2.isAbstract <;> simp [unlessAbstract, abstract]

theorem firstDeclared_interfaceOrder_iff :
    t.firstDeclared s (t.interfaceOrder c) = some (k, d) ↔
      t.declared? s k = some d ∧ FirstIn (t.interfaceOrder c) (t.Declares s) k :=
  findSome?_eq_some_iff_firstIn

theorem select_eq_some_iff (own : m.signature = s)
    (bare : ∀ b ∈ t.superclasses c, t.declared? s b = none) :
    t.select c m s = some (k, d) ↔
      t.declared? s k = some d ∧ d.isAbstract = false ∧
        FirstIn (t.interfaceOrder c) (t.Declares s) k := by
  rw [select_eq_of_bare own bare]
  constructor
  · intro chosen
    obtain ⟨⟨b, e⟩, found, kept⟩ := Option.bind_eq_some_iff.1 chosen
    cases abstract : e.isAbstract with
    | true => simp [unlessAbstract, abstract] at kept
    | false =>
      rw [unlessAbstract_of_concrete (x := (b, e)) abstract] at kept
      cases kept
      obtain ⟨declared, first⟩ := firstDeclared_interfaceOrder_iff.1 found
      exact ⟨declared, abstract, first⟩
  · rintro ⟨declared, concrete, first⟩
    rw [firstDeclared_interfaceOrder_iff.2 ⟨declared, first⟩]
    exact unlessAbstract_of_concrete concrete

theorem select_eq_none_iff (own : m.signature = s)
    (bare : ∀ b ∈ t.superclasses c, t.declared? s b = none) :
    t.select c m s = none ↔ ∀ k d, FirstIn (t.interfaceOrder c) (t.Declares s) k →
      t.declared? s k = some d → d.isAbstract = true := by
  constructor
  · intro missing k d first declared
    by_contra concrete
    rw [(select_eq_some_iff own bare).2 ⟨declared, by simpa using concrete, first⟩] at missing
    cases missing
  · intro abstract
    cases chosen : t.select c m s with
    | none => rfl
    | some x =>
      obtain ⟨declared, concrete, first⟩ :=
        (select_eq_some_iff (k := x.1) (d := x.2) own bare).1 chosen
      rw [abstract _ _ first declared] at concrete
      cases concrete

/-- The search through the interfaces is one along the ways that lead to them. -/
theorem firstDeclared_interfaceOrder (bare : ∀ b ∈ t.superclasses c, t.declared? s b = none) :
    t.firstDeclared s (t.interfaceOrder c) = (preorder t.inheritedInterfaces c).findSome?
      fun i => t.firstDeclared s (t.superclasses i) := by
  have flattened (order : List ClassId) : t.firstDeclared s (order.flatMap t.superclasses) =
      order.findSome? fun i => t.firstDeclared s (t.superclasses i) := by
    induction order with
    | nil => rfl
    | cons i rest ih =>
      rw [List.flatMap_cons, firstDeclared, List.findSome?_append, List.findSome?_cons, ← ih]
      change (t.firstDeclared s (t.superclasses i)).or _ = _
      cases t.firstDeclared s (t.superclasses i) <;> rfl
  obtain ⟨rest, listed, -⟩ := preorder_eq_cons t.inheritedInterfaces c
  rw [listed, List.findSome?_cons, firstDeclared_eq_none bare]
  rw [interfaceOrder, superinterfaces, listed, List.tail_cons, flattened]

theorem firstDeclared_superclasses_self (declared : t.declared? s k = some d) :
    t.firstDeclared s (t.superclasses k) = some (k, d) := by
  rw [superclasses, firstDeclared, List.findSome?_cons, declared]
  rfl

theorem findMethod_of_declared (declared : t.declared? s k = some d) :
    t.findMethod k s = some (k, d) := by
  rw [findMethod, firstDeclared_superclasses_self declared]

/-- A path on which nothing is found but at its end goes around every other place where something
is found. -/
theorem bypasses_of_path {f : ClassId → Option (ClassId × Method)} (hit : (f k).isSome = true)
    (other : i ≠ k)
    (path : Relation.ReflTransGen (fun a j => j ∈ t.inheritedInterfaces a ∧ f a = none) c i) :
    c = i ∨ f c = none ∧ t.Bypasses k c i := by
  induction path using Relation.ReflTransGen.head_induction_on with
  | refl => exact .inl rfl
  | @head a j edge _ ih =>
    refine .inr ⟨edge.2, ?_⟩
    rcases ih with rfl | ⟨missed, way⟩
    · exact .single ⟨edge.1, other⟩
    · refine .head ⟨edge.1, fun same => ?_⟩ way
      rw [← same, missed] at hit
      cases hit

/-- A method of an interface runs if there is no way to another declaration past it. -/
theorem select_of_guarded (own : m.signature = s)
    (bare : ∀ b ∈ t.superclasses c, t.declared? s b = none) (implemented : t.Superinterface c k)
    (declared : t.declared? s k = some d) (concrete : d.isAbstract = false)
    (guarded : ∀ i, t.Bypasses k c i → ∀ b ∈ t.superclasses i, ¬ t.Declares s b) :
    t.select c m s = some (k, d) := by
  have here := firstDeclared_superclasses_self declared
  have found : t.firstDeclared s (t.interfaceOrder c) = some (k, d) := by
    rw [firstDeclared_interfaceOrder bare]
    have met : k ∈ preorder t.inheritedInterfaces c :=
      t.inheritedInterfaces_descending.mem_preorder.2 (reaches_of_transGen implemented)
    have some : ((preorder t.inheritedInterfaces c).findSome?
        fun i => t.firstDeclared s (t.superclasses i)).isSome = true :=
      List.findSome?_isSome_iff.2 ⟨k, met, Option.isSome_of_eq_some here⟩
    obtain ⟨⟨b, e⟩, first⟩ := Option.isSome_iff_exists.1 some
    obtain ⟨i, hit, path⟩ :=
      exists_path_of_findSome?_preorder t.inheritedInterfaces_descending first
    by_cases same : i = k
    · rw [same, here] at hit
      rw [first, hit]
    · exfalso
      rcases bypasses_of_path (by simp [here]) same path with rfl | ⟨-, way⟩
      · rw [firstDeclared_eq_none bare] at hit
        cases hit
      · obtain ⟨declared', first'⟩ := findSome?_eq_some_iff_firstIn.1 hit
        obtain ⟨below, above, split, -⟩ := first'
        exact guarded i way b (by simp [split]) (Option.isSome_of_eq_some declared')
  rw [select_eq_of_bare own bare, found]
  exact unlessAbstract_of_concrete concrete

end ClassTable

namespace VirtualCall

variable {index : UInt16} {a : Activation} (call : VirtualCall index a)

/-- Which method a call runs if no class that the receiver extends declares its signature: the
first declaration in the order of the interfaces, if that is not abstract. It is the default method
exactly if this comes first, which it does in any order if there is no way to another declaration
past it. -/
theorem execute_default_iff (natives : NativeRegistry) (callers : List Frame)
    (bare : ∀ b ∈ call.world.classes.superclasses call.receiver,
      call.world.classes.declared? call.reference.signature b = none) :
    let t := call.world.classes
    let s := call.reference.signature
    (Instruction.invokeVirtual index).execute natives callers a =
        call.run natives callers call.selected ∧
      (∀ count, (Instruction.invokeInterface index count).execute natives callers a =
        call.run natives callers call.selected) ∧
      (call.selected = none ↔ ∀ k d, ClassTable.FirstIn (t.interfaceOrder call.receiver)
        (t.Declares s) k → t.declared? s k = some d → d.isAbstract = true) ∧
      ∀ k d, t.IsDefault s call.receiver k d →
        (call.selected = some (k, d) ↔
          ClassTable.FirstIn (t.interfaceOrder call.receiver) (t.Declares s) k) ∧
        ((∀ i, t.Bypasses k call.receiver i → ∀ b ∈ t.superclasses i, ¬ t.Declares s b) →
          call.selected = some (k, d)) := by
  have own : call.resolved.signature = call.reference.signature :=
    ClassTable.signature_of_declared? (ClassTable.declared_of_resolveMethod call.resolves)
  refine ⟨call.invokeVirtual_eq, fun _ => call.invokeVirtual_eq,
    ClassTable.select_eq_none_iff own bare, fun k d default => ⟨?_, ?_⟩⟩
  · refine (ClassTable.select_eq_some_iff own bare).trans ⟨fun chosen => chosen.2.2, ?_⟩
    exact fun first => ⟨default.declared, default.concrete, first⟩
  · exact ClassTable.select_of_guarded own bare default.implemented default.declared
      default.concrete

/-! A method that calls a method on an instance of a class that lists an interface, where the
method is abstract, and a subinterface, where it is a default method. -/

def invoking : Method :=
  { calling with body := some ⟨1, 0, #[0xbb, 0x00, 0x01, 0xb9, 0x00, 0x02, 0x01, 0x00, 0xac], []⟩ }

def listingProgram (listed : List ClassId) : List ClassDefinition :=
  [{ ClassDefinition.ofName (.scalar "Shape") with
      flags := 0x0601
      superclass := some 0
      methods := [(called, 0x0401, none)] },
    { ClassDefinition.ofName (.scalar "Drawn") with
      flags := 0x0601
      superclass := some 0
      interfaces := [5]
      methods := [(called, 0x0001, (seven 1).body)] },
    { ClassDefinition.ofName (.scalar "Circle") with
      superclass := some 0
      interfaces := listed },
    { ClassDefinition.ofName invoking.owner with
      superclass := some 0
      pool := .ofList [.className (.scalar "Circle"), .interfaceMethod ⟨.scalar "Shape", called⟩]
      methods := [(invoking.signature, invoking.flags, invoking.body)] }]

def instanceOfCircle (listed : List ClassId) : Reference × Heap :=
  (World.ofProgram .working 0 (listingProgram listed)).heap.allocate (.object 7 .empty)

def invokingActivation (listed : List ClassId) : Activation where
  frame := ⟨8, invoking, 3, 8, .empty 0, ⟨[.reference (instanceOfCircle listed).1], 1, 1⟩⟩
  world := { World.ofProgram .working 0 (listingProgram listed) with
    heap := (instanceOfCircle listed).2 }

theorem superclasses_listing (listed : List ClassId) :
    (invokingActivation listed).world.classes.superclasses 5 = [5, 0] ∧
      (invokingActivation listed).world.classes.superclasses 6 = [6, 0] ∧
      (invokingActivation listed).world.classes.superclasses 7 = [7, 0] := by
  have up (c : ClassId)
      (extended : (invokingActivation listed).world.classes.superclass? c = some 0) :
      (invokingActivation listed).world.classes.superclasses c = [c, 0] := by
    have root : (invokingActivation listed).world.classes.superclass? 0 = none := rfl
    rw [ClassTable.superclasses_of_some extended, ClassTable.superclasses_of_none root]
  exact ⟨up 5 rfl, up 6 rfl, up 7 rfl⟩

def drawing : Method := ⟨.scalar "Shape", called, 0x0401, none⟩

def drawn : Method := ⟨.scalar "Drawn", called, 0x0001, (seven 1).body⟩

def listingCall (listed : List ClassId) : VirtualCall 2 (invokingActivation listed) where
  reference := ⟨.scalar "Shape", called⟩
  refers := rfl
  referred := 5
  world := (invokingActivation listed).world
  loads := rfl
  declarer := 5
  resolved := drawing
  resolves := by
    unfold ClassTable.resolveMethod ClassTable.findMethod
    rw [(superclasses_listing listed).1]
    rfl
  arguments := [.reference (instanceOfCircle listed).1]
  stack := .empty 1
  pops := rfl
  receiver := 7
  receives := rfl

theorem bare_listing (listed : List ClassId) :
    ∀ b ∈ (listingCall listed).world.classes.superclasses (listingCall listed).receiver,
      (listingCall listed).world.classes.declared? (listingCall listed).reference.signature b =
        none := by
  change ∀ b ∈ (invokingActivation listed).world.classes.superclasses 7, _
  rw [(superclasses_listing listed).2.2]
  intro b member
  rcases List.mem_pair.1 member with rfl | rfl <;> rfl

theorem superinterfaces_listing :
    (invokingActivation [5, 6]).world.classes.superinterfaces 7 = [5, 6] ∧
      (invokingActivation [6, 5]).world.classes.superinterfaces 7 = [6, 5] := by
  decide +kernel

theorem isDefault_listing {listed : List ClassId}
    (both : ∀ j, j ∈ (invokingActivation listed).world.classes.superinterfaces 7 ↔ j = 5 ∨ j = 6) :
    (listingCall listed).world.classes.IsDefault called 7 6 drawn := by
  have implements (j : ClassId) :
      (listingCall listed).world.classes.Superinterface 7 j ↔ j = 5 ∨ j = 6 :=
    ClassTable.mem_superinterfaces.symm.trans (both j)
  refine { implemented := (implements 6).2 (.inr rfl), declares := rfl, last := ?_, declared := rfl,
           concrete := rfl, alone := ?_ }
  · intro j implemented _ above
    have below : 6 < j := lt_of_transGen
      (listingCall listed).world.classes.inheritedInterfaces_descending above
    rcases (implements j).1 implemented with rfl | rfl <;> exact absurd below (by decide)
  · intro j e specific declared concrete
    rcases (implements j).1 specific.implemented with rfl | rfl
    · cases declared
      cases concrete
    · rfl

theorem interfaceOrder_listing :
    (invokingActivation [5, 6]).world.classes.interfaceOrder 7 = [5, 0, 6, 0] ∧
      (invokingActivation [6, 5]).world.classes.interfaceOrder 7 = [6, 0, 5, 0] := by
  constructor
  · rw [ClassTable.interfaceOrder, superinterfaces_listing.1, List.flatMap_cons, List.flatMap_cons,
      (superclasses_listing [5, 6]).1, (superclasses_listing [5, 6]).2.1]
    rfl
  · rw [ClassTable.interfaceOrder, superinterfaces_listing.2, List.flatMap_cons, List.flatMap_cons,
      (superclasses_listing [6, 5]).1, (superclasses_listing [6, 5]).2.1]
    rfl

theorem isDefault_subinterfaceFirst :
    (listingCall [6, 5]).world.classes.IsDefault called 7 6 drawn :=
  isDefault_listing fun j => by rw [superinterfaces_listing.2, List.mem_pair]; exact or_comm

theorem execute_default_subinterfaceFirst :
    (∀ b ∈ (listingCall [6, 5]).world.classes.superclasses 7,
      (listingCall [6, 5]).world.classes.declared? called b = none) ∧
    (listingCall [6, 5]).world.classes.IsDefault called 7 6 drawn ∧
    (Instruction.invokeInterface 2 1).execute .standard [] (invokingActivation [6, 5]) =
      (listingCall [6, 5]).run .standard [] (some (6, drawn)) := by
  obtain ⟨-, runs, -, default⟩ :=
    (listingCall [6, 5]).execute_default_iff .standard [] (bare_listing [6, 5])
  have first : ClassTable.FirstIn ((listingCall [6, 5]).world.classes.interfaceOrder 7)
      ((listingCall [6, 5]).world.classes.Declares called) 6 :=
    ⟨[], [0, 5, 0], interfaceOrder_listing.2, rfl, by simp⟩
  have chosen := (default 6 drawn isDefault_subinterfaceFirst).1.2 first
  exact ⟨bare_listing [6, 5], isDefault_subinterfaceFirst, chosen ▸ runs 1⟩

/-- Where the interface with the abstract method is listed first, the call fails although there is
a default method. -/
theorem execute_misses_default :
    ¬ ∀ natives callers index count a (call : VirtualCall index a),
      (∀ b ∈ call.world.classes.superclasses call.receiver,
        call.world.classes.declared? call.reference.signature b = none) → ∀ k d,
      call.world.classes.IsDefault call.reference.signature call.receiver k d →
      (Instruction.invokeInterface index count).execute natives callers a =
        call.run natives callers (some (k, d)) := by
  intro answers
  have default : (listingCall [5, 6]).world.classes.IsDefault called 7 6 drawn :=
    isDefault_listing fun j => by rw [superinterfaces_listing.1, List.mem_pair]
  have failed := answers .standard [] 2 1 (invokingActivation [5, 6]) (listingCall [5, 6])
    (bare_listing [5, 6]) 6 drawn default
  have first : ClassTable.FirstIn ((listingCall [5, 6]).world.classes.interfaceOrder 7)
      ((listingCall [5, 6]).world.classes.Declares called) 5 :=
    ⟨[], [0, 6, 0], interfaceOrder_listing.1, rfl, by simp⟩
  have missed : (listingCall [5, 6]).selected = none := by
    refine (ClassTable.select_eq_none_iff rfl (bare_listing [5, 6])).2 fun k d first' declared => ?_
    cases first'.unique first
    cases declared
    rfl
  change Execution.invokeVirtual _ _ _ _ = _ at failed
  rw [invokeVirtual_eq, missed] at failed
  cases failed

end VirtualCall

end JavaMachine

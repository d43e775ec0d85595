import JavaMachine.Proofs.FieldAccesses

/-!
# Histories of fields

Whatever objects are created and whatever fields are got and put in between, a get reads the same
until a put uses its slot. Fields that differ in name, or of which only one is static, have
different slots, and so have static fields of different classes, unless another static field of the
name hides one of them. Fields of one name in one object share their slot, so what a put through a
reference to one of them has written is read through a reference to the other one.
-/
namespace JavaMachine

/-- The worlds that come after a world. Fields are accessed and objects are created by any frame,
with whatever outcome, and in between anything may happen that overwrites no slot, leaves none out
and stores nothing but values of the types of fields. The slots that puts have used are listed. -/
inductive FieldHistory (w : World) : List FieldSlot → World → Prop
  | start : FieldHistory w [] w
  | accessed {written : List FieldSlot} {a : Activation} {F : DeclaredField} {i : Instruction}
      {r : FieldReference} {s : FieldSlot} (h : FieldHistory w written a.world)
      (accesses : a.Accesses F i r s) (natives : NativeRegistry) (callers : List Frame) :
      FieldHistory w (i.overwrites s ++ written) (endState (i.execute natives callers a)).world
  | created {written : List FieldSlot} {a : Activation} (h : FieldHistory w written a.world)
      (index : UInt16) (natives : NativeRegistry) (callers : List Frame) :
      FieldHistory w written
        (endState ((Instruction.newObject index).execute natives callers a)).world
  | between {written : List FieldSlot} {w₁ w' : World} (h : FieldHistory w written w₁)
      (proceeds : w₁.Proceeds [] w') : FieldHistory w written w'

namespace Execution

variable {a a' : Activation} {index : UInt16}

theorem create_fresh {c : ClassId} (done : create c a = .ok .proceed a') :
    ∃ x below, a'.frame.stack.values = .reference x :: below ∧ a.world.object? x = none ∧
      a'.world.HoldsDefaults x := by
  obtain ⟨x, made, fresh, defaults⟩ := World.holdsDefaults_newObject a.world c
  unfold create at done
  rw [bind_of_ok (onWorld_eq_ok.2 ⟨_, made, rfl⟩)] at done
  obtain ⟨_, a₁, placed, ⟨⟩⟩ := bind_eq_ok.1 done
  obtain ⟨stack, pushed, rfl⟩ := onStack_eq_ok.1 placed
  exact ⟨x, _, OperandStack.push_eq_ok pushed, fresh, defaults⟩

/-- What an instruction that goes on has created was no object before, and holds defaults. -/
theorem newObject_fresh (linked : a.world.Linked) (done : newObject index a = .ok .proceed a') :
    ∃ x below, a'.frame.stack.values = .reference x :: below ∧ a.world.object? x = none ∧
      a'.world.HoldsDefaults x := by
  rw [newObject_eq] at done
  obtain ⟨name, a₁, read, done⟩ := bind_eq_ok.1 done
  obtain ⟨-, rfl⟩ := ofExcept_eq_ok.1 read
  obtain ⟨c, a₂, found, done⟩ := bind_eq_ok.1 done
  obtain ⟨w₁, loaded, rfl⟩ := onWorld_eq_ok.1 found
  have loads := World.proceeds_loadClass linked name
  rw [loaded] at loads
  obtain ⟨w₂, marks, -, done⟩ := rest_of_whenInitialized done
  obtain ⟨x, below, values, fresh, defaults⟩ := create_fresh done
  refine ⟨x, below, values, ?_, defaults⟩
  cases before : a.world.object? x with
  | none => rfl
  | some object =>
    obtain ⟨fields, here⟩ := (loads.trans marks).owners x object.1 object.2 before
    rw [fresh] at here
    cases here

end Execution

namespace FieldHistory

variable {w w' : World} {written : List FieldSlot}

theorem proceeds (h : FieldHistory w written w') (linked : w.Linked)
    (declared : w.StaticsDeclared) : w.Proceeds written w' := by
  induction h with
  | start => exact .refl w
  | accessed h accesses natives callers ih =>
    exact ih.trans (accesses.proceeds (ih.linked linked) (ih.declared declared) natives callers)
  | created h index natives callers ih =>
    exact ih.trans (Execution.proceeds_newObject (ih.linked linked) index)
  | between h proceeds ih => exact ih.trans proceeds

/-- In the course of any history of a program: a field is accessed in no slot but its own, where an
own slot of a static field may be one with a class that hides it. The slot is there, and holds a
value of the type of a field that shares it. A get reads this value, as far as the operand stack has
room for it, and goes on to read it as long as no put uses the slot. A new object holds the defaults
of the nearest fields. -/
theorem fields_kept_apart {console : Console} {clock : Nat} {program : List ClassDefinition}
    (h : FieldHistory (World.ofProgram console clock program) written w)
    {natives : NativeRegistry} {callers : List Frame} {a : Activation} (now : a.world = w) :
    (∀ F i r s, a.Accesses F i r s → w.IsSlotOf F s ∧
      ∃ v G, w.slot? s = some v ∧ w.Shares s G ∧ v.Represents G.field.type) ∧
    (∀ F i r s v, a.Accesses F i r s → i.IsGet → w.slot? s = some v →
      (w.IsReady s → (∃ a', i.execute natives callers a = .ok .proceed a') ∨
        ∃ limit a', i.execute natives callers a = .error (.operandStackOverflow limit) a') ∧
      ∀ a', i.execute natives callers a = .ok .proceed a' →
        (∃ below, a'.frame.stack.values = v :: below) ∧
        ∀ written' w', FieldHistory a'.world written' w' → s ∉ written' →
          i.execute natives callers ⟨a.frame, w'⟩ = .ok .proceed ⟨a'.frame, w'⟩) ∧
    ∀ index a', (Instruction.newObject index).execute natives callers a = .ok .proceed a' →
      ∃ x below, a'.frame.stack.values = .reference x :: below ∧ w.object? x = none ∧
        a'.world.HoldsDefaults x := by
  subst now
  have origin := World.linked_ofProgram console clock program
  have initially := World.stored_ofProgram console clock program
  have since := h.proceeds origin initially.declared
  have linked := since.linked origin
  have stored := since.alters.stored initially
  refine ⟨?_, ?_, fun index a' => Execution.newObject_fresh linked⟩
  · intro F i r s accesses
    exact ⟨accesses.isSlotOf linked stored.declared, accesses.holds linked stored⟩
  · intro F i r s v accesses get held
    refine ⟨fun ready => accesses.pushes linked get held ready natives callers, fun a' done => ?_⟩
    have passed := accesses.proceeds linked stored.declared natives callers
    rw [done] at passed
    refine ⟨accesses.reads linked get held done, fun written' w' later spared => ?_⟩
    have proceeds := later.proceeds (passed.linked linked) (passed.declared stored.declared)
    exact accesses.reads_again linked stored.declared get held done proceeds spared

/-! Two classes, one extending the other, declare fields of the same names. -/

def hidden : Field := ⟨"x", .primitive .int, Bootstrap.publicFlag⟩

def beside : Field := ⟨"y", .primitive .int, Bootstrap.publicFlag⟩

def numeric : Field := ⟨"z", .primitive .int, Bootstrap.publicFlag⟩

def referring : Field := ⟨"z", .object "java/lang/Object", Bootstrap.publicFlag⟩

def accessing : Method :=
  { owner := .scalar "Main"
    signature := ⟨"run", [], none⟩
    flags := Bootstrap.publicFlag ||| Bootstrap.staticFlag
    body := some ⟨2, 0, #[0xb4, 0, 1, 0xb1], []⟩ }

def hidingProgram : List ClassDefinition :=
  [{ ClassDefinition.ofName (.scalar "Base") with
      superclass := some 0
      fields := [hidden, numeric] },
    { ClassDefinition.ofName (.scalar "Sub") with
      superclass := some 5
      fields := [hidden, beside, referring] },
    { ClassDefinition.ofName accessing.owner with
      superclass := some 0
      pool := .ofList [.field ⟨.scalar "Base", "x", hidden.type⟩,
        .field ⟨.scalar "Sub", "x", hidden.type⟩, .field ⟨.scalar "Sub", "y", beside.type⟩,
        .field ⟨.scalar "Base", "z", numeric.type⟩]
      methods := [(accessing.signature, accessing.flags, accessing.body)] }]

def hidingWorld : World := endState (World.newObject 6 (World.ofProgram .working 0 hidingProgram))

def hidingFrame (values : List Value) : Frame :=
  { owner := 7
    method := accessing
    pc := 0
    nextPc := 3
    locals := .empty 0
    stack := ⟨values, values.length, 2⟩ }

def getting (w : World) : Activation := ⟨hidingFrame [.reference (.entity 2)], w⟩

def putting (w : World) : Activation := ⟨hidingFrame [.int 1, .reference (.entity 2)], w⟩

/-- What an instruction that goes on leaves on top of the stack. -/
def topOf : EStateM.Result Error Activation Action → Option Value
  | .ok .proceed a => a.frame.stack.values.head?
  | _ => none

theorem topOf_eq_some {x : EStateM.Result Error Activation Action} {v : Value}
    (h : topOf x = some v) : ∃ a, x = .ok .proceed a ∧ a.frame.stack.values.head? = some v := by
  unfold topOf at h
  split at h
  · exact ⟨_, rfl, h⟩
  · cases h

def valueRead (index : UInt16) (w : World) : Option Value :=
  topOf ((Instruction.getField index).execute .standard [] (getting w))

def afterPut (index : UInt16) : World :=
  (endState ((Instruction.putField index).execute .standard [] (putting hidingWorld))).world

set_option maxRecDepth 100000 in
theorem history_hiding :
    FieldHistory (World.ofProgram .working 0 hidingProgram) [] hidingWorld :=
  .between .start (World.proceeds_newObject (by decide +kernel))

set_option maxRecDepth 100000 in
theorem shares_hiding {F : DeclaredField}
    (member : F ∈ [⟨5, hidden⟩, ⟨5, numeric⟩, ⟨6, hidden⟩, ⟨6, beside⟩]) :
    hidingWorld.Shares (.ofObject (.entity 2) F.field.name) F := by
  have here : hidingWorld.object? (.entity 2) =
      some (6, Fields.initial [hidden, numeric, hidden, beside, referring]) := by
    decide +kernel
  have all : ∀ F ∈ ([⟨5, hidden⟩, ⟨5, numeric⟩, ⟨6, hidden⟩, ⟨6, beside⟩] : List DeclaredField),
      F.owner ∈ hidingWorld.classes.superclasses 6 ∧
      F.field ∈ hidingWorld.classes.fieldsOf F.owner ∧ F.field.isStatic = false := by
    decide +kernel
  obtain ⟨inherited, declared, own⟩ := all F member
  exact .ofObject here inherited declared own

set_option maxRecDepth 100000 in
/-- The fields of one name are accessed in one slot, and the one of another name in another. -/
theorem accesses_hiding :
    (getting hidingWorld).Accesses ⟨5, hidden⟩ (.getField 1) ⟨.scalar "Base", "x", hidden.type⟩
      (.ofObject (.entity 2) "x") ∧
    (putting hidingWorld).Accesses ⟨6, hidden⟩ (.putField 2) ⟨.scalar "Sub", "x", hidden.type⟩
      (.ofObject (.entity 2) "x") ∧
    (putting hidingWorld).Accesses ⟨6, beside⟩ (.putField 3) ⟨.scalar "Sub", "y", beside.type⟩
      (.ofObject (.entity 2) "y") ∧
    (getting hidingWorld).Accesses ⟨5, numeric⟩ (.getField 4) ⟨.scalar "Base", "z", numeric.type⟩
      (.ofObject (.entity 2) "z") := by
  have meant : hidingWorld.resolveField ⟨.scalar "Base", "x", hidden.type⟩ = some ⟨5, hidden⟩ ∧
      hidingWorld.resolveField ⟨.scalar "Sub", "x", hidden.type⟩ = some ⟨6, hidden⟩ ∧
      hidingWorld.resolveField ⟨.scalar "Sub", "y", beside.type⟩ = some ⟨6, beside⟩ ∧
      hidingWorld.resolveField ⟨.scalar "Base", "z", numeric.type⟩ = some ⟨5, numeric⟩ := by
    decide +kernel
  obtain ⟨upper, lower, other, number⟩ := meant
  constructor
  · exact .getField rfl upper rfl (shares_hiding (F := ⟨5, hidden⟩) (by simp))
  constructor
  · exact .putField rfl lower rfl (shares_hiding (F := ⟨6, hidden⟩) (by simp))
  constructor
  · exact .putField rfl other rfl (shares_hiding (F := ⟨6, beside⟩) (by simp))
  · exact .getField rfl number rfl (shares_hiding (F := ⟨5, numeric⟩) (by simp))

set_option maxRecDepth 100000 in
theorem valueRead_hiding : valueRead 1 hidingWorld = some (.int 0) ∧
    valueRead 1 (afterPut 2) = some (.int 1) ∧
    valueRead 4 hidingWorld = some (.reference .null) := by
  decide +kernel

theorem fields_kept_apart_beside : valueRead 1 (afterPut 3) = some (.int 0) := by
  obtain ⟨a, read, top⟩ := topOf_eq_some valueRead_hiding.1
  obtain ⟨accessed, gets, -⟩ := @fields_kept_apart _ _ _ _ _ history_hiding .standard []
    (getting hidingWorld) rfl
  obtain ⟨-, v, -, held, -⟩ := accessed _ _ _ _ accesses_hiding.1
  obtain ⟨-, again⟩ := (gets _ _ _ _ v accesses_hiding.1 trivial held).2 a read
  have world : a.world = hidingWorld := by
    have kept := Execution.world_getField 1 (getting hidingWorld)
    have done : Execution.getField 1 (getting hidingWorld) = .ok () a :=
      Execution.proceeding_eq_ok.1 read
    rwa [done] at kept
  have later : FieldHistory hidingWorld [.ofObject (.entity 2) "y"] (afterPut 3) :=
    .accessed (a := putting hidingWorld) .start accesses_hiding.2.2.1 .standard []
  have same := again _ _ (world ▸ later) (by decide)
  exact (congrArg topOf same).trans top

/-- A put through a reference to a field may change what is read through a reference to another
field, a new object may hold another default than that of a field's type, and what is read may be of
another type. -/
theorem hidden_field_overwritten :
    (¬ ∀ (console : Console) (clock : Nat) (program : List ClassDefinition)
      (written : List FieldSlot) (a b : Activation) (F G : DeclaredField) (i j : Instruction)
      (r q : FieldReference) (s t : FieldSlot),
      FieldHistory (World.ofProgram console clock program) written a.world → b.world = a.world →
      F ≠ G → a.Accesses F i r s → ¬ i.IsGet → b.Accesses G j q t → j.IsGet →
      topOf (j.execute .standard [] ⟨b.frame, (endState (i.execute .standard [] a)).world⟩) =
        topOf (j.execute .standard [] b)) ∧
    (¬ ∀ (console : Console) (clock : Nat) (program : List ClassDefinition) (c : ClassId)
      (x : Reference) (w : World) (F : DeclaredField),
      World.newObject c (World.ofProgram console clock program) = .ok x w →
      w.Shares (.ofObject x F.field.name) F →
      w.slot? (.ofObject x F.field.name) = some F.field.type.zero) ∧
    ¬ ∀ (console : Console) (clock : Nat) (program : List ClassDefinition)
      (written : List FieldSlot) (b : Activation) (G : DeclaredField) (j : Instruction)
      (q : FieldReference) (t : FieldSlot) (v : Value),
      FieldHistory (World.ofProgram console clock program) written b.world →
      b.Accesses G j q t → j.IsGet → topOf (j.execute .standard [] b) = some v →
      v.Represents G.field.type := by
  obtain ⟨getsUpper, putsLower, -, getsNumber⟩ := accesses_hiding
  obtain ⟨before, after, null⟩ := valueRead_hiding
  refine ⟨?_, ?_, ?_⟩
  · intro apart
    have same : valueRead 1 (afterPut 2) = valueRead 1 hidingWorld :=
      apart .working 0 hidingProgram [] (putting hidingWorld) (getting hidingWorld) ⟨6, hidden⟩
        ⟨5, hidden⟩ (.putField 2) (.getField 1) _ _ _ _ history_hiding rfl (by decide) putsLower id
        getsUpper trivial
    rw [before, after] at same
    cases same
  · intro defaults
    have held := defaults .working 0 hidingProgram 6 (.entity 2) hidingWorld ⟨5, numeric⟩ rfl
      (shares_hiding (by simp))
    have other : hidingWorld.slot? (.ofObject (.entity 2) "z") = some (.reference .null) := by
      decide +kernel
    cases other.symm.trans held
  · intro typed
    cases typed .working 0 hidingProgram [] (getting hidingWorld) ⟨5, numeric⟩ (.getField 4) _ _ _
      history_hiding getsNumber trivial null

end FieldHistory

end JavaMachine

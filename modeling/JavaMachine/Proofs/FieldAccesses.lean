import JavaMachine.Proofs.ClassRegistry
import JavaMachine.Proofs.FieldStorage
import JavaMachine.Proofs.GuardedAccess
import JavaMachine.Proofs.HandlerSearch

/-!
# Accesses to fields

An instruction that gets or puts a field through a reference uses one slot: that of the name in the
object on the operand stack, or that of the name with the class where the search for a static field
ends. A put overwrites no other slot, whatever classes it loads and marks on the way, and what a get
has read it reads again as long as no put has used its slot.
-/
namespace JavaMachine

theorem ConstantPool.get?_empty (index : UInt16) : empty.get? index = none := by
  unfold get? OneIndexed.get?
  cases index.toNat <;> rfl

theorem endState_bind_pure {ε σ α β : Type} (x : EStateM ε σ α) (b : β) (s : σ) :
    endState ((x >>= fun _ => pure b) s) = endState (x s) := by
  change endState (EStateM.bind x _ s) = _
  unfold EStateM.bind
  cases x s <;> rfl

namespace OperandStack

variable {s s' : OperandStack}

theorem popTyped_eq_ok {type : FieldType} {v : Value} (h : popTyped type s = .ok v s') :
    (∃ u, s.values = u :: s'.values) ∧ v.Represents type := by
  cases type with
  | primitive p =>
    obtain ⟨e, s₁, popped, h⟩ := bind_eq_ok.1 h
    cases h
    obtain ⟨u, values, read⟩ := popAs_eq_ok popped
    exact ⟨⟨u, values⟩, Scalar.type_ofValue? read ▸ e.represents_widen⟩
  | object _ | array _ =>
    obtain ⟨r, s₁, popped, h⟩ := bind_eq_ok.1 h
    cases h
    obtain ⟨u, values, -⟩ := popAs_eq_ok popped
    refine ⟨⟨u, values⟩, ?_⟩
    constructor

def without (s : OperandStack) (below : List Value) : OperandStack :=
  { s with values := below, size := s.size - 1 }

theorem popNonNull_of_values {r : Reference} {below : List Value}
    (values : s.values = .reference r :: below) (there : r ≠ .null) :
    popNonNull s = .ok r (s.without below) := by
  have popped : popReference s = .ok r (s.without below) := by
    unfold popReference popAs
    have top : pop s = .ok (.reference r) (s.without below) := by
      unfold pop
      rw [values]
      rfl
    rw [bind_of_ok top]
    rfl
  unfold popNonNull
  rw [bind_of_ok popped, if_neg there]
  rfl

theorem popNonNull_eq_ok {r : Reference} (h : popNonNull s = .ok r s') :
    s.values = .reference r :: s'.values := by
  obtain ⟨x, s₁, popped, h⟩ := bind_eq_ok.1 h
  obtain ⟨u, values, read⟩ := popAs_eq_ok popped
  have same : x = r ∧ s₁ = s' := by
    by_cases null : x = .null
    · rw [if_pos null] at h
      cases h
    · rw [if_neg null] at h
      cases h
      exact ⟨rfl, rfl⟩
  obtain ⟨rfl, rfl⟩ := same
  cases u with
  | reference x =>
    cases read
    exact values
  | _ => cases read

end OperandStack

namespace World

variable {w w₁ w' : World} {s : FieldSlot} {v : Value} {F : DeclaredField} {c k : ClassId}
  {written written' : List FieldSlot}

def resolveField (w : World) (r : FieldReference) : Option DeclaredField :=
  match loadClass r.owner w with
  | .ok c w' => w'.classes.resolveField c r.name r.type
  | .error _ _ => none

/-- The world goes on as another one, in which nothing is overwritten but the slots given, names
lead to the same classes, and classes that were initialized still are. -/
structure Proceeds (written : List FieldSlot) (w w' : World) : Prop extends
    alters : AltersOnly written w w' where
  registry : ∀ name k, w.registry.get? name = some k → w'.registry.get? name = some k
  linked : w.Linked → w'.Linked
  begun : ∀ c, w.isInitialized c = true → w'.isInitialized c = true

namespace Proceeds

theorem refl (w : World) : Proceeds [] w w :=
  { AltersOnly.refl w with
    registry := fun _ _ => id
    linked := id
    begun := fun _ => id }

theorem trans (h : Proceeds written w w₁) (h' : Proceeds written' w₁ w') :
    Proceeds (written' ++ written) w w' :=
  { h.alters.trans h'.alters with
    registry := fun name k found => h'.registry name k (h.registry name k found)
    linked := h'.linked ∘ h.linked
    begun := fun c => h'.begun c ∘ h.begun c }

theorem of_nothing (h : Proceeds [] w w') : Proceeds written w w' :=
  { h.alters.of_nothing with
    registry := h.registry
    linked := h.linked
    begun := h.begun }

end Proceeds

instance : IsPreorder World (Proceeds []) where
  refl := Proceeds.refl
  trans _ _ _ := Proceeds.trans

theorem proceeds_of_sameTables (h : AltersOnly written w w') (same : w.SameTables w')
    (initialized : w'.initialized = w.initialized) : Proceeds written w w' :=
  { h with
    registry := same.enlarges.registry
    linked := fun linked => linked.of_same same.classes same.registry same.primitives
    begun := by
      unfold isInitialized
      rw [initialized]
      exact fun _ => id }

theorem proceeds_markInitialized (w : World) (c : ClassId) :
    Proceeds [] w (w.markInitialized c) :=
  { altersOnly_markInitialized w c with
    registry := (sameTables_markInitialized w c).enlarges.registry
    linked := fun linked => linked.markInitialized c
    begun := fun _ begun => isInitialized_markInitialized.2 (.inr begun) }

theorem toleratesMarks_proceeds : ToleratesMarks (Proceeds []) where
  marked w c _ _ := proceeds_markInitialized w c

theorem proceeds_nextInitializer (w : World) (c : ClassId) :
    Proceeds [] w (endState (nextInitializer (w.uninitialized c) w)) :=
  relates_nextInitializer toleratesMarks_proceeds (w.due_uninitialized c)

theorem loads_loadClass (linked : w.Linked) (name : ClassName) :
    w.Loads (endState (loadClass name w)) := by
  have settled := typeClass_settles (Loads.refl linked) name.type
  rw [← loadClass_eq] at settled
  cases loaded : loadClass name w with
  | ok c w' =>
    rw [loaded] at settled
    exact settled.1
  | error e w' =>
    rw [loaded] at settled
    exact settled.1

theorem proceeds_loadClass (linked : w.Linked) (name : ClassName) :
    Proceeds [] w (endState (loadClass name w)) := by
  have loads := loads_loadClass linked name
  have grows := keeps_loadClass toleratesHeap_grows.loading name w
  refine { altersOnly_of_loads loads with
    registry := ?_
    linked := fun _ => loads.linked
    begun := grows.kept }
  intro other k found
  cases other with
  | scalar other => rw [loads.scalars, found]
  | array type => exact loads.arrays type k found

theorem proceeds_newObject (below : c < w.classes.size) :
    Proceeds [] w (endState (newObject c w)) :=
  proceeds_of_sameTables (altersOnly_newObject below) ⟨rfl, rfl, rfl⟩ rfl

theorem proceeds_writeField {r : Reference} {fields : Fields} {name : String}
    (here : w.object? r = some (c, fields)) (admits : w.Admits (.ofObject r name) v) :
    Proceeds [.ofObject r name] w (endState (writeField r c fields name v w)) := by
  apply proceeds_of_sameTables (altersOnly_writeField here admits)
  all_goals
    unfold writeField
    by_cases named : fields.contains name = true
  · rw [if_pos named]
    exact ⟨rfl, rfl, rfl⟩
  · rw [if_neg named]
    exact ⟨rfl, rfl, rfl⟩
  · rw [if_pos named, endState_ok]
  · rw [if_neg named, endState_error]

theorem proceeds_assignStatic {r : FieldReference} (admits : w.Admits (.ofClass k r.name) v) :
    Proceeds [.ofClass k r.name] w (endState (assignStatic k r v w)) := by
  have altered := altersOnly_assignStatic admits
  unfold assignStatic putStatic? at altered ⊢
  rw [get_bind] at altered ⊢
  by_cases there : w.statics.contains (k, r.name) = true
  · rw [if_pos there] at altered ⊢
    exact proceeds_of_sameTables altered ⟨rfl, rfl, rfl⟩ rfl
  · rw [if_neg there] at altered ⊢
    exact proceeds_of_sameTables altered ⟨rfl, rfl, rfl⟩ rfl

theorem resolveStatic_eq_ok {r : FieldReference} : resolveStatic r w = .ok k w' ↔
    ∃ c, loadClass r.owner w = .ok c w' ∧ w'.staticOwner? c r.name = some k := by
  unfold resolveStatic
  rw [bind_eq_ok]
  constructor
  · rintro ⟨c, w₁, loaded, found⟩
    rw [get_bind] at found
    cases owner : w₁.staticOwner? c r.name with
    | some k' =>
      rw [owner] at found
      cases found
      exact ⟨c, loaded, owner⟩
    | none =>
      rw [owner] at found
      cases found
  · rintro ⟨c, loaded, owner⟩
    refine ⟨c, w', loaded, ?_⟩
    rw [get_bind, owner]
    rfl

theorem proceeds_resolveStatic {r : FieldReference} (linked : w.Linked)
    (resolved : resolveStatic r w = .ok k w') : Proceeds [] w w' := by
  obtain ⟨c, loaded, -⟩ := resolveStatic_eq_ok.1 resolved
  have proceeds := proceeds_loadClass linked r.owner
  rwa [loaded] at proceeds

theorem Proceeds.resolveStatic (h : Proceeds written w₁ w') {r : FieldReference} (linked : w.Linked)
    (declared : w.StaticsDeclared) (resolved : World.resolveStatic r w = .ok k w₁) :
    World.resolveStatic r w' = .ok k w' := by
  have loads := proceeds_resolveStatic linked resolved
  obtain ⟨c, loaded, owner⟩ := resolveStatic_eq_ok.1 resolved
  have registered := registered_loadClass loaded
  have below := (loads.linked linked).registry r.owner c registered
  rw [staticOwner?_eq (loads.declared declared)] at owner
  apply resolveStatic_eq_ok.2
  refine ⟨c, loadClass_of_registered (h.registry r.owner c registered), ?_⟩
  rw [staticOwner?_eq ((loads.trans h).declared declared), h.agree.staticHolder?_eq below, owner]

/-- No initializer is to be run before the slot is used. -/
def IsReady (w : World) : FieldSlot → Prop
  | .ofObject _ _ => True
  | .ofClass k _ => w.isInitialized k = true

theorem Proceeds.fieldAt (h : Proceeds written w w') {r : FieldReference} {index : UInt16}
    (read : (w.classes.pool c).fieldAt index = .ok r) :
    (w'.classes.pool c).fieldAt index = .ok r := by
  rcases Nat.lt_or_ge c w.classes.size with below | above
  · unfold ClassTable.pool at read ⊢
    rwa [h.agree c below]
  · unfold ClassTable.pool at read
    rw [ClassTable.get?_eq_none above] at read
    dsimp only at read
    rw [ConstantPool.fieldAt, ConstantPool.get?_empty] at read
    cases read

theorem resolveField_eq_some {r : FieldReference} (meant : w.resolveField r = some F) :
    ∃ c w', loadClass r.owner w = .ok c w' ∧
      w'.classes.resolveField c r.name r.type = some F := by
  unfold resolveField at meant
  cases loaded : loadClass r.owner w with
  | ok c w' =>
    rw [loaded] at meant
    exact ⟨c, w', rfl, meant⟩
  | error e w' =>
    rw [loaded] at meant
    cases meant

end World

/-! ### Field instructions -/

/-- The instruction gets or puts the field through the reference, in the slot. A static field is
accessed with the class where the search for its name ends. -/
inductive Activation.Accesses (a : Activation) (F : DeclaredField) :
    Instruction → FieldReference → FieldSlot → Prop
  | getField {index : UInt16} {r : FieldReference} {receiver : Reference} {below : List Value}
      (read : (a.world.classes.pool a.frame.owner).fieldAt index = .ok r)
      (meant : a.world.resolveField r = some F)
      (operands : a.frame.stack.values = .reference receiver :: below)
      (shared : a.world.Shares (.ofObject receiver r.name) F) :
      Accesses a F (.getField index) r (.ofObject receiver r.name)
  | putField {index : UInt16} {r : FieldReference} {v : Value} {receiver : Reference}
      {below : List Value} (read : (a.world.classes.pool a.frame.owner).fieldAt index = .ok r)
      (meant : a.world.resolveField r = some F)
      (operands : a.frame.stack.values = v :: .reference receiver :: below)
      (shared : a.world.Shares (.ofObject receiver r.name) F) :
      Accesses a F (.putField index) r (.ofObject receiver r.name)
  | getStatic {index : UInt16} {r : FieldReference} {k : ClassId} {w : World}
      (read : (a.world.classes.pool a.frame.owner).fieldAt index = .ok r)
      (meant : a.world.resolveField r = some F) (static : F.field.isStatic = true)
      (resolved : World.resolveStatic r a.world = .ok k w) :
      Accesses a F (.getStatic index) r (.ofClass k r.name)
  | putStatic {index : UInt16} {r : FieldReference} {k : ClassId} {w : World}
      (read : (a.world.classes.pool a.frame.owner).fieldAt index = .ok r)
      (meant : a.world.resolveField r = some F) (static : F.field.isStatic = true)
      (resolved : World.resolveStatic r a.world = .ok k w) :
      Accesses a F (.putStatic index) r (.ofClass k r.name)

/-- The slots that the instruction may overwrite when it accesses the slot. -/
def Instruction.overwrites (s : FieldSlot) : Instruction → List FieldSlot
  | putField _ | putStatic _ => [s]
  | _ => []

def Instruction.IsGet : Instruction → Prop
  | getField _ | getStatic _ => True
  | _ => False

namespace Execution

variable {a a' : Activation} {F : DeclaredField} {r : FieldReference} {s : FieldSlot} {k : ClassId}
  {w : World} {index : UInt16} {receiver : Reference} {below : List Value} {v : Value}

theorem fieldReference_eq (read : (a.world.classes.pool a.frame.owner).fieldAt index = .ok r) :
    fieldReference index a = .ok r a := by
  change (MonadExcept.ofExcept _ : Execution FieldReference) a = _
  rw [read]
  rfl

theorem getField_eq (read : (a.world.classes.pool a.frame.owner).fieldAt index = .ok r)
    (operands : a.frame.stack.values = .reference receiver :: below)
    (held : a.world.slot? (.ofObject receiver r.name) = some v) :
    getField index a = onStack (OperandStack.push v)
      ⟨{ a.frame with stack := a.frame.stack.without below }, a.world⟩ := by
  obtain ⟨⟨c, fields⟩, here, stored⟩ := Option.bind_eq_some_iff.1 held
  have there : receiver ≠ .null := by
    rintro rfl
    cases here
  have popped := OperandStack.popNonNull_of_values operands there
  have found : a.world.readField c fields r.name = .ok v := by
    unfold World.readField
    rw [show FiniteMap.get? fields r.name = some v from stored]
  unfold getField
  rw [bind_of_ok (fieldReference_eq read), bind_of_ok (onStack_eq_ok.2 ⟨_, popped, rfl⟩), get_bind]
  simp only [here]
  rw [bind_of_ok (ofExcept_eq_ok.2 ⟨found, rfl⟩)]

theorem readStatic_eq (held : a.world.slot? (.ofClass k r.name) = some v) :
    readStatic k r a = proceeding (onStack (OperandStack.push v)) a := by
  unfold readStatic
  rw [get_bind, show a.world.getStatic? k r.name = some v from held]
  rfl

theorem onStack_push_cases (v : Value) (a : Activation) :
    (∃ a', onStack (OperandStack.push v) a = .ok () a') ∨
      ∃ limit, onStack (OperandStack.push v) a = .error (.operandStackOverflow limit) a := by
  by_cases high : a.frame.stack.maxStack < a.frame.stack.size + v.category
  · have full : OperandStack.push v a.frame.stack =
        .error (.operandStackOverflow a.frame.stack.maxStack) a.frame.stack := if_pos high
    exact .inr ⟨_, onStack_eq_error.2 ⟨_, full, rfl⟩⟩
  · have pushed : OperandStack.push v a.frame.stack = .ok () _ := if_neg high
    exact .inl ⟨_, onStack_eq_ok.2 ⟨_, pushed, rfl⟩⟩

theorem getStatic_eq (read : (a.world.classes.pool a.frame.owner).fieldAt index = .ok r)
    (resolved : World.resolveStatic r a.world = .ok k w) :
    getStatic index a = whenInitialized k (readStatic k r) ⟨a.frame, w⟩ := by
  unfold getStatic
  rw [bind_of_ok (fieldReference_eq read), bind_of_ok (onWorld_eq_ok.2 ⟨w, resolved, rfl⟩)]
  rfl

theorem putStatic_eq (read : (a.world.classes.pool a.frame.owner).fieldAt index = .ok r)
    (resolved : World.resolveStatic r a.world = .ok k w) :
    putStatic index a = whenInitialized k (writeStatic k r) ⟨a.frame, w⟩ := by
  unfold putStatic
  rw [bind_of_ok (fieldReference_eq read), bind_of_ok (onWorld_eq_ok.2 ⟨w, resolved, rfl⟩)]
  rfl

/-- What goes on has found the class initialized, once initializers had been looked for. -/
theorem rest_of_whenInitialized {c : ClassId} {rest : Execution Action}
    (done : whenInitialized c rest a = .ok .proceed a') :
    ∃ w, a.world.Proceeds [] w ∧ w.isInitialized c = true ∧
      rest ⟨a.frame, w⟩ = .ok .proceed a' := by
  have marks := a.world.proceeds_nextInitializer c
  obtain ⟨w, rfl, ⟨k, m, e, -, -, -, h⟩ | ⟨initializer, -, h⟩ | ⟨begun, h⟩⟩ :=
    whenInitialized_cases c rest a
  all_goals rw [h] at done
  · cases done
  · cases done
  · exact ⟨_, marks, begun, done⟩

theorem whenInitialized_of_begun {c : ClassId} (begun : a.world.isInitialized c = true)
    (rest : Execution Action) : whenInitialized c rest a = rest a := by
  have started : beginInitialization c a = .ok none a := by
    unfold beginInitialization
    rw [get_bind, World.uninitialized_of_begun begun]
    rfl
  exact bind_of_ok started

/-! ### What becomes of the world -/

theorem world_getField (index : UInt16) (a : Activation) :
    (endState (getField index a)).world = a.world := by
  have concludes : Concludes (fun _ => True) Eq Eq .nop (getField index) a :=
    concludes_getField index a
  have follows := concludes.relates (Leads.follows Frame.tolerated_samePlace)
    (Finishes.follows Frame.tolerated_samePlace)
  exact follows.world.symm

theorem world_readStatic (k : ClassId) (r : FieldReference) (a : Activation) :
    (endState (readStatic k r a)).world = a.world := by
  unfold readStatic
  rw [get_bind]
  cases a.world.getStatic? k r.name with
  | none => rfl
  | some v =>
    dsimp only
    rw [endState_bind_pure, endState_onStack]

theorem proceeds_putField {v : Value}
    (read : (a.world.classes.pool a.frame.owner).fieldAt index = .ok r)
    (operands : a.frame.stack.values = v :: .reference receiver :: below)
    (shared : a.world.Shares (.ofObject receiver r.name) F) (type : F.field.type = r.type) :
    a.world.Proceeds [.ofObject receiver r.name] (endState (putField index a)).world := by
  have unwritten : a.world.Proceeds [.ofObject receiver r.name] a.world :=
    (World.Proceeds.refl a.world).of_nothing
  unfold putField
  rw [bind_of_ok (fieldReference_eq read)]
  cases typed : OperandStack.popTyped r.type a.frame.stack with
  | error e s₁ =>
    rw [bind_of_error (onStack_eq_error.2 ⟨s₁, typed, rfl⟩)]
    exact unwritten
  | ok v' s₁ =>
    rw [bind_of_ok (onStack_eq_ok.2 ⟨s₁, typed, rfl⟩)]
    obtain ⟨⟨u, values⟩, represents⟩ := OperandStack.popTyped_eq_ok typed
    obtain ⟨-, rest⟩ := List.cons.inj (operands.symm.trans values)
    cases popped : OperandStack.popNonNull s₁ with
    | error e s₂ =>
      rw [bind_of_error (onStack_eq_error.2 ⟨s₂, popped, rfl⟩)]
      exact unwritten
    | ok x s₂ =>
      rw [bind_of_ok (onStack_eq_ok.2 ⟨s₂, popped, rfl⟩), get_bind]
      obtain ⟨⟨⟩, -⟩ := List.cons.inj (rest.trans (OperandStack.popNonNull_eq_ok popped))
      cases here : a.world.object? receiver with
      | none =>
        dsimp only
        exact unwritten
      | some object =>
        obtain ⟨c, fields⟩ := object
        dsimp only
        rw [endState_onWorld]
        exact World.proceeds_writeField here ⟨F, shared, type ▸ represents⟩

theorem proceeds_writeStatic (shares : a.world.Shares (.ofClass k r.name) F)
    (type : F.field.type = r.type) :
    a.world.Proceeds [.ofClass k r.name] (endState (writeStatic k r a)).world := by
  unfold writeStatic
  cases typed : OperandStack.popTyped r.type a.frame.stack with
  | error e s₁ =>
    rw [bind_of_error (onStack_eq_error.2 ⟨s₁, typed, rfl⟩)]
    exact (World.Proceeds.refl a.world).of_nothing
  | ok v s₁ =>
    rw [bind_of_ok (onStack_eq_ok.2 ⟨s₁, typed, rfl⟩)]
    obtain ⟨-, represents⟩ := OperandStack.popTyped_eq_ok typed
    have passed := endState_bind_pure (onWorld (World.assignStatic k r v)) Action.proceed
      ⟨{ a.frame with stack := s₁ }, a.world⟩
    rw [endState_onWorld] at passed
    have written := World.proceeds_assignStatic ⟨F, shares, type ▸ represents⟩
    exact (congrArg Activation.world passed).symm ▸ written

theorem shares_of_resolved (meant : a.world.resolveField r = some F)
    (resolved : World.resolveStatic r a.world = .ok k w) (static : F.field.isStatic = true)
    (declared : w.StaticsDeclared) : w.Shares (.ofClass k r.name) F := by
  obtain ⟨c, loaded, owner⟩ := World.resolveStatic_eq_ok.1 resolved
  obtain ⟨c', w', loaded', meant⟩ := World.resolveField_eq_some meant
  cases loaded.symm.trans loaded'
  obtain ⟨-, here⟩ := ClassTable.mem_of_resolveField meant
  obtain ⟨-, -, name, type⟩ := ClassTable.declaredField?_eq_some here
  rw [World.staticOwner?_eq declared] at owner
  rw [← name, ← type] at meant
  rw [← name] at owner ⊢
  exact .ofClass meant static owner

theorem type_of_resolveField (meant : a.world.resolveField r = some F) :
    F.field.name = r.name ∧ F.field.type = r.type := by
  obtain ⟨c, w, -, meant⟩ := World.resolveField_eq_some meant
  obtain ⟨-, here⟩ := ClassTable.mem_of_resolveField meant
  obtain ⟨-, -, which⟩ := ClassTable.declaredField?_eq_some here
  exact which

theorem proceeds_whenInitialized {written : List FieldSlot} {c : ClassId} {rest : Execution Action}
    (hrest : ∀ a' : Activation, a.world.Proceeds [] a'.world →
      a'.world.Proceeds written (endState (rest a')).world) :
    a.world.Proceeds written (endState (whenInitialized c rest a)).world := by
  have proceeds := a.world.proceeds_nextInitializer c
  obtain ⟨w, rfl, ways⟩ := whenInitialized_cases c rest a
  rcases ways with ⟨k, m, e, -, -, -, h⟩ | ⟨i, -, h⟩ | ⟨-, h⟩
  · rw [h]
    exact proceeds.of_nothing
  · rw [h]
    exact proceeds.of_nothing
  · rw [h]
    have passed := proceeds.trans (hrest ⟨a.frame, _⟩ proceeds)
    rwa [List.append_nil] at passed

theorem endState_proceeding (x : Execution Unit) (a : Activation) :
    endState (proceeding x a) = endState (x a) := endState_bind_pure x _ a

theorem proceeds_create {c : ClassId} (known : c < a.world.classes.size) :
    a.world.Proceeds [] (endState (create c a)).world := by
  obtain ⟨r, made, -⟩ := World.object?_newObject a.world c
  unfold create
  rw [bind_of_ok (onWorld_eq_ok.2 ⟨_, made, rfl⟩), endState_bind_pure, endState_onStack]
  exact World.proceeds_newObject known

theorem newObject_eq (index : UInt16) (a : Activation) : newObject index a =
    (MonadExcept.ofExcept ((a.world.classes.pool a.frame.owner).classAt index) >>= fun name =>
      onWorld (World.loadClass name) >>= fun c => whenInitialized c (create c)) a := rfl

theorem proceeds_newObject (linked : a.world.Linked) (index : UInt16) :
    a.world.Proceeds [] (endState (newObject index a)).world := by
  rw [newObject_eq]
  cases (a.world.classes.pool a.frame.owner).classAt index with
  | error e => exact .refl a.world
  | ok name =>
    have loads := World.proceeds_loadClass linked name
    rw [bind_of_ok (ofExcept_eq_ok.2 ⟨rfl, rfl⟩)]
    cases loaded : World.loadClass name a.world with
    | error e w =>
      rw [loaded] at loads
      rw [bind_of_error (onWorld_eq_error.2 ⟨w, loaded, rfl⟩)]
      exact loads
    | ok c w =>
      rw [loaded] at loads
      rw [bind_of_ok (onWorld_eq_ok.2 ⟨w, loaded, rfl⟩)]
      have known := (loads.linked linked).registry name c (World.registered_loadClass loaded)
      exact loads.trans (proceeds_whenInitialized (a := ⟨a.frame, w⟩) fun a' marks =>
        proceeds_create (Nat.lt_of_lt_of_le known marks.size))

end Execution

open Execution

namespace Activation.Accesses

variable {a a' : Activation} {F : DeclaredField} {i : Instruction} {r : FieldReference}
  {s : FieldSlot} {written : List FieldSlot} {w' : World}

theorem proceeds (h : a.Accesses F i r s) (linked : a.world.Linked)
    (declared : a.world.StaticsDeclared) (natives : NativeRegistry) (callers : List Frame) :
    a.world.Proceeds (i.overwrites s) (endState (i.execute natives callers a)).world := by
  cases h with
  | @getField index r receiver below read meant operands shared =>
    change World.Proceeds [] a.world (endState (proceeding (Execution.getField index) a)).world
    rw [endState_proceeding, world_getField]
    exact .refl a.world
  | @putField index r v receiver below read meant operands shared =>
    change World.Proceeds _ a.world (endState (proceeding (Execution.putField index) a)).world
    rw [endState_proceeding]
    exact proceeds_putField read operands shared (type_of_resolveField meant).2
  | @getStatic index r k w read meant static resolved =>
    change World.Proceeds [] a.world (endState (Execution.getStatic index a)).world
    rw [getStatic_eq read resolved]
    have loads := World.proceeds_resolveStatic linked resolved
    have passed : w.Proceeds []
        (endState (whenInitialized k (readStatic k r) ⟨a.frame, w⟩)).world := by
      refine proceeds_whenInitialized (a := ⟨a.frame, w⟩) fun a' _ => ?_
      rw [world_readStatic]
      exact .refl a'.world
    exact loads.trans passed
  | @putStatic index r k w read meant static resolved =>
    change World.Proceeds _ a.world (endState (Execution.putStatic index a)).world
    rw [putStatic_eq read resolved]
    have loads := World.proceeds_resolveStatic linked resolved
    have shares := shares_of_resolved meant resolved static (loads.declared declared)
    have passed : w.Proceeds [.ofClass k r.name]
        (endState (whenInitialized k (writeStatic k r) ⟨a.frame, w⟩)).world :=
      proceeds_whenInitialized (a := ⟨a.frame, w⟩) fun a' marks =>
        proceeds_writeStatic (marks.shares shares) (type_of_resolveField meant).2
    exact loads.trans passed

theorem isSlotOf (h : a.Accesses F i r s) (linked : a.world.Linked)
    (declared : a.world.StaticsDeclared) : a.world.IsSlotOf F s := by
  have ofClass {k : ClassId} {w : World} (meant : a.world.resolveField r = some F)
      (static : F.field.isStatic = true) (resolved : World.resolveStatic r a.world = .ok k w) :
      a.world.IsSlotOf F (.ofClass k r.name) := by
    have passed := World.proceeds_resolveStatic linked resolved
    have shares := shares_of_resolved meant resolved static (passed.declared declared)
    obtain ⟨c, loaded, -⟩ := World.resolveStatic_eq_ok.1 resolved
    have loads := World.loads_loadClass linked r.owner
    rw [loaded, endState_ok] at loads
    obtain ⟨static, named, which⟩ := shares.isSlotOf
    rw [loads.fieldsOf_eq] at which
    exact ⟨static, named, which⟩
  cases h with
  | getField _ _ _ shared | putField _ _ _ shared => exact shared.isSlotOf
  | getStatic _ meant static resolved | putStatic _ meant static resolved =>
    exact ofClass meant static resolved

/-- The slot is there, and holds a value of the type of a field that shares it. -/
theorem holds (h : a.Accesses F i r s) (linked : a.world.Linked) (stored : a.world.Stored) :
    ∃ v G, a.world.slot? s = some v ∧ a.world.Shares s G ∧ v.Represents G.field.type := by
  have there : ∃ v, a.world.slot? s = some v := by
    cases h with
    | getField _ _ _ shared | putField _ _ _ shared => exact stored.exists_slot? shared
    | getStatic _ meant static resolved | putStatic _ meant static resolved =>
      have passed := World.proceeds_resolveStatic linked resolved
      have shares := shares_of_resolved meant resolved static (passed.declared stored.declared)
      obtain ⟨v, held⟩ := (passed.alters.stored stored).exists_slot? shares
      obtain ⟨c, loaded, -⟩ := World.resolveStatic_eq_ok.1 resolved
      have loads := World.loads_loadClass linked r.owner
      rw [loaded, endState_ok] at loads
      rw [loads.rest] at held
      exact ⟨v, held⟩
  obtain ⟨v, held⟩ := there
  obtain ⟨G, shares, represents⟩ := stored.admitted s v held
  exact ⟨v, G, held, shares, represents⟩

/-- A get goes on, if the operand stack has room and no initializer is to be run. -/
theorem pushes {v : Value} (h : a.Accesses F i r s) (linked : a.world.Linked) (get : i.IsGet)
    (held : a.world.slot? s = some v) (ready : a.world.IsReady s) (natives : NativeRegistry)
    (callers : List Frame) : (∃ a', i.execute natives callers a = .ok .proceed a') ∨
      ∃ limit a', i.execute natives callers a = .error (.operandStackOverflow limit) a' := by
  have outcome (b : Activation) :
      (∃ a', proceeding (onStack (OperandStack.push v)) b = .ok .proceed a') ∨ ∃ limit a',
        proceeding (onStack (OperandStack.push v)) b = .error (.operandStackOverflow limit) a' := by
    rcases onStack_push_cases v b with ⟨a', pushed⟩ | ⟨limit, full⟩
    · exact .inl ⟨a', proceeding_eq_ok.2 pushed⟩
    · exact .inr ⟨limit, b, bind_of_error full⟩
  cases h with
  | putField | putStatic => exact get.elim
  | @getField index r receiver below read meant operands shared =>
    change (∃ a', proceeding (Execution.getField index) a = _) ∨
      ∃ limit a', proceeding (Execution.getField index) a = _
    rw [proceeding_congr (getField_eq read operands held)]
    exact outcome _
  | @getStatic index r k w read meant static resolved =>
    change (∃ a', Execution.getStatic index a = _) ∨ ∃ limit a', Execution.getStatic index a = _
    have loads := World.proceeds_resolveStatic linked resolved
    have kept := loads.kept _ v held List.not_mem_nil
    rw [getStatic_eq read resolved,
      whenInitialized_of_begun (a := ⟨a.frame, w⟩) (loads.begun k ready), readStatic_eq kept]
    exact outcome _

/-- A get that goes on has pushed what its slot holds. -/
theorem reads {v : Value} (h : a.Accesses F i r s) (linked : a.world.Linked) (get : i.IsGet)
    (held : a.world.slot? s = some v) {natives : NativeRegistry} {callers : List Frame}
    (done : i.execute natives callers a = .ok .proceed a') :
    ∃ below, a'.frame.stack.values = v :: below := by
  cases h with
  | putField | putStatic => exact get.elim
  | @getField index r receiver below read meant operands shared =>
    have got := proceeding_eq_ok.1 done
    rw [getField_eq read operands held] at got
    obtain ⟨stack, pushed, rfl⟩ := onStack_eq_ok.1 got
    exact ⟨_, OperandStack.push_eq_ok pushed⟩
  | @getStatic index r k w read meant static resolved =>
    replace done : Execution.getStatic index a = .ok .proceed a' := done
    rw [getStatic_eq read resolved] at done
    obtain ⟨w₁, marks, -, done⟩ := rest_of_whenInitialized done
    have loads := World.proceeds_resolveStatic linked resolved
    have kept := (loads.trans marks).kept _ v held List.not_mem_nil
    rw [readStatic_eq kept] at done
    obtain ⟨stack, pushed, rfl⟩ := onStack_eq_ok.1 (proceeding_eq_ok.1 done)
    exact ⟨_, OperandStack.push_eq_ok pushed⟩

/-- What it has read it reads again, and in the same way, until its slot is overwritten. -/
theorem reads_again {v : Value} (h : a.Accesses F i r s) (linked : a.world.Linked)
    (declared : a.world.StaticsDeclared) (get : i.IsGet) (held : a.world.slot? s = some v)
    {natives : NativeRegistry} {callers : List Frame}
    (done : i.execute natives callers a = .ok .proceed a')
    (later : a'.world.Proceeds written w') (spared : s ∉ written) :
    i.execute natives callers ⟨a.frame, w'⟩ = .ok .proceed ⟨a'.frame, w'⟩ := by
  cases h with
  | putField | putStatic => exact get.elim
  | @getField index r receiver below read meant operands shared =>
    have got := proceeding_eq_ok.1 done
    rw [getField_eq read operands held] at got
    obtain ⟨stack, pushed, rfl⟩ := onStack_eq_ok.1 got
    have again := getField_eq (a := ⟨a.frame, w'⟩) (later.fieldAt read) operands
      (later.kept _ v held spared)
    apply proceeding_eq_ok.2
    exact again.trans (onStack_eq_ok.2 ⟨stack, pushed, rfl⟩)
  | @getStatic index r k w read meant static resolved =>
    replace done : Execution.getStatic index a = .ok .proceed a' := done
    rw [getStatic_eq read resolved] at done
    have loads := World.proceeds_resolveStatic linked resolved
    obtain ⟨w₁, marks, begun, done⟩ := rest_of_whenInitialized done
    have kept := (loads.trans marks).kept _ v held List.not_mem_nil
    rw [readStatic_eq kept] at done
    obtain ⟨stack, pushed, rfl⟩ := onStack_eq_ok.1 (proceeding_eq_ok.1 done)
    have since := marks.trans later
    have resolved' := since.resolveStatic linked declared resolved
    have access := getStatic_eq (a := ⟨a.frame, w'⟩) ((loads.trans since).fieldAt read) resolved'
    have started := whenInitialized_of_begun (a := ⟨a.frame, w'⟩) (later.begun k begun)
      (readStatic k r)
    have again := readStatic_eq (a := ⟨a.frame, w'⟩) (later.kept _ v kept spared)
    refine access.trans (started.trans (again.trans (proceeding_eq_ok.2 ?_)))
    exact onStack_eq_ok.2 ⟨stack, pushed, rfl⟩

end Activation.Accesses

end JavaMachine

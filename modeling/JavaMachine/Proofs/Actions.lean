import JavaMachine.Proofs.InstructionEffects

/-!
# What instructions ask for

Only calls ask for the frame of a callee, and they name its signature in the constant pool of the
executing class. Only instructions that need an initialized class ask for an initializer: its class
declares it and is not initialized yet, and the instruction will come again on the same operands.
-/
namespace JavaMachine

/-! ### Methods found by signature -/

namespace ClassTable

variable {t : ClassTable} {c k : ClassId} {m resolved : Method} {s : MethodSignature}

theorem signature_of_declared? (h : t.declared? s c = some m) : m.signature = s := by
  obtain ⟨k, -, found⟩ := Option.bind_eq_some_iff.1 h
  exact Class.signature_of_method? found

theorem declared_of_firstDeclared {order : List ClassId}
    (h : t.firstDeclared s order = some (k, m)) : t.declared? s k = some m := by
  obtain ⟨c, -, found⟩ := List.exists_of_findSome?_eq_some h
  obtain ⟨m', declared, same⟩ := Option.map_eq_some_iff.1 found
  cases same
  exact declared

theorem declared_of_findMethod (h : t.findMethod c s = some (k, m)) :
    t.declared? s k = some m := by
  unfold findMethod at h
  split at h
  · rename_i found
    cases h
    exact declared_of_firstDeclared found
  · exact declared_of_firstDeclared h

theorem declared_of_resolveMethod {r : MethodReference}
    (h : t.resolveMethod c r = .ok (k, m)) : t.declared? r.signature k = some m := by
  unfold resolveMethod at h
  split at h
  · rename_i found
    cases h
    exact declared_of_findMethod found
  · cases h

theorem signature_of_resolveMethod {r : MethodReference}
    (h : t.resolveMethod c r = .ok (k, m)) : m.signature = r.signature :=
  signature_of_declared? (declared_of_resolveMethod h)

theorem signature_of_dispatch (h : t.dispatch c resolved = some (k, m)) :
    m.signature = resolved.signature := by
  obtain ⟨c, -, found⟩ := List.exists_of_findSome?_eq_some h
  obtain ⟨m', overriding, same⟩ := Option.map_eq_some_iff.1 found
  cases same
  exact signature_of_declared? (Option.filter_eq_some_iff.1 overriding).1

theorem signature_of_select (hs : resolved.signature = s)
    (h : t.select c resolved s = some (k, m)) : m.signature = s := by
  unfold select at h
  split at h
  · rename_i found
    cases h
    exact (signature_of_dispatch (Option.filter_eq_some_iff.1 found).1).trans hs
  · exact signature_of_declared? (declared_of_findMethod (Option.filter_eq_some_iff.1 h).1)

end ClassTable

/-! ### Frames at the start of a method -/

namespace Frame

variable {t : ClassTable} {c : ClassId} {m : Method} {f : Frame}

/-- The frame has not executed anything of the method. -/
structure Begins (f : Frame) (c : ClassId) (m : Method) : Prop where
  owner : f.owner = c
  method : f.method = m
  pc : f.pc = 0
  stack : f.stack.values = []

theorem ofLocals_eq_ok {locals : LocalVariables} (h : ofLocals t c m locals = .ok f) :
    ∃ body, m.body = some body ∧ f = ⟨c, m, 0, 0, locals, .empty body.maxStack.toNat⟩ := by
  unfold ofLocals at h
  split at h
  · rename_i body runs
    cases h
    exact ⟨body, runs, rfl⟩
  · split at h <;> cases h

theorem ofArguments_eq_ok {arguments : List Value} (h : ofArguments t c m arguments = .ok f) :
    ∃ locals body, LocalVariables.ofArguments m.maxLocals arguments = .ok locals ∧
      m.body = some body ∧ f = ⟨c, m, 0, 0, locals, .empty body.maxStack.toNat⟩ := by
  unfold ofArguments at h
  cases hl : LocalVariables.ofArguments m.maxLocals arguments with
  | ok locals =>
    rw [hl] at h
    obtain ⟨body, runs, made⟩ := ofLocals_eq_ok h
    exact ⟨locals, body, rfl, runs, made⟩
  | error e =>
    rw [hl] at h
    cases h

theorem begins_of_ofLocals {locals : LocalVariables} (h : ofLocals t c m locals = .ok f) :
    f.Begins c m := by
  obtain ⟨body, -, rfl⟩ := ofLocals_eq_ok h
  exact ⟨rfl, rfl, rfl, rfl⟩

theorem begins_of_ofArguments {arguments : List Value}
    (h : ofArguments t c m arguments = .ok f) : f.Begins c m := by
  obtain ⟨locals, body, -, -, rfl⟩ := ofArguments_eq_ok h
  exact ⟨rfl, rfl, rfl, rfl⟩

def Started (f : Frame) : Prop :=
  ∃ t arguments, ofArguments t f.owner f.method arguments = .ok f

theorem Started.begins (h : f.Started) : f.Begins f.owner f.method := by
  obtain ⟨t, arguments, made⟩ := h
  exact begins_of_ofArguments made

theorem started_of_ofArguments {arguments : List Value}
    (h : ofArguments t c m arguments = .ok f) : f.Started := by
  have begins := begins_of_ofArguments h
  refine ⟨t, arguments, ?_⟩
  rwa [begins.owner, begins.method]

theorem started_of_ofLocals (h : ofLocals t c m (.empty m.maxLocals) = .ok f) : f.Started :=
  started_of_ofArguments (show ofArguments t c m [] = .ok f from h)

end Frame

/-! ### Initializers -/

namespace World

/-- What the search for the next initializer does before it finds one: the classes it passes
declare none, and the one it stops at is due. -/
structure FindsInitializer (w : World) (pending : List ClassId) (c : ClassId) (m : Method)
    (w' : World) : Prop where
  mem : c ∈ pending
  classes : w'.classes = w.classes
  declared : w.classes.declared? .initializer c = some m
  due : w'.IsDue c
  marked : ∀ k, w'.isInitialized k → w.isInitialized k ∨
    w.classes.declared? .initializer k = none

theorem findsInitializer {pending : List ClassId} {w w' : World} {c : ClassId} {m : Method}
    (due : w.Due pending) (h : nextInitializer pending w = .ok (some (c, m)) w') :
    w.FindsInitializer pending c m w' := by
  induction pending generalizing w with
  | nil => cases h
  | cons k rest ih =>
    unfold nextInitializer at h
    rw [get_bind] at h
    cases hd : w.classes.declared? .initializer k with
    | some m' =>
      rw [hd] at h
      cases h
      exact ⟨List.mem_cons_self, rfl, hd, due.1, fun _ => .inl⟩
    | none =>
      rw [hd] at h
      obtain ⟨_, _, ⟨⟩, h⟩ := bind_eq_ok.1 h
      obtain ⟨mem, classes, declared, above, marked⟩ := ih due.2 h
      rw [classes_markInitialized] at classes declared marked
      refine ⟨List.mem_cons_of_mem k mem, classes, declared, above, ?_⟩
      intro j begun
      rcases marked j begun with before | none
      · rcases isInitialized_markInitialized.1 before with rfl | before
        · exact .inr hd
        · exact .inl before
      · exact .inr none

/-- A search that finds no initializer has marked all of the classes. -/
theorem isInitialized_of_nextInitializer {pending : List ClassId} {w w' : World}
    (h : nextInitializer pending w = .ok none w') :
    (∀ k, w.isInitialized k = true → w'.isInitialized k = true) ∧
      ∀ k ∈ pending, w'.isInitialized k = true := by
  induction pending generalizing w with
  | nil =>
    cases h
    exact ⟨fun _ => id, fun _ member => absurd member List.not_mem_nil⟩
  | cons c rest ih =>
    unfold nextInitializer at h
    rw [get_bind] at h
    cases hd : w.classes.declared? .initializer c with
    | some m =>
      rw [hd] at h
      cases h
    | none =>
      rw [hd] at h
      obtain ⟨_, _, ⟨⟩, h⟩ := bind_eq_ok.1 h
      obtain ⟨kept, marked⟩ := ih h
      refine ⟨fun k begun => kept k (isInitialized_markInitialized.2 (.inr begun)), ?_⟩
      intro k member
      rcases List.mem_cons.1 member with rfl | later
      · exact kept k (isInitialized_markInitialized_self w k)
      · exact marked k later

end World

namespace Execution

variable {α : Type} {a a' : Activation}

theorem methodReference_eq_ok {index : UInt16} {r : MethodReference} :
    methodReference index a = .ok r a' ↔
      (a.world.classes.pool a.frame.owner).methodAt index = .ok r ∧ a = a' :=
  ofExcept_eq_ok

/-- How an instruction leaves its frame that asks for a callee, and where the callee comes from. -/
structure Calls (a : Activation) (callee : Frame) (a' : Activation) : Prop where
  caller : a.frame.SameButStack a'.frame
  started : callee.Started
  named : ∃ index r, (a.world.classes.pool a.frame.owner).methodAt index = .ok r ∧
    callee.method.signature = r.signature

/-- How an instruction leaves its frame that asks for an initializer, and that it is due. -/
structure Prepares (f : Frame) (initializer : Frame) (a' : Activation) : Prop where
  caller : a'.frame = { f with nextPc := f.pc }
  started : initializer.Started
  declared :
    a'.world.classes.declared? .initializer initializer.owner = some initializer.method
  fresh : a'.world.isInitialized initializer.owner = false
  due : a'.world.IsDue initializer.owner

def Asks (a : Activation) (a' : Activation) : Action → Prop
  | .call callee => Calls a callee a'
  | .prepare initializer => Prepares a.frame initializer a'
  | _ => True

theorem beginInitialization_none {c : ClassId}
    (h : beginInitialization c a = .ok none a') : a'.frame = a.frame := by
  unfold beginInitialization at h
  obtain ⟨_, _, ⟨⟩, h⟩ := bind_eq_ok.1 h
  obtain ⟨next, a₁, hn, h⟩ := bind_eq_ok.1 h
  obtain ⟨w, hw, rfl⟩ := onWorld_eq_ok.1 hn
  cases next with
  | none =>
    cases h
    rfl
  | some found =>
    obtain ⟨_, _, ⟨⟩, h⟩ := bind_eq_ok.1 h
    obtain ⟨_, _, -, h⟩ := bind_eq_ok.1 h
    obtain ⟨_, _, -, h⟩ := bind_eq_ok.1 h
    cases h

theorem beginInitialization_some {c : ClassId} {initializer : Frame}
    (h : beginInitialization c a = .ok (some initializer) a') :
    Prepares a.frame initializer a' := by
  unfold beginInitialization at h
  obtain ⟨_, _, ⟨⟩, h⟩ := bind_eq_ok.1 h
  obtain ⟨next, a₁, hn, h⟩ := bind_eq_ok.1 h
  obtain ⟨w, hw, rfl⟩ := onWorld_eq_ok.1 hn
  cases next with
  | none => cases h
  | some found =>
    obtain ⟨k, m⟩ := found
    obtain ⟨_, _, ⟨⟩, h⟩ := bind_eq_ok.1 h
    obtain ⟨_, _, made, h⟩ := bind_eq_ok.1 h
    obtain ⟨hf, rfl⟩ := ofExcept_eq_ok.1 made
    clear made
    obtain ⟨_, _, ⟨⟩, h⟩ := bind_eq_ok.1 h
    cases h
    have begins := Frame.begins_of_ofLocals hf
    obtain ⟨mem, classes, declared, above, marked⟩ :=
      World.findsInitializer (World.due_uninitialized _ _) hw
    refine ⟨rfl, Frame.started_of_ofLocals hf, ?declared, ?fresh, ?due⟩
    case declared =>
      rw [begins.owner, begins.method]
      change w.classes.declared? _ _ = _
      rwa [classes]
    case due =>
      rw [begins.owner]
      exact above
    case fresh =>
      have fresh := World.not_isInitialized_of_mem_uninitialized mem
      rw [begins.owner]
      change w.isInitialized k = false
      cases begun : w.isInitialized k with
      | false => rfl
      | true =>
        rcases marked k begun with before | none
        · simp [fresh] at before
        · simp [none] at declared

/-- An instruction that needs an initialized class asks for the initializer, or goes on in the same
frame. -/
theorem whenInitialized_eq_ok {c : ClassId} {rest : Execution Action} {action : Action}
    (h : whenInitialized c rest a = .ok action a') :
    (∃ initializer, action = .prepare initializer ∧ Prepares a.frame initializer a') ∨
      ∃ a₁, a₁.frame = a.frame ∧ rest a₁ = .ok action a' := by
  unfold whenInitialized at h
  obtain ⟨initializer, a₁, hb, h⟩ := bind_eq_ok.1 h
  cases initializer with
  | none => exact .inr ⟨a₁, beginInitialization_none hb, h⟩
  | some initializer =>
    cases h
    exact .inl ⟨initializer, rfl, beginInitialization_some hb⟩

theorem asks_whenInitialized {a₁ : Activation} {c : ClassId} {rest : Execution Action}
    {action : Action} (h : whenInitialized c rest a₁ = .ok action a')
    (same : a₁.frame = a.frame) (hrest : Gives (· = .proceed) rest) : Asks a a' action := by
  rcases whenInitialized_eq_ok h with ⟨initializer, rfl, due⟩ | ⟨a₂, -, h⟩
  · rw [same] at due
    exact due
  · cases hrest a₂ action a' h
    trivial

theorem asks_of_gives {a₁ : Activation} {x : Execution Action} {action : Action}
    (h : x a₁ = .ok action a') (hx : Gives (· = .proceed) x) : Asks a a' action := by
  cases hx a₁ action a' h
  trivial

theorem gives_proceeding (x : Execution Unit) : Gives (· = .proceed) (proceeding x) :=
  .bind fun _ => .pure rfl

theorem asks_getStatic {index : UInt16} {action : Action}
    (h : getStatic index a = .ok action a') : Asks a a' action := by
  unfold getStatic at h
  obtain ⟨r, a₁, read, h⟩ := bind_eq_ok.1 h
  obtain ⟨-, rfl⟩ := ofExcept_eq_ok.1 read
  obtain ⟨c, a₂, resolved, h⟩ := bind_eq_ok.1 h
  obtain ⟨w, -, rfl⟩ := onWorld_eq_ok.1 resolved
  refine asks_whenInitialized h rfl (.bind fun a => ?_)
  split
  · exact .bind fun _ => .pure rfl
  · exact .throw _

theorem asks_putStatic {index : UInt16} {action : Action}
    (h : putStatic index a = .ok action a') : Asks a a' action := by
  unfold putStatic at h
  obtain ⟨r, a₁, read, h⟩ := bind_eq_ok.1 h
  obtain ⟨-, rfl⟩ := ofExcept_eq_ok.1 read
  obtain ⟨c, a₂, resolved, h⟩ := bind_eq_ok.1 h
  obtain ⟨w, -, rfl⟩ := onWorld_eq_ok.1 resolved
  exact asks_whenInitialized h rfl (.bind fun v => .bind fun _ => .pure rfl)

theorem asks_newObject {index : UInt16} {action : Action}
    (h : newObject index a = .ok action a') : Asks a a' action := by
  unfold newObject at h
  obtain ⟨pool, a₁, ⟨⟩, h⟩ := bind_eq_ok.1 h
  obtain ⟨name, a₁, read, h⟩ := bind_eq_ok.1 h
  obtain ⟨-, rfl⟩ := ofExcept_eq_ok.1 read
  obtain ⟨c, a₂, loaded, h⟩ := bind_eq_ok.1 h
  obtain ⟨w, -, rfl⟩ := onWorld_eq_ok.1 loaded
  exact asks_whenInitialized h rfl (.bind fun r => .bind fun _ => .pure rfl)

/-! ### Calls -/

section Invoke

variable {natives : NativeRegistry} {callers : List Frame} {c : ClassId} {m : Method}
  {arguments : List Value}

/-- What a call comes to that has the frame put together: the frame is asked for. -/
def asking (a : Activation) : Except Error Frame → EStateM.Result Error Activation Action
  | .ok callee => .ok (.call callee) a
  | .error e => .error e a

theorem invoke_of_bytecode (own : a.world.classes.isBridged c m = false) :
    invoke natives callers c m arguments a =
      asking a (Frame.ofArguments a.world.classes c m arguments) := by
  unfold invoke
  rw [get_bind, if_neg (by simp [own])]
  cases Frame.ofArguments a.world.classes c m arguments <;> rfl

theorem invoke_of_bridged (bridged : a.world.classes.isBridged c m = true) :
    invoke natives callers c m arguments a =
      (onWorld (NativeCall.run natives (a.frame :: callers) c m arguments) >>= fun
        | some v => onStack (OperandStack.push v) >>= fun _ => pure .proceed
        | none => pure .proceed) a := by
  unfold invoke
  exact congrFun (if_pos bridged) a

theorem invoke_eq_call {callee : Frame}
    (called : invoke natives callers c m arguments a = .ok (.call callee) a') :
    Frame.ofArguments a.world.classes c m arguments = .ok callee := by
  cases bridged : a.world.classes.isBridged c m with
  | true =>
    rw [invoke_of_bridged bridged] at called
    obtain ⟨v, a₁, -, later⟩ := bind_eq_ok.1 called
    cases v with
    | none => cases later
    | some v =>
      obtain ⟨_, _, -, done⟩ := bind_eq_ok.1 later
      cases done
  | false =>
    rw [invoke_of_bytecode bridged] at called
    cases made : Frame.ofArguments a.world.classes c m arguments with
    | error e =>
      rw [made] at called
      cases called
    | ok f =>
      rw [made] at called
      cases called
      rfl

end Invoke

section Calls

variable {natives : NativeRegistry} {callers : List Frame}

/-- A call of a method that a reference of the executing class names, after the frame has given
its arguments. -/
theorem asks_invoke {a₁ : Activation} {c : ClassId} {m : Method} {arguments : List Value}
    {action : Action} {index : UInt16} {r : MethodReference}
    (h : invoke natives callers c m arguments a₁ = .ok action a')
    (caller : a.frame.SameButStack a₁.frame)
    (read : (a.world.classes.pool a.frame.owner).methodAt index = .ok r)
    (same : m.signature = r.signature) : Asks a a' action := by
  unfold invoke at h
  obtain ⟨_, _, ⟨⟩, h⟩ := bind_eq_ok.1 h
  split at h
  · refine asks_of_gives h (.bind fun v => ?_)
    split
    · exact .bind fun _ => .pure rfl
    · exact .pure rfl
  · obtain ⟨callee, a₂, made, h⟩ := bind_eq_ok.1 h
    obtain ⟨hf, rfl⟩ := ofExcept_eq_ok.1 made
    cases h
    have begins := Frame.begins_of_ofArguments hf
    refine ⟨caller, Frame.started_of_ofArguments hf, index, r, read, ?_⟩
    rw [begins.method, same]

/-- How far a call has come when it hands over control: it has read its reference and popped the
arguments for the signature. -/
structure HandsOver (natives : NativeRegistry) (callers : List Frame) (index : UInt16)
    (hasReceiver : Bool) (a : Activation) (action : Action) (a' : Activation) : Prop where
  invoked : ∃ r k m arguments stack w,
    (a.world.classes.pool a.frame.owner).methodAt index = .ok r ∧ m.signature = r.signature ∧
    OperandStack.popArguments r.signature.parameters hasReceiver a.frame.stack =
      .ok arguments stack ∧
    invoke natives callers k m arguments ⟨{ a.frame with stack := stack }, w⟩ = .ok action a'

theorem handsOver_of_invokeVirtual {index : UInt16} {action : Action}
    (h : invokeVirtual natives callers index a = .ok action a') :
    HandsOver natives callers index true a action a' := by
  unfold invokeVirtual at h
  obtain ⟨r, a₁, read, h⟩ := bind_eq_ok.1 h
  obtain ⟨hr, rfl⟩ := methodReference_eq_ok.1 read
  obtain ⟨c, a₂, loaded, h⟩ := bind_eq_ok.1 h
  obtain ⟨w, -, rfl⟩ := onWorld_eq_ok.1 loaded
  obtain ⟨_, _, ⟨⟩, h⟩ := bind_eq_ok.1 h
  obtain ⟨⟨k, resolved⟩, a₃, found, h⟩ := bind_eq_ok.1 h
  obtain ⟨hm, rfl⟩ := ofExcept_eq_ok.1 found
  obtain ⟨arguments, a₄, popped, h⟩ := bind_eq_ok.1 h
  obtain ⟨stack, pops, rfl⟩ := onStack_eq_ok.1 popped
  obtain ⟨_, _, ⟨⟩, h⟩ := bind_eq_ok.1 h
  obtain ⟨receiver, a₅, held, h⟩ := bind_eq_ok.1 h
  obtain ⟨-, rfl⟩ := ofExcept_eq_ok.1 held
  cases selected : w.classes.select receiver resolved r.signature with
  | none =>
    rw [selected] at h
    cases h
  | some target =>
    rw [selected] at h
    have same := ClassTable.signature_of_select (ClassTable.signature_of_resolveMethod hm) selected
    exact ⟨r, _, _, arguments, stack, w, hr, same, pops, h⟩

theorem handsOver_of_invokeSpecial {index : UInt16} {action : Action}
    (h : invokeSpecial natives callers index a = .ok action a') :
    HandsOver natives callers index true a action a' := by
  unfold invokeSpecial at h
  obtain ⟨r, a₁, read, h⟩ := bind_eq_ok.1 h
  obtain ⟨hr, rfl⟩ := methodReference_eq_ok.1 read
  obtain ⟨c, a₂, loaded, h⟩ := bind_eq_ok.1 h
  obtain ⟨w, -, rfl⟩ := onWorld_eq_ok.1 loaded
  obtain ⟨_, _, ⟨⟩, h⟩ := bind_eq_ok.1 h
  obtain ⟨⟨k, m⟩, a₃, found, h⟩ := bind_eq_ok.1 h
  obtain ⟨hm, rfl⟩ := ofExcept_eq_ok.1 found
  obtain ⟨arguments, a₄, popped, h⟩ := bind_eq_ok.1 h
  obtain ⟨stack, pops, rfl⟩ := onStack_eq_ok.1 popped
  obtain ⟨_, _, ⟨⟩, h⟩ := bind_eq_ok.1 h
  obtain ⟨receiver, a₅, held, h⟩ := bind_eq_ok.1 h
  obtain ⟨-, rfl⟩ := ofExcept_eq_ok.1 held
  have same := ClassTable.signature_of_resolveMethod hm
  exact ⟨r, k, m, arguments, stack, w, hr, same, pops, h⟩

theorem handsOver_of_invokeStatic {index : UInt16} {action : Action}
    (h : invokeStatic natives callers index a = .ok action a') :
    (∃ initializer, action = .prepare initializer ∧ Prepares a.frame initializer a') ∨
      HandsOver natives callers index false a action a' := by
  unfold invokeStatic at h
  obtain ⟨r, a₁, read, h⟩ := bind_eq_ok.1 h
  obtain ⟨hr, rfl⟩ := methodReference_eq_ok.1 read
  obtain ⟨c, a₂, loaded, h⟩ := bind_eq_ok.1 h
  obtain ⟨w, -, rfl⟩ := onWorld_eq_ok.1 loaded
  obtain ⟨_, _, ⟨⟩, h⟩ := bind_eq_ok.1 h
  obtain ⟨⟨k, m⟩, a₃, found, h⟩ := bind_eq_ok.1 h
  obtain ⟨hm, rfl⟩ := ofExcept_eq_ok.1 found
  rcases whenInitialized_eq_ok h with prepared | ⟨⟨f, w'⟩, ⟨⟩, h⟩
  · exact .inl prepared
  · obtain ⟨arguments, a₅, popped, h⟩ := bind_eq_ok.1 h
    obtain ⟨stack, pops, rfl⟩ := onStack_eq_ok.1 popped
    have same := ClassTable.signature_of_resolveMethod hm
    exact .inr ⟨r, k, m, arguments, stack, w', hr, same, pops, h⟩

theorem HandsOver.asks {index : UInt16} {hasReceiver : Bool} {action : Action}
    (h : HandsOver natives callers index hasReceiver a action a') : Asks a a' action := by
  obtain ⟨r, k, m, arguments, stack, w, read, same, -, invoked⟩ := h.invoked
  exact asks_invoke invoked rfl read same

theorem asks_invokeStatic {index : UInt16} {action : Action}
    (h : invokeStatic natives callers index a = .ok action a') : Asks a a' action := by
  rcases handsOver_of_invokeStatic h with ⟨initializer, rfl, due⟩ | handsOver
  · exact due
  · exact handsOver.asks

end Calls

end Execution

open Execution in
/-- Everything that instructions ask for is accounted for. -/
theorem Instruction.asks_execute {natives : NativeRegistry} {callers : List Frame}
    {i : Instruction} {a a' : Activation} {action : Action}
    (h : i.execute natives callers a = .ok action a') : Asks a a' action := by
  cases i with
  | getStatic index => exact asks_getStatic h
  | putStatic index => exact asks_putStatic h
  | newObject index => exact asks_newObject h
  | invokeVirtual index => exact (handsOver_of_invokeVirtual h).asks
  | invokeSpecial index => exact (handsOver_of_invokeSpecial h).asks
  | invokeStatic index => exact asks_invokeStatic h
  | invokeInterface index _ => exact (handsOver_of_invokeVirtual h).asks
  | invokeDynamic => cases h
  | returnVoid =>
    cases h
    trivial
  | returnValue kind =>
    obtain ⟨v, a₁, -, h⟩ := bind_eq_ok.1 h
    obtain ⟨_, _, ⟨⟩, h⟩ := bind_eq_ok.1 h
    cases h
    trivial
  | throwException =>
    obtain ⟨r, a₁, -, h⟩ := bind_eq_ok.1 h
    cases h
    trivial
  | _ => exact asks_of_gives h (gives_proceeding _)

end JavaMachine

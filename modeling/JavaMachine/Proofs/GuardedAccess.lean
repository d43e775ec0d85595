import JavaMachine.Proofs.Actions

/-!
# Accesses to initialized classes

An instruction that creates an instance, reads or writes a static field or calls a static method
first has the class concerned initialized. Until then it touches nothing but the class table: it
fails, or asks for an initializer, or goes on to the access itself in a world in which the class is
initialized. The class concerned is the one that declares the field or the method.
-/
namespace JavaMachine

namespace Execution

def create (c : ClassId) : Execution Action := do
  let r ← onWorld (World.newObject c)
  onStack (OperandStack.push (.reference r))
  return .proceed

def readStatic (c : ClassId) (r : FieldReference) : Execution Action := do
  match (← get).world.getStatic? c r.name with
  | some v =>
    onStack (OperandStack.push v)
    return .proceed
  | none => throw r.missing

def writeStatic (c : ClassId) (r : FieldReference) : Execution Action := do
  let v ← onStack (OperandStack.popTyped r.type)
  onWorld (World.assignStatic c r v)
  return .proceed

def callStatic (natives : NativeRegistry) (callers : List Frame) (c : ClassId) (m : Method)
    (s : MethodSignature) : Execution Action := do
  let arguments ← onStack (OperandStack.popArguments s.parameters false)
  invoke natives callers c m arguments

/-- What becomes of an instruction that needs a class initialized for an access. -/
inductive Guarded (access : ClassId → Execution Action → Prop) (a : Activation) :
    EStateM.Result Error Activation Action → Prop
  | failed {e : Error} {w : World} (untouched : a.world.SameContents w) :
      Guarded access a (.error e ⟨a.frame, w⟩)
  /-- The instruction comes again after the initializer. -/
  | prepared {initializer : Frame} {w : World} (untouched : a.world.SameContents w) :
      Guarded access a
        (.ok (.prepare initializer) ⟨{ a.frame with nextPc := a.frame.pc }, w⟩)
  | accessed {c : ClassId} {rest : Execution Action} {w : World}
      (untouched : a.world.SameContents w) (begun : w.isInitialized c = true)
      (concerned : access c rest) : Guarded access a (rest ⟨a.frame, w⟩)

variable {access : ClassId → Execution Action → Prop} {a : Activation} {α : Type}

theorem guarded_ofExcept {x : Except Error α} {f : α → Execution Action} {w : World}
    (untouched : a.world.SameContents w)
    (h : ∀ v, x = .ok v → Guarded access a (f v ⟨a.frame, w⟩)) :
    Guarded access a ((ofExcept x >>= f) ⟨a.frame, w⟩) := by
  cases x with
  | ok v => exact h v rfl
  | error e => exact .failed untouched

theorem guarded_onWorld {x : World.Operation α} {f : α → Execution Action}
    (kept : Keeps World.SameContents x)
    (h : ∀ v w, x a.world = .ok v w → a.world.SameContents w →
      Guarded access a (f v ⟨a.frame, w⟩)) :
    Guarded access a ((onWorld x >>= f) a) := by
  obtain ⟨frame, world⟩ := a
  have untouched := kept world
  change Guarded access _ (EStateM.bind (onWorld x) f ⟨frame, world⟩)
  unfold EStateM.bind onWorld
  dsimp only at h ⊢
  cases hx : x world with
  | ok v w =>
    rw [hx] at untouched
    exact h v w hx untouched
  | error e w =>
    rw [hx] at untouched
    exact .failed untouched

theorem isInitialized_of_nextInitializer_none {w w' : World} {c : ClassId}
    (h : World.nextInitializer (w.uninitialized c) w = .ok none w') :
    w'.isInitialized c = true := by
  obtain ⟨kept, marked⟩ := World.isInitialized_of_nextInitializer h
  cases begun : w.isInitialized c with
  | true => exact kept c begun
  | false => exact marked c (World.mem_uninitialized_self begun)

theorem nextInitializer_ne_error (pending : List ClassId) {w w' : World} {e : Error} :
    World.nextInitializer pending w ≠ .error e w' := by
  induction pending generalizing w with
  | nil =>
    intro failed
    cases failed
  | cons c rest ih =>
    unfold World.nextInitializer
    rw [get_bind]
    cases w.classes.declared? .initializer c with
    | some m =>
      intro failed
      cases failed
    | none => exact ih

theorem ofLocals_cases (t : ClassTable) (c : ClassId) (m : Method) (locals : LocalVariables) :
    (m.body = none ∧ ∃ e, Frame.ofLocals t c m locals = .error e) ∨
      ∃ f, Frame.ofLocals t c m locals = .ok f ∧ f.Begins c m := by
  cases made : Frame.ofLocals t c m locals with
  | ok f => exact .inr ⟨f, rfl, Frame.begins_of_ofLocals made⟩
  | error e =>
    unfold Frame.ofLocals at made
    split at made
    · cases made
    · rename_i none
      exact .inl ⟨none, e, rfl⟩

/-- An instruction that needs a class initialized fails as an initializer has no body, gives way to
an initializer, or goes on with the class initialized. -/
theorem whenInitialized_cases (c : ClassId) (rest : Execution Action) (a : Activation) :
    ∃ w, w = endState (World.nextInitializer (a.world.uninitialized c) a.world) ∧
      ((∃ k m e, k ∈ a.world.unstarted c ∧
          a.world.classes.declared? .initializer k = some m ∧ m.body = none ∧
          whenInitialized c rest a = .error e ⟨a.frame, w⟩) ∨
        (∃ initializer, initializer.owner ∈ a.world.unstarted c ∧ whenInitialized c rest a =
          .ok (.prepare initializer) ⟨{ a.frame with nextPc := a.frame.pc }, w⟩) ∨
        w.isInitialized c = true ∧ whenInitialized c rest a = rest ⟨a.frame, w⟩) := by
  refine ⟨_, rfl, ?_⟩
  obtain ⟨frame, world⟩ := a
  have searches : beginInitialization c ⟨frame, world⟩ = _ := get_bind _ _
  cases found : World.nextInitializer (world.uninitialized c) world with
  | error e w => exact absurd found (nextInitializer_ne_error _)
  | ok next w =>
    rw [bind_of_ok (onWorld_eq_ok.2 ⟨w, found, rfl⟩)] at searches
    unfold whenInitialized
    cases next with
    | none =>
      right; right
      exact ⟨isInitialized_of_nextInitializer_none found, bind_of_ok searches⟩
    | some next =>
      obtain ⟨k, m⟩ := next
      obtain ⟨mem, -, declared, -⟩ := World.findsInitializer (world.due_uninitialized c) found
      have pending := World.mem_unstarted_of_mem_uninitialized mem declared
      dsimp only at searches
      rw [get_bind] at searches
      rcases ofLocals_cases w.classes k m (.empty m.maxLocals) with
        ⟨none, e, failed⟩ | ⟨f, made, begins⟩
      · rw [failed] at searches
        exact .inl ⟨k, m, e, pending, declared, none, bind_of_error searches⟩
      · rw [made] at searches
        right; left
        rw [← begins.owner] at pending
        exact ⟨f, pending, bind_of_ok searches⟩

/-- The access comes only after the class is initialized. -/
theorem guarded_whenInitialized {c : ClassId} {rest : Execution Action} {w : World}
    (untouched : a.world.SameContents w) (concerned : access c rest) :
    Guarded access a (whenInitialized c rest ⟨a.frame, w⟩) := by
  have marked := World.relates_nextInitializer World.toleratesLoading_sameContents.marks
    (w.due_uninitialized c)
  obtain ⟨w', rfl, ways⟩ := whenInitialized_cases c rest ⟨a.frame, w⟩
  have untouched' := trans_of _ untouched marked
  rcases ways with ⟨k, m, e, -, -, -, h⟩ | ⟨initializer, -, h⟩ | ⟨begun, h⟩
  · rw [h]
    exact .failed untouched'
  · rw [h]
    exact .prepared untouched'
  · rw [h]
    exact .accessed untouched' begun concerned

/-! ### The four instructions -/

/-- The instance of the named class is created. -/
def CreatesInstance (a : Activation) (index : UInt16) (c : ClassId) (rest : Execution Action) :
    Prop :=
  ∃ name w, (a.world.classes.pool a.frame.owner).classAt index = .ok name ∧
    World.loadClass name a.world = .ok c w ∧ rest = create c

def ReadsStatic (a : Activation) (index : UInt16) (c : ClassId) (rest : Execution Action) : Prop :=
  ∃ r w, (a.world.classes.pool a.frame.owner).fieldAt index = .ok r ∧
    World.resolveStatic r a.world = .ok c w ∧ rest = readStatic c r

def WritesStatic (a : Activation) (index : UInt16) (c : ClassId) (rest : Execution Action) :
    Prop :=
  ∃ r w, (a.world.classes.pool a.frame.owner).fieldAt index = .ok r ∧
    World.resolveStatic r a.world = .ok c w ∧ rest = writeStatic c r

/-- The method is called that the class declares. -/
def CallsStatic (natives : NativeRegistry) (callers : List Frame) (a : Activation)
    (index : UInt16) (c : ClassId) (rest : Execution Action) : Prop :=
  ∃ r k m w, (a.world.classes.pool a.frame.owner).methodAt index = .ok r ∧
    World.loadClass r.owner a.world = .ok k w ∧ w.classes.resolveMethod k r = .ok (c, m) ∧
    rest = callStatic natives callers c m r.signature

theorem guarded_newObject (index : UInt16) (a : Activation) :
    Guarded (CreatesInstance a index) a (newObject index a) := by
  apply guarded_ofExcept (refl_of _ a.world)
  intro name read
  apply guarded_onWorld (World.keeps_loadClass World.toleratesLoading_sameContents name)
  intro c w loaded untouched
  exact guarded_whenInitialized untouched ⟨name, w, read, loaded, rfl⟩

theorem guarded_getStatic (index : UInt16) (a : Activation) :
    Guarded (ReadsStatic a index) a (getStatic index a) := by
  apply guarded_ofExcept (refl_of _ a.world)
  intro r read
  apply guarded_onWorld (World.keeps_resolveStatic World.toleratesLoading_sameContents r)
  intro c w resolved untouched
  exact guarded_whenInitialized untouched ⟨r, w, read, resolved, rfl⟩

theorem guarded_putStatic (index : UInt16) (a : Activation) :
    Guarded (WritesStatic a index) a (putStatic index a) := by
  apply guarded_ofExcept (refl_of _ a.world)
  intro r read
  apply guarded_onWorld (World.keeps_resolveStatic World.toleratesLoading_sameContents r)
  intro c w resolved untouched
  exact guarded_whenInitialized untouched ⟨r, w, read, resolved, rfl⟩

theorem guarded_invokeStatic (natives : NativeRegistry) (callers : List Frame) (index : UInt16)
    (a : Activation) :
    Guarded (CallsStatic natives callers a index) a (invokeStatic natives callers index a) := by
  apply guarded_ofExcept (refl_of _ a.world)
  intro r read
  apply guarded_onWorld (World.keeps_loadClass World.toleratesLoading_sameContents r.owner)
  intro k w loaded untouched
  apply guarded_ofExcept untouched
  rintro ⟨c, m⟩ found
  exact guarded_whenInitialized untouched ⟨r, k, m, w, read, loaded, found, rfl⟩

end Execution

end JavaMachine

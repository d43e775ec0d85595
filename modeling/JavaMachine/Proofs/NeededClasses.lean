import JavaMachine.Proofs.StableResolution

/-!
# Classes that instructions need

Only the four instructions that need an initialized class ask for initializers, and each of them
asks for one of its class or of a class above that has not begun. Whatever runs in between, the
instruction goes on to need the same class for the same access, and every initializer that is
started leaves fewer that are still to be.
-/
namespace JavaMachine

namespace World

variable {w w₁ w' : World} {c k : ClassId}

/-- Of the initializers that were still to be started, those are that have not begun. -/
theorem KeepsClasses.unstarted_eq (h : w.KeepsClasses w') (below : c < w.classes.size) :
    w'.unstarted c = (w.unstarted c).filter fun k => !w'.isInitialized k := by
  unfold unstarted
  rw [h.agree.superclasses_eq below, List.filter_filter]
  apply List.filter_congr
  intro k member
  unfold isUnstarted
  rw [h.agree.declared?_eq (Nat.lt_of_le_of_lt (ClassTable.le_of_mem_superclasses member) below)]
  cases begun : w.isInitialized k with
  | true => simp [h.begun k begun]
  | false => simp

theorem KeepsClasses.length_unstarted_lt (h : w.KeepsClasses w') (below : c < w.classes.size)
    (before : k ∈ w.unstarted c) (begun : w'.isInitialized k = true) :
    (w'.unstarted c).length < (w.unstarted c).length := by
  rw [h.unstarted_eq below]
  apply List.length_filter_lt_length_iff_exists.2
  exact ⟨k, before, by simp [begun]⟩

theorem keepsClasses_nextInitializer (w : World) (c : ClassId) :
    w.KeepsClasses (endState (nextInitializer (w.uninitialized c) w)) :=
  relates_nextInitializer toleratesHeap_keepsClasses.loading.marks (w.due_uninitialized c)

end World

/-! ### What asks for no initializer -/

namespace Execution

variable {natives : NativeRegistry} {callers : List Frame}

/-- No result is a request for an initializer. -/
abbrev PreparesNothing (x : Execution Action) : Prop :=
  Gives (fun action => ∀ g, action ≠ .prepare g) x

theorem preparesNothing_proceeding (x : Execution Unit) : PreparesNothing (proceeding x) :=
  .bind fun _ => .pure nofun

theorem preparesNothing_invoke (c : ClassId) (m : Method) (arguments : List Value) :
    PreparesNothing (invoke natives callers c m arguments) := by
  refine .bind fun a => ?_
  split
  · refine .bind fun v => ?_
    split
    · exact .bind fun _ => .pure nofun
    · exact .pure nofun
  · exact .bind fun callee => .pure nofun

theorem preparesNothing_invokeVirtual (index : UInt16) :
    PreparesNothing (invokeVirtual natives callers index) := by
  refine .bind fun r => .bind fun c => .bind fun a => .bind fun resolved => ?_
  refine .bind fun arguments => .bind fun a => .bind fun receiver => ?_
  split
  · exact preparesNothing_invoke _ _ _
  · exact .throw _

theorem preparesNothing_invokeSpecial (index : UInt16) :
    PreparesNothing (invokeSpecial natives callers index) := by
  refine .bind fun r => .bind fun c => .bind fun a => .bind fun found => ?_
  exact .bind fun arguments => .bind fun a => .bind fun _ => preparesNothing_invoke _ _ _

end Execution

/-! ### Instructions that need a class -/

open Execution in
/-- The instruction needs the class `c` initialized for the rest, in a world `w` to which loading
leads from the one given. The executing frame runs a method of the class `o`. -/
inductive Instruction.Needs (natives : NativeRegistry) (callers : List Frame) (o : ClassId)
    (w₀ : World) : Instruction → ClassId → Execution Action → World → Prop
  | newObject {index : UInt16} {name : ClassName} {c : ClassId} {w : World}
      (read : (w₀.classes.pool o).classAt index = .ok name)
      (loaded : World.loadClass name w₀ = .ok c w) :
      Needs natives callers o w₀ (.newObject index) c (create c) w
  | getStatic {index : UInt16} {r : FieldReference} {c : ClassId} {w : World}
      (read : (w₀.classes.pool o).fieldAt index = .ok r)
      (resolved : World.resolveStatic r w₀ = .ok c w) :
      Needs natives callers o w₀ (.getStatic index) c (readStatic c r) w
  | putStatic {index : UInt16} {r : FieldReference} {c : ClassId} {w : World}
      (read : (w₀.classes.pool o).fieldAt index = .ok r)
      (resolved : World.resolveStatic r w₀ = .ok c w) :
      Needs natives callers o w₀ (.putStatic index) c (writeStatic c r) w
  | invokeStatic {index : UInt16} {r : MethodReference} {k c : ClassId} {m : Method} {w : World}
      (read : (w₀.classes.pool o).methodAt index = .ok r)
      (loaded : World.loadClass r.owner w₀ = .ok k w)
      (resolved : w.classes.resolveMethod k r = .ok (c, m)) :
      Needs natives callers o w₀ (.invokeStatic index) c
        (callStatic natives callers c m r.signature) w

namespace Instruction

open Execution

variable {natives : NativeRegistry} {callers : List Frame} {o c : ClassId} {w₀ w w' : World}
  {i : Instruction} {rest : Execution Action} {a a' : Activation} {g : Frame}

namespace Needs

theorem loads (h : Needs natives callers o w₀ i c rest w) :
    ∃ name k, World.loadClass name w₀ = .ok k w := by
  cases h with
  | newObject read loaded => exact ⟨_, c, loaded⟩
  | getStatic read resolved | putStatic read resolved =>
    obtain ⟨k, loaded, -⟩ := World.resolveStatic_eq_ok.1 resolved
    exact ⟨_, k, loaded⟩
  | invokeStatic read loaded resolved => exact ⟨_, _, loaded⟩

theorem keepsClasses (h : Needs natives callers o w₀ i c rest w) : w₀.KeepsClasses w := by
  obtain ⟨name, k, loaded⟩ := h.loads
  have kept := World.keeps_loadClass World.toleratesHeap_keepsClasses.loading name w₀
  rwa [loaded] at kept

theorem sameContents (h : Needs natives callers o w₀ i c rest w) : w₀.SameContents w := by
  obtain ⟨name, k, loaded⟩ := h.loads
  have same := World.keeps_loadClass World.toleratesLoading_sameContents name w₀
  rwa [loaded] at same

theorem lt_size (h : Needs natives callers o w₀ i c rest w) (linked : w₀.Linked) :
    c < w.classes.size := by
  have linked' := h.keepsClasses.linked linked
  cases h with
  | newObject read loaded => exact linked'.registry _ c (World.registered_loadClass loaded)
  | getStatic read resolved | putStatic read resolved =>
    obtain ⟨k, loaded, owner⟩ := World.resolveStatic_eq_ok.1 resolved
    have below := linked'.registry _ k (World.registered_loadClass loaded)
    exact World.lt_size_of_staticOwner? below owner
  | invokeStatic read loaded resolved =>
    exact ClassTable.lt_size_of_declared? (ClassTable.declared_of_resolveMethod resolved)

theorem later (h : Needs natives callers o w₀ i c rest w) (linked : w₀.Linked)
    (kept : w.KeepsClasses w') : Needs natives callers o w' i c rest w' := by
  have linked' := h.keepsClasses.linked linked
  have same : w'.classes.pool o = w₀.classes.pool o :=
    (kept.pool o).trans (h.keepsClasses.pool o)
  cases h with
  | newObject read loaded =>
    apply newObject
    · rw [same, read]
    · exact kept.loadClass loaded
  | getStatic read resolved =>
    apply getStatic
    · rw [same, read]
    · exact kept.resolveStatic linked' resolved
  | putStatic read resolved =>
    apply putStatic
    · rw [same, read]
    · exact kept.resolveStatic linked' resolved
  | invokeStatic read loaded resolved =>
    have below := linked'.registry _ _ (World.registered_loadClass loaded)
    apply invokeStatic
    · rw [same, read]
    · exact kept.loadClass loaded
    · rw [kept.agree.resolveMethod_eq below, resolved]

/-- Once its classes are loaded, the instruction only waits for the one it needs. -/
theorem execute_eq (h : Needs natives callers a.frame.owner a.world i c rest w) :
    i.execute natives callers a = whenInitialized c rest ⟨a.frame, w⟩ := by
  cases h with
  | newObject read loaded =>
    change Execution.newObject _ a = _
    rw [newObject_eq, bind_of_ok (ofExcept_eq_ok.2 ⟨read, rfl⟩),
      bind_of_ok (onWorld_eq_ok.2 ⟨w, loaded, rfl⟩)]
  | getStatic read resolved => exact getStatic_eq read resolved
  | putStatic read resolved => exact putStatic_eq read resolved
  | invokeStatic read loaded resolved =>
    change Execution.invokeStatic natives callers _ a = _
    unfold Execution.invokeStatic
    rw [bind_of_ok (methodReference_eq_ok.2 ⟨read, rfl⟩),
      bind_of_ok (onWorld_eq_ok.2 ⟨w, loaded, rfl⟩), get_bind,
      bind_of_ok (ofExcept_eq_ok.2 ⟨resolved, rfl⟩)]
    rfl

theorem rest_preparesNothing (h : Needs natives callers o w₀ i c rest w) :
    PreparesNothing rest := by
  cases h with
  | newObject read loaded => exact .bind fun r => .bind fun _ => .pure nofun
  | getStatic read resolved =>
    refine .bind fun a => ?_
    split
    · exact .bind fun _ => .pure nofun
    · exact .throw _
  | putStatic read resolved => exact .bind fun v => .bind fun _ => .pure nofun
  | invokeStatic read loaded resolved => exact .bind fun arguments => preparesNothing_invoke _ _ _

end Needs

theorem resolved_of_access {index : UInt16} {access : FieldReference → ClassId → Execution Action}
    {action : Action} (h : (fieldReference index >>= fun r =>
      onWorld (World.resolveStatic r) >>= access r) a = .ok action a') :
    ∃ r c w, (a.world.classes.pool a.frame.owner).fieldAt index = .ok r ∧
      World.resolveStatic r a.world = .ok c w := by
  obtain ⟨r, a₁, found, h⟩ := bind_eq_ok.1 h
  obtain ⟨read, rfl⟩ := ofExcept_eq_ok.1 found
  obtain ⟨c, a₂, resolved, -⟩ := bind_eq_ok.1 h
  obtain ⟨w, resolved, -⟩ := onWorld_eq_ok.1 resolved
  exact ⟨r, c, w, read, resolved⟩

/-- Only instructions that need a class ask for an initializer. -/
theorem needs_of_prepare (h : i.execute natives callers a = .ok (.prepare g) a') :
    ∃ c rest w, Needs natives callers a.frame.owner a.world i c rest w := by
  cases i with
  | newObject index =>
    change Execution.newObject index a = _ at h
    rw [newObject_eq] at h
    obtain ⟨name, a₁, read, h⟩ := bind_eq_ok.1 h
    obtain ⟨found, rfl⟩ := ofExcept_eq_ok.1 read
    obtain ⟨c, a₂, loaded, -⟩ := bind_eq_ok.1 h
    obtain ⟨w, loaded, -⟩ := onWorld_eq_ok.1 loaded
    exact ⟨c, _, w, .newObject found loaded⟩
  | getStatic index =>
    obtain ⟨r, c, w, read, resolved⟩ := resolved_of_access h
    exact ⟨c, _, w, .getStatic read resolved⟩
  | putStatic index =>
    obtain ⟨r, c, w, read, resolved⟩ := resolved_of_access h
    exact ⟨c, _, w, .putStatic read resolved⟩
  | invokeStatic index =>
    obtain ⟨r, a₁, read, h⟩ := bind_eq_ok.1 h
    obtain ⟨found, rfl⟩ := methodReference_eq_ok.1 read
    obtain ⟨k, a₂, loaded, h⟩ := bind_eq_ok.1 h
    obtain ⟨w, loaded', rfl⟩ := onWorld_eq_ok.1 loaded
    obtain ⟨_, _, ⟨⟩, h⟩ := bind_eq_ok.1 h
    obtain ⟨⟨c, m⟩, a₃, resolved, -⟩ := bind_eq_ok.1 h
    obtain ⟨resolved', -⟩ := ofExcept_eq_ok.1 resolved
    exact ⟨c, _, w, .invokeStatic found loaded' resolved'⟩
  | invokeVirtual index | invokeInterface index _ =>
    exact absurd rfl (preparesNothing_invokeVirtual index a _ a' h g)
  | invokeSpecial index => exact absurd rfl (preparesNothing_invokeSpecial index a _ a' h g)
  | invokeDynamic => cases h
  | returnVoid => cases h
  | returnValue kind =>
    obtain ⟨v, a₁, -, h⟩ := bind_eq_ok.1 h
    obtain ⟨_, _, ⟨⟩, h⟩ := bind_eq_ok.1 h
    cases h
  | throwException =>
    obtain ⟨r, a₁, -, h⟩ := bind_eq_ok.1 h
    cases h
  | _ => exact absurd rfl (preparesNothing_proceeding _ a _ a' h g)

end Instruction

end JavaMachine

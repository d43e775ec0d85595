import JavaMachine.Proofs.Growth
import JavaMachine.Proofs.Reachability

/-!
# The owners of methods

A method names the class that declares it. The two agree in the classes of a program, and whatever
is run only adds classes without methods.
-/
namespace JavaMachine

def Class.OwnsMethods (c : Class) : Prop := ∀ m ∈ c.methods, m.owner = c.name

instance (c : Class) : Decidable c.OwnsMethods := inferInstanceAs (Decidable (∀ m ∈ _, _))

theorem ClassDefinition.mem_of_mem_keepLast {α κ : Type} [DecidableEq κ] {key : α → κ} {a : α}
    {l : List α} (h : a ∈ keepLast key l) : a ∈ l := by
  induction l with
  | nil => cases h
  | cons b l ih =>
    rw [keepLast] at h
    split at h
    · exact List.mem_cons_of_mem b (ih h)
    · exact List.mem_cons.2 ((List.mem_cons.1 h).imp_right ih)

theorem ClassDefinition.ownsMethods_toClass (d : ClassDefinition) : d.toClass.OwnsMethods := by
  intro m member
  obtain ⟨_, -, rfl⟩ := List.mem_map.1 (mem_of_mem_keepLast member)
  rfl

namespace ClassTable

variable {t : ClassTable} {s : MethodSignature} {m : Method} {c : ClassId}

def OwnsMethods (t : ClassTable) : Prop := ∀ c ∈ t.classes.toList, c.OwnsMethods

instance (t : ClassTable) : Decidable t.OwnsMethods :=
  inferInstanceAs (Decidable (∀ c ∈ _, _))

theorem OwnsMethods.owner_eq (h : t.OwnsMethods) (declared : t.declared? s c = some m) :
    m.owner = t.name c := by
  obtain ⟨k, found, method⟩ := Option.bind_eq_some_iff.1 declared
  have member : k ∈ t.classes.toList := Array.mem_toList_iff.2 (Array.mem_of_getElem? found)
  rw [h k member m (List.mem_of_find?_eq_some method), name, found]

theorem OwnsMethods.push (h : t.OwnsMethods) {k : Class} (own : k.OwnsMethods) :
    (t.push k).OwnsMethods := by
  intro d member
  rw [ClassTable.push, Array.toList_push, List.mem_append, List.mem_singleton] at member
  rcases member with old | rfl
  · exact h d old
  · exact own

end ClassTable

namespace World

/-- Only classes without methods are added while a program runs. -/
theorem toleratesHeap_ownsMethods :
    ToleratesHeap fun w w' => w.classes.OwnsMethods → w'.classes.OwnsMethods where
  heap _ _ h := h
  statics _ _ _ _ h := h
  classObjects _ _ h := h
  strings _ _ h := h
  console _ _ h := h
  primitive _ _ h := h.push fun _ member => by cases member
  array _ _ _ _ _ _ _ _ h := by
    rw [classes_markInitialized]
    exact h.push fun _ member => by cases member
  marked _ _ _ _ h := by rwa [classes_markInitialized]

theorem tolerated_ownsMethods :
    Tolerated fun w w' => w.classes.OwnsMethods → w'.classes.OwnsMethods :=
  toleratesHeap_ownsMethods.tolerated

set_option maxRecDepth 100000 in
theorem ownsMethods_start (console : Console) (clock : Nat) :
    (start console clock).classes.OwnsMethods := by
  have classes : (start console clock).classes = (start .working 0).classes := rfl
  rw [classes]
  decide +kernel

theorem ownsMethods_ofProgram (console : Console) (clock : Nat) (program : List ClassDefinition) :
    (ofProgram console clock program).classes.OwnsMethods :=
  program.foldlRecOn (motive := fun w : World => w.classes.OwnsMethods) _
    (ownsMethods_start console clock) fun _ h d _ => h.push d.ownsMethods_toClass

end World

/-- Whatever is run on a program, its methods remain with their classes. -/
theorem Machine.ownsMethods_of_reachable (console : Console) (clock : Nat)
    (program : List ClassDefinition) {natives : NativeRegistry}
    (respects : natives.Respects fun w w' => w.classes.OwnsMethods → w'.classes.OwnsMethods)
    (maxCallDepth : Nat) {m : Machine}
    (h : Reachable (fun w w' => w.classes.OwnsMethods → w'.classes.OwnsMethods)
      (start (World.ofProgram console clock program) natives maxCallDepth) m) :
    m.world.classes.OwnsMethods := by
  have marks (w : World) (c : ClassId) : w.classes.OwnsMethods →
      (w.markInitialized c).classes.OwnsMethods := by
    rw [World.classes_markInitialized]
    exact id
  have kept := (invariant_of_tolerated World.tolerated_ownsMethods marks respects
    (World.ofProgram console clock program)).reachable ⟨rfl, id⟩ h
  exact kept.2 (World.ownsMethods_ofProgram console clock program)

end JavaMachine

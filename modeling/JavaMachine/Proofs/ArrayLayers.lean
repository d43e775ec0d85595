import JavaMachine.Proofs.ClassRegistry
import JavaMachine.Proofs.Reachability

/-!
# Layers of array classes

The components of an array of arrays are of the class that their type leads to, at every depth.
Named classes may be defined again, and then an array class goes on to have the old one for its
components. The class of an array type, once it is made, is the one for good: nothing is defined
under the name of an array, and loading makes such a class only if there is none.
-/
namespace JavaMachine

namespace World

variable {w w' : World} {c : ClassId} {type : FieldType}

/-- Classes have the names they are found under, and the components of an array class, if they are
arrays, are of the class that is found for them. -/
structure Layered (w : World) : Prop extends named : Named w where
  layers : ∀ type c, w.registry.get? (.array (.array type)) = some c →
    ∃ k, w.classes.component? c = some k ∧ w.registry.get? (.array type) = some k

namespace Layered

variable (h : w.Layered)
include h

theorem typeClass_eq (found : w.registry.get? (.array (.array type)) = some c) :
    ∃ k, w.classes.component? c = some k ∧ w.registry.get? (.array type) = some k ∧
      typeClass (.array type) w = .ok k w := by
  obtain ⟨k, component, below⟩ := h.layers type c found
  exact ⟨k, component, below, typeClass_of_finds below⟩

theorem of_sameArrays (named : w'.Named)
    (agree : ClassTable.Agree w.classes.size w.classes w'.classes)
    (same : ∀ type, w'.registry.get? (.array type) = w.registry.get? (.array type)) :
    w'.Layered := by
  refine { named := named, layers := fun type c found => ?_ }
  rw [same] at found ⊢
  rw [agree.component?_eq (h.linked.registry _ _ found)]
  exact h.layers type c found

theorem of_same (classes : w'.classes = w.classes) (registry : w'.registry = w.registry)
    (primitives : w'.primitives = w.primitives) : w'.Layered := by
  refine h.of_sameArrays (h.named.of_same classes registry primitives) ?_ fun type => by
    rw [registry]
  rw [classes]
  exact fun _ _ => rfl

theorem markInitialized (c : ClassId) : (w.markInitialized c).Layered := by
  obtain ⟨initialized, marked⟩ := markInitialized_eq w c
  rw [marked]
  exact h.of_same rfl rfl rfl

theorem define {d : ClassDefinition} (scalar : d.name.isArray = false) :
    (w.define d).2.Layered := by
  refine h.of_sameArrays (h.named.define scalar) (w.classes.agree_push _) fun type => ?_
  have other : ClassName.array type ≠ d.name := by
    intro same
    rw [← same] at scalar
    cases scalar
  rw [World.define, registry_addClass]
  exact if_neg other

theorem addArray {component object : ClassId} (flags : UInt16)
    (named : (w.addClass (.arrayOf type component flags object)).2.Named)
    (found : w.Finds type component) (new : w.registry.get? (.array type) = none) :
    (w.addClass (.arrayOf type component flags object)).2.Layered := by
  have larger := enlarges_addClass (d := .arrayOf type component flags object) new
  refine { named := named, layers := fun inner c here => ?_ }
  rw [registry_addClass] at here
  split at here
  case isTrue same =>
    cases same
    cases here
    refine ⟨component, ?_, larger.registry _ _ found⟩
    simp [addClass, ClassTable.component?, ClassTable.get?_push, Class.arrayOf, ClassTable.earlier,
      h.named.lt_size_of_finds found]
  case isFalse =>
    obtain ⟨k, layer, below⟩ := h.layers inner c here
    refine ⟨k, ?_, larger.registry _ _ below⟩
    rwa [larger.agree.component?_eq (h.linked.registry _ _ here)]

end Layered

def StaysLayered (w w' : World) : Prop := w.Layered → w'.Layered

instance : IsPreorder World StaysLayered := isPreorder_preserves Layered

theorem toleratesHeap_staysLayered : ToleratesHeap StaysLayered where
  heap _ _ h := h.of_same rfl rfl rfl
  statics _ _ _ _ h := h.of_same rfl rfl rfl
  classObjects _ _ h := h.of_same rfl rfl rfl
  strings _ _ h := h.of_same rfl rfl rfl
  console _ _ h := h.of_same rfl rfl rfl
  marked _ c _ _ h := h.markInitialized c
  primitive w p h := h.of_sameArrays (toleratesLoading_named.primitive w p h.named)
    (w.classes.agree_push _) fun _ => rfl
  array w type component flags object _ found new h := by
    refine (h.addArray flags (h.named.addClass fun type' named => ?_) found new).markInitialized _
    cases named
    exact ⟨component, rfl, h.named.lt_size_of_finds found, h.named.name_of_finds found⟩

theorem Defined.layered (h : w.Defined) : w.Layered := by
  induction h with
  | empty console clock =>
    refine { named := named_empty console clock, layers := ?_ }
    rintro type c ⟨⟩
  | define _ scalar ih => exact ih.define scalar
  | load _ name ih => exact keeps_loadClass toleratesHeap_staysLayered.loading name _ ih
  | same _ classes registry primitives ih => exact ih.of_same classes registry primitives

end World

/-- Whatever is executed over defined classes, the layers of the array classes are right. -/
theorem Machine.layered_of_reachable {m₀ m : Machine} (defined : m₀.world.Defined)
    (respects : m₀.natives.Respects World.StaysLayered)
    (reachable : Reachable World.StaysLayered m₀ m) : m.world.Layered :=
  ((invariant_of_tolerated World.toleratesHeap_staysLayered.tolerated
    (fun _ c h => h.markInitialized c) respects m₀.world).reachable
      ⟨rfl, refl_of World.StaysLayered m₀.world⟩ reachable).2 defined.layered

end JavaMachine

import JavaMachine.Proofs.FieldAccesses

/-!
# Lasting resolution

Once the class that a constant names is loaded, the constant leads to the same class, static field
or method for good. Whatever the machine does later, the classes that are there stay as they are,
each name leads where it led, and no class gets or loses a static field.
-/
namespace JavaMachine

namespace ClassTable

variable {n : Nat} {t t' : ClassTable} {c : ClassId}

theorem le_of_mem_interfaceOrder {k : ClassId} (member : k ∈ t.interfaceOrder c) : k ≤ c := by
  obtain ⟨i, listed, above⟩ := List.mem_flatMap.1 member
  exact Nat.le_trans (le_of_mem_superclasses above) (le_of_mem_superinterfaces listed)

theorem lt_size_of_declared? {s : MethodSignature} {m : Method} (h : t.declared? s c = some m) :
    c < t.size := by
  obtain ⟨d, here, -⟩ := Option.bind_eq_some_iff.1 h
  exact lt_size_of_get? here

namespace Agree

variable (h : Agree n t t')
include h

theorem declared?_eq (below : c < n) (s : MethodSignature) :
    t'.declared? s c = t.declared? s c := by
  unfold declared?
  rw [h c below]

theorem firstDeclared_eq (s : MethodSignature) {order : List ClassId}
    (below : ∀ k ∈ order, k < n) : t'.firstDeclared s order = t.firstDeclared s order := by
  apply Descending.findSome?_congr
  intro k member
  rw [h.declared?_eq (below k member)]

theorem interfaceOrder_eq (below : c < n) : t'.interfaceOrder c = t.interfaceOrder c := by
  unfold interfaceOrder
  rw [h.superinterfaces_eq below]
  apply List.flatMap_congr
  intro i listed
  exact h.superclasses_eq (Nat.lt_of_le_of_lt (le_of_mem_superinterfaces listed) below)

theorem findMethod_eq (below : c < n) (s : MethodSignature) :
    t'.findMethod c s = t.findMethod c s := by
  unfold findMethod
  rw [h.superclasses_eq below, h.interfaceOrder_eq below, h.firstDeclared_eq s fun k above =>
    Nat.lt_of_le_of_lt (le_of_mem_superclasses above) below, h.firstDeclared_eq s fun k above =>
    Nat.lt_of_le_of_lt (le_of_mem_interfaceOrder above) below]

theorem resolveMethod_eq (below : c < n) (r : MethodReference) :
    t'.resolveMethod c r = t.resolveMethod c r := by
  unfold resolveMethod
  rw [h.findMethod_eq below]

end Agree

end ClassTable

namespace World

variable {w₀ w w₁ w' : World} {c k : ClassId}

/-- The classes of the first world are what they were and are found as they were, they have the same
static fields, and those that had begun to be initialized still have. -/
structure KeepsClasses (w w' : World) : Prop where
  size : w.classes.size ≤ w'.classes.size
  agree : ClassTable.Agree w.classes.size w.classes w'.classes
  pool : ∀ c, w'.classes.pool c = w.classes.pool c
  registry : ∀ name k, w.registry.get? name = some k → w'.registry.get? name = some k
  statics : ∀ c < w.classes.size, ∀ name,
    w'.statics.contains (c, name) = w.statics.contains (c, name)
  begun : ∀ c, w.isInitialized c = true → w'.isInitialized c = true
  linked : w.Linked → w'.Linked

namespace KeepsClasses

theorem refl (w : World) : w.KeepsClasses w where
  size := Nat.le_refl _
  agree _ _ := rfl
  pool _ := rfl
  registry _ _ := id
  statics _ _ _ := rfl
  begun _ := id
  linked := id

theorem trans (h : w.KeepsClasses w₁) (h' : w₁.KeepsClasses w') : w.KeepsClasses w' where
  size := Nat.le_trans h.size h'.size
  agree c below := (h'.agree c (Nat.lt_of_lt_of_le below h.size)).trans (h.agree c below)
  pool c := (h'.pool c).trans (h.pool c)
  registry name k found := h'.registry name k (h.registry name k found)
  statics c below name :=
    (h'.statics c (Nat.lt_of_lt_of_le below h.size) name).trans (h.statics c below name)
  begun c := h'.begun c ∘ h.begun c
  linked := h'.linked ∘ h.linked

end KeepsClasses

instance : IsPreorder World KeepsClasses where
  refl := KeepsClasses.refl
  trans _ _ _ := KeepsClasses.trans

theorem keepsClasses_of_same (same : w.SameTables w') (initialized : w'.initialized = w.initialized)
    (statics : ∀ key, w'.statics.contains key = w.statics.contains key) : w.KeepsClasses w' where
  size := same.enlarges.size
  agree := same.enlarges.agree
  pool c := by rw [same.classes]
  registry := same.enlarges.registry
  statics _ _ _ := statics _
  begun c begun := by
    unfold isInitialized at begun ⊢
    rwa [initialized]
  linked linked := linked.of_same same.classes same.registry same.primitives

theorem keepsClasses_markInitialized (w : World) (c : ClassId) :
    w.KeepsClasses (w.markInitialized c) where
  size := (sameTables_markInitialized w c).enlarges.size
  agree := (sameTables_markInitialized w c).enlarges.agree
  pool k := by rw [classes_markInitialized]
  registry := (sameTables_markInitialized w c).enlarges.registry
  statics _ _ _ := by rw [(w.sameContents_markInitialized c).statics]
  begun _ begun := isInitialized_markInitialized.2 (.inr begun)
  linked linked := linked.markInitialized c

/-- A class without constants is added, and no static field. -/
theorem keepsClasses_of_push {d : Class} (pool : d.pool = .empty)
    (classes : w'.classes = w.classes.push d)
    (registry : ∀ name k, w.registry.get? name = some k → w'.registry.get? name = some k)
    (statics : w'.statics = w.statics)
    (begun : ∀ c, w.isInitialized c = true → w'.isInitialized c = true)
    (linked : w.Linked → w'.Linked) : w.KeepsClasses w' where
  size := by simp [classes]
  agree := by
    rw [classes]
    exact w.classes.agree_push d
  pool c := by
    rw [classes]
    exact ClassTable.pool_push pool c
  registry := registry
  statics _ _ _ := by rw [statics]
  begun := begun
  linked := linked

theorem toleratesHeap_keepsClasses : ToleratesHeap KeepsClasses where
  primitive w p := by
    refine keepsClasses_of_push (d := Class.ofPrimitive p) rfl rfl (fun _ _ => id) rfl ?_
      (toleratesHeap_linked.primitive w p)
    intro c begun
    simp only [isInitialized, List.contains_cons, Bool.or_eq_true] at begun ⊢
    exact .inr begun
  array w type component flags object found components new := by
    refine trans_of KeepsClasses ?_ (keepsClasses_markInitialized _ _)
    exact keepsClasses_of_push (d := Class.arrayOf type component flags object) rfl rfl
      (enlarges_addClass new).registry rfl (fun _ => id) fun linked => linked.addClass _
  marked w c _ _ := keepsClasses_markInitialized w c
  heap w _ := keepsClasses_of_same ⟨rfl, rfl, rfl⟩ rfl fun _ => rfl
  statics w key v present := by
    refine keepsClasses_of_same ⟨rfl, rfl, rfl⟩ rfl fun other => ?_
    rw [FiniteMap.contains, FiniteMap.get?_insert]
    split
    · rename_i same
      rw [same, present]
      rfl
    · rfl
  classObjects w _ := keepsClasses_of_same ⟨rfl, rfl, rfl⟩ rfl fun _ => rfl
  strings w _ := keepsClasses_of_same ⟨rfl, rfl, rfl⟩ rfl fun _ => rfl
  console w _ := keepsClasses_of_same ⟨rfl, rfl, rfl⟩ rfl fun _ => rfl

theorem tolerated_keepsClasses : Tolerated KeepsClasses := toleratesHeap_keepsClasses.tolerated

theorem lt_size_of_staticOwner? {name : String} (below : c < w.classes.size)
    (owner : w.staticOwner? c name = some k) : k < w.classes.size :=
  Nat.lt_of_le_of_lt (ClassTable.le_of_mem_fieldOrder (List.mem_of_find?_eq_some owner)) below

namespace KeepsClasses

variable (h : w.KeepsClasses w')
include h

theorem loadClass {name : ClassName} (loaded : World.loadClass name w₀ = .ok c w) :
    World.loadClass name w' = .ok c w' :=
  loadClass_of_registered (h.registry name c (registered_loadClass loaded))

theorem staticOwner?_eq (below : c < w.classes.size) (name : String) :
    w'.staticOwner? c name = w.staticOwner? c name := by
  unfold staticOwner?
  rw [h.agree.fieldOrder_eq below]
  apply List.find?_congr
  intro k member
  exact h.statics k (Nat.lt_of_le_of_lt (ClassTable.le_of_mem_fieldOrder member) below) name

theorem resolveStatic {r : FieldReference} (linked : w.Linked)
    (resolved : World.resolveStatic r w₀ = .ok k w) : World.resolveStatic r w' = .ok k w' := by
  obtain ⟨c, loaded, owner⟩ := resolveStatic_eq_ok.1 resolved
  have below := linked.registry r.owner c (registered_loadClass loaded)
  apply resolveStatic_eq_ok.2
  exact ⟨c, h.loadClass loaded, (h.staticOwner?_eq below r.name).trans owner⟩

end KeepsClasses

end World

end JavaMachine

import JavaMachine.Proofs.Invocations
import JavaMachine.Proofs.TableExtension

/-!
# The growth of a world

Whatever the operations of the library do, constants and initializers of classes stay what they
are, initialized classes stay initialized, and a class is marked initialized on the way only if it
declares no initializer. Starting an initializer is left to the machine.
-/
namespace JavaMachine

namespace ConstantPool

/-- Code can call an initializer by name, as if it were any method. -/
def namesInitializer (p : ConstantPool) : Bool :=
  p.slots.items.any fun
    | some (.method r) | some (.interfaceMethod r) => r.signature = .initializer
    | _ => false

theorem namesInitializer_empty : empty.namesInitializer = false := by
  simp [namesInitializer, empty, OneIndexed.empty]

theorem mem_of_get? {p : ConstantPool} {index : UInt16} {k : Constant} (h : p.get? index = some k) :
    some k ∈ p.slots.items := by
  unfold get? at h
  have slot : p.slots.get? index.toNat = some (some k) := Option.join_eq_some_iff.1 h
  unfold OneIndexed.get? at slot
  split at slot
  · cases slot
  · exact Array.mem_of_getElem? slot

theorem signature_ne_initializer {p : ConstantPool} (unnamed : p.namesInitializer = false)
    {index : UInt16} {r : MethodReference} (read : p.methodAt index = .ok r) :
    r.signature ≠ .initializer := by
  have listed : some (.method r) ∈ p.slots.items ∨ some (.interfaceMethod r) ∈ p.slots.items := by
    unfold methodAt at read
    split at read
    · rename_i found
      cases read
      exact .inl (mem_of_get? found)
    · rename_i found
      cases read
      exact .inr (mem_of_get? found)
    · cases read
  intro named
  have free := Array.any_eq_false'.1 unnamed
  rcases listed with listed | listed
  · exact free _ listed (decide_eq_true named)
  · exact free _ listed (decide_eq_true named)

end ConstantPool

namespace ClassTable

/-- A class that is added without constants and methods is one that was not there for those who
look for them. -/
theorem declared?_push {t : ClassTable} {d : Class} (methods : d.methods = [])
    (s : MethodSignature) (c : ClassId) : (t.push d).declared? s c = t.declared? s c := by
  unfold declared?
  rw [get?_push]
  by_cases new : c = t.size
  · rw [if_pos new, new, get?_eq_none (Nat.le_refl _)]
    simp [Class.method?, methods]
  · rw [if_neg new]

theorem pool_push {t : ClassTable} {d : Class} (pool : d.pool = .empty) (c : ClassId) :
    (t.push d).pool c = t.pool c := by
  unfold ClassTable.pool
  rw [get?_push]
  by_cases new : c = t.size
  · rw [if_pos new, new, get?_eq_none (Nat.le_refl _)]
    exact pool
  · rw [if_neg new]

end ClassTable

namespace World

/-- The first world has become the second one, and no initializer was started meanwhile. -/
structure Grows (w w' : World) : Prop where
  pool : ∀ c, w'.classes.pool c = w.classes.pool c
  declared : ∀ c, w'.classes.declared? .initializer c = w.classes.declared? .initializer c
  kept : ∀ c, w.isInitialized c = true → w'.isInitialized c = true
  marked : ∀ c, w'.isInitialized c = true →
    w.isInitialized c = true ∨ w.classes.declared? .initializer c = none

theorem Grows.refl (w : World) : w.Grows w where
  pool _ := rfl
  declared _ := rfl
  kept _ := id
  marked _ := .inl

theorem Grows.trans {w w₁ w' : World} (h : w.Grows w₁) (h' : w₁.Grows w') : w.Grows w' where
  pool c := (h'.pool c).trans (h.pool c)
  declared c := (h'.declared c).trans (h.declared c)
  kept c begun := h'.kept c (h.kept c begun)
  marked c begun := by
    rcases h'.marked c begun with before | none
    · exact h.marked c before
    · rw [h.declared] at none
      exact .inr none

instance : IsPreorder World Grows where
  refl := Grows.refl
  trans _ _ _ := Grows.trans

theorem grows_of_push {w w' : World} {d : Class} (methods : d.methods = [])
    (pool : d.pool = .empty) (classes : w'.classes = w.classes.push d)
    (marked : ∀ c, w'.isInitialized c = true ↔ c = w.classes.size ∨ w.isInitialized c = true) :
    w.Grows w' where
  pool c := by
    rw [classes]
    exact ClassTable.pool_push pool c
  declared c := by
    rw [classes]
    exact ClassTable.declared?_push methods .initializer c
  kept c begun := (marked c).2 (.inr begun)
  marked c begun := by
    rcases (marked c).1 begun with rfl | before
    · right
      simp [ClassTable.declared?, ClassTable.get?_eq_none]
    · exact .inl before

theorem Grows.of_same {w w' : World} (classes : w'.classes = w.classes)
    (initialized : w'.initialized = w.initialized) : w.Grows w' where
  pool c := by rw [classes]
  declared c := by rw [classes]
  kept c begun := by
    unfold isInitialized at begun ⊢
    rwa [initialized]
  marked c begun := by
    unfold isInitialized at begun ⊢
    rw [initialized] at begun
    exact .inl begun

theorem grows_markInitialized {w : World} {c : ClassId}
    (undeclared : w.classes.declared? .initializer c = none) : w.Grows (w.markInitialized c) where
  pool k := by rw [classes_markInitialized]
  declared k := by rw [classes_markInitialized]
  kept k begun := isInitialized_markInitialized.2 (.inr begun)
  marked k begun := by
    rcases isInitialized_markInitialized.1 begun with rfl | before
    · exact .inr undeclared
    · exact .inl before

theorem toleratesHeap_grows : ToleratesHeap Grows where
  primitive w p := by
    apply grows_of_push (d := Class.ofPrimitive p) rfl rfl rfl
    intro c
    simp [isInitialized]
  array w type component flags object _ _ _ := by
    refine grows_of_push rfl rfl (classes_markInitialized _ _) ?_
    intro c
    exact isInitialized_markInitialized
  marked w c undeclared _ := grows_markInitialized undeclared
  heap w _ := .of_same rfl rfl
  statics w _ _ _ := .of_same rfl rfl
  classObjects w _ := .of_same rfl rfl
  strings w _ := .of_same rfl rfl
  console w _ := .of_same rfl rfl

theorem tolerated_grows : Tolerated Grows := toleratesHeap_grows.tolerated

/-- No constant leads code to call an initializer as a method. -/
def Unnamed (w : World) : Prop := ∀ c, (w.classes.pool c).namesInitializer = false

theorem Unnamed.grows {w w' : World} (h : w.Unnamed) (growth : w.Grows w') : w'.Unnamed := by
  intro c
  rw [growth.pool]
  exact h c

theorem Unnamed.markInitialized {w : World} (h : w.Unnamed) (c : ClassId) :
    (w.markInitialized c).Unnamed := by
  intro k
  rw [classes_markInitialized]
  exact h k

/-- Nothing has been initialized but classes without initializers, and nothing calls one. -/
structure Untouched (w : World) : Prop where
  unnamed : w.Unnamed
  below : ∀ c, w.isInitialized c = true → c < w.classes.size
  undeclared : ∀ c, w.isInitialized c = true → w.classes.declared? .initializer c = none

set_option maxRecDepth 100000 in
theorem untouched_start (console : Console) (clock : Nat) : (start console clock).Untouched := by
  have classes : (start console clock).classes = (start .working 0).classes := rfl
  have initialized : (start console clock).initialized = (start .working 0).initialized := rfl
  have listed : ∀ c ∈ (start .working 0).initialized, c < (start .working 0).classes.size ∧
      (start .working 0).classes.declared? .initializer c = none := by
    decide +kernel
  have silent : ∀ c < (start .working 0).classes.size,
      ((start .working 0).classes.pool c).namesInitializer = false := by
    decide +kernel
  have known {c : ClassId} (begun : (start console clock).isInitialized c = true) :
      c ∈ (start .working 0).initialized := by
    rw [← initialized]
    exact List.contains_iff_mem.1 begun
  constructor
  · intro c
    rw [classes]
    rcases Nat.lt_or_ge c (start .working 0).classes.size with below | above
    · exact silent c below
    · unfold ClassTable.pool
      rw [ClassTable.get?_eq_none above]
      exact ConstantPool.namesInitializer_empty
  · intro c begun
    rw [classes]
    exact (listed c (known begun)).1
  · intro c begun
    rw [classes]
    exact (listed c (known begun)).2

theorem Untouched.define {w : World} (h : w.Untouched) {d : ClassDefinition}
    (unnamed : d.pool.namesInitializer = false) : (w.define d).2.Untouched := by
  have get (c : ClassId) : (w.define d).2.classes.get? c =
      if c = w.classes.size then some d.toClass else w.classes.get? c := ClassTable.get?_push _ _ c
  have initialized (c : ClassId) : (w.define d).2.isInitialized c = w.isInitialized c := rfl
  constructor
  · intro c
    unfold ClassTable.pool
    rw [get]
    by_cases new : c = w.classes.size
    · rw [if_pos new]
      exact unnamed
    · rw [if_neg new]
      exact h.unnamed c
  · intro c begun
    rw [initialized] at begun
    have size : (w.define d).2.classes.size = w.classes.size + 1 := ClassTable.size_push _ _
    rw [size]
    exact Nat.lt_succ_of_lt (h.below c begun)
  · intro c begun
    rw [initialized] at begun
    have old : c ≠ w.classes.size := Nat.ne_of_lt (h.below c begun)
    unfold ClassTable.declared?
    rw [get, if_neg old]
    exact h.undeclared c begun

theorem untouched_ofProgram (console : Console) (clock : Nat) (program : List ClassDefinition)
    (unnamed : ∀ d ∈ program, d.pool.namesInitializer = false) :
    (ofProgram console clock program).Untouched :=
  program.foldlRecOn _ (untouched_start console clock) fun _ h d member =>
    h.define (unnamed d member)

end World

end JavaMachine

import JavaMachine.Class.Table
import JavaMachine.FiniteMap
import JavaMachine.Heap.Storage

/-!
# Heap entities

An entity is an object, an array of references, an array of primitives, or the class object that
stands for a class. Its class, and the length of an array, never change. The fields of an object
are kept by name, inherited ones included.
-/
namespace JavaMachine

/-- The values of fields by name. -/
abbrev Fields := FiniteMap String Value

inductive Entity
  | object (owner : ClassId) (fields : Fields)
  | references (owner : ClassId) (elements : Array Reference)
  | primitives (owner : ClassId) (storage : Storage)
  /-- `component` is the class object of the components of an array class. -/
  | classObject (owner represented : ClassId) (component : Option Reference)
  deriving DecidableEq

namespace Entity

/-- The class that the entity is an instance of. -/
def owner : Entity → ClassId
  | object c _ => c
  | references c _ => c
  | primitives c _ => c
  | classObject c _ _ => c

/-- The length of an array. -/
def length? : Entity → Option Nat
  | references _ elements => some elements.size
  | primitives _ storage => some storage.size
  | _ => none

/-- Replaces an element of an array of primitives by one of its type. -/
def setScalar (i : Nat) (s : Scalar) : Entity → Entity
  | primitives c storage => primitives c (storage.set i s)
  | e => e

/-- Replaces an element of an array of references. -/
def setReference (i : Nat) (r : Reference) : Entity → Entity
  | references c elements => references c (elements.setIfInBounds i r)
  | e => e

/-- Replaces the elements of an array of primitives from a position on by those of one of its
type. -/
def overwriteScalars (position : Nat) (source : Storage) : Entity → Entity
  | primitives c storage => primitives c (storage.overwrite position source)
  | e => e

/-- Replaces the elements of an array of references from a position on. -/
def overwriteReferences (position : Nat) (source : List Reference) : Entity → Entity
  | references c elements => references c (Storage.splice elements position source)
  | e => e

theorem setReference_eq (i : Nat) (r : Reference) :
    setReference i r = overwriteReferences i [r] := by
  funext e
  cases e <;> rfl

end Entity

/-- All fields hold the default of their type; of two fields of one name the nearer class's
counts. -/
def Fields.initial (fields : List Field) : Fields :=
  (FiniteMap.empty).insertAll (fields.map fun f => (f.name, f.type.zero))

/-- The heap: entity `n` is the one allocated after `n` others. Nothing is ever removed. -/
structure Heap where
  entities : Array Entity
  deriving DecidableEq

namespace Heap

def empty : Heap := ⟨#[]⟩

def size (h : Heap) : Nat := h.entities.size

/-- The entity that a reference leads to; `null` leads to none. -/
def get? (h : Heap) : Reference → Option Entity
  | .null => none
  | .entity address => h.entities[address]?

def allocate (h : Heap) (e : Entity) : Reference × Heap :=
  (.entity h.entities.size, ⟨h.entities.push e⟩)

/-- Changes the entity that a reference leads to. -/
def modify (h : Heap) (r : Reference) (f : Entity → Entity) : Heap :=
  match r with
  | .null => h
  | .entity address => ⟨h.entities.modify address f⟩

def owner? (h : Heap) (r : Reference) : Option ClassId := (h.get? r).map Entity.owner

@[simp] theorem get?_null (h : Heap) : h.get? .null = none := rfl

/-- An allocated entity is found under its reference, and older ones stay where they are. -/
theorem get?_allocate (h : Heap) (e : Entity) (r : Reference) :
    (h.allocate e).2.get? r = if r = (h.allocate e).1 then some e else h.get? r := by
  cases r with
  | null => simp [allocate]
  | entity address => simp [allocate, get?, Array.getElem?_push]

theorem get?_allocate_of_some {h : Heap} {e' : Entity} {r : Reference} (e : Entity)
    (here : h.get? r = some e') : (h.allocate e).2.get? r = some e' := by
  have old : r ≠ (h.allocate e).1 := by
    rintro rfl
    simp [allocate, get?] at here
  rw [get?_allocate, if_neg old, here]

theorem get?_modify (h : Heap) (r r' : Reference) (f : Entity → Entity) :
    (h.modify r f).get? r' = if r' = r then (h.get? r').map f else h.get? r' := by
  cases r <;> cases r' <;> simp [modify, get?, Array.getElem?_modify, @eq_comm Nat]

end Heap

/-- A number derived from the identity of an entity, which never changes; zero for `null` only. -/
def Reference.identityHash : Reference → Int32
  | null => 0
  | entity address => Int32.ofNat (address % 0x7FFFFFFF + 1)

end JavaMachine

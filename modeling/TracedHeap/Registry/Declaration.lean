import TracedHeap.Registry.Registration

/-! # Declarations of types

A type is declared by its size and its members.  The build function of a declared
type finds the targets of its members one after the other, the array first.

* `Target`, `Member`, `Declaration`: what is declared.
* `Declaration.build`: the build function.
* `Declaration.call`: the call that asks for a declared type.
-/

namespace TracedHeap

/-- What the handle of a member refers to. -/
inductive Target (τ : Type) where
  /-- Memory that carries its own descriptor. -/
  | boxed
  | type (type : τ)
  deriving DecidableEq, Repr

/-- A handle in the objects of a type. -/
structure Member (τ : Type) where
  target : Target τ
  discipline : Discipline
  offset : Nat
  deriving DecidableEq, Repr

structure Declaration (τ : Type) where
  /-- Size of an object whose array is empty. -/
  size : Nat
  hasArray : Bool
  array : Option (Member τ)
  members : List (Member τ)
  deriving DecidableEq, Repr

variable {n : Nat} {κ τ : Type}

def Target.find (find : τ → Client n κ DescriptorRef) : Target τ → Client n κ DescriptorRef
  | .boxed => .done .boxed
  | .type t => find t

def Member.slot (find : τ → Client n κ DescriptorRef) (m : Member τ) : Client n κ Slot := do
  let descriptor ← m.target.find find
  Client.makeSlot (some descriptor) m.discipline m.offset

def Member.slots (find : τ → Client n κ DescriptorRef) : List (Member τ) → Client n κ (List Slot)
  | [] => .done []
  | m :: rest => do
    let slot ← m.slot find
    let slots ← Member.slots find rest
    return slot :: slots

namespace Declaration

def request (d : Declaration τ) : Request := ⟨d.size, d.hasArray, d.members.length⟩

def build (find : τ → Client n κ DescriptorRef) (d : Declaration τ) : Client n κ Parts := do
  let array ←
    match d.array with
    | none => pure Slot.empty
    | some m => m.slot find
  let slots ← Member.slots find d.members
  return ⟨array, .ofList slots⟩

def call (cell : Fin n) (find : τ → Client n κ DescriptorRef) (d : Declaration τ) : Call n κ :=
  ⟨cell, d.request, d.build find⟩

end Declaration

end TracedHeap

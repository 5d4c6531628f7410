import TracedHeap.Discipline
import TracedHeap.Fault

/-! # Slots and descriptors

A descriptor tells the collector where the handles of an object are.  It is a
record in memory that is written step by step, and that others may hold a
reference to while it is unfinished; so the contents are only given out once the
descriptor is marked as initialized.

* `DescriptorRef`: the address of a descriptor; `DescriptorRef.boxed` is the
  sentinel that describes memory which carries its own descriptor.
* `Slot`: one handle of an object.
* `Descriptor`: what is stored at the address.
* `Descriptor.slotCount?`, `Descriptor.array?`, `Descriptor.slots?`: the checked
  accessors.
-/

namespace TracedHeap

/-- Descriptors are numbered in the order in which their memory was allocated. -/
structure DescriptorRef where
  index : Nat
  deriving DecidableEq, Repr

namespace DescriptorRef

def boxed : DescriptorRef := ⟨0⟩

def isBoxed (d : DescriptorRef) : Bool := d = boxed

end DescriptorRef

structure Slot where
  /-- Descriptor of the target type; null reads as the sentinel. -/
  target : Option DescriptorRef
  discipline : Discipline
  offset : Nat
  deriving DecidableEq, Repr

namespace Slot

def descriptor (s : Slot) : DescriptorRef := s.target.getD .boxed

def isBoxed (s : Slot) : Bool := s.descriptor.isBoxed

def empty : Slot := ⟨some .boxed, .strong, 0⟩

end Slot

/-- The header is `size`, `hasArray`, `initialized` and `poisoned`; it is written before the address
is given to anyone. -/
structure Descriptor where
  size : Nat
  hasArray : Bool
  initialized : Bool
  poisoned : Bool
  array : Slot
  slotCount : Nat
  /-- The slots written so far, from the first on. -/
  slots : List Slot
  /-- Number of slots that the memory has room for. -/
  room : Nat
  deriving DecidableEq, Repr

namespace Descriptor

def blank (room : Nat) : Descriptor :=
  ⟨0, false, false, false, .empty, 0, [], room⟩

def sentinel : Descriptor :=
  ⟨0, false, true, false, ⟨none, .strong, 0⟩, 0, [], 0⟩

/-! ## Accessors -/

/-- A field that may only be read of a finished descriptor. -/
def finished {α : Type} (d : Descriptor) (field : α) : Except Fault α :=
  if d.initialized then .ok field else .error (.failed .stillBuilding)

def slotCount? (d : Descriptor) : Except Fault Nat := d.finished d.slotCount

def array? (d : Descriptor) : Except Fault Slot := d.finished d.array

def slots? (d : Descriptor) : Except Fault (List Slot) := do
  let count ← d.slotCount?
  return d.slots.take count

/-! ## Writes -/

def writeHeader (d : Descriptor) (size : Nat) (hasArray : Bool) : Descriptor :=
  { d with size, hasArray, initialized := false, poisoned := false }

def writeSlot (d : Descriptor) (number : Nat) (slot : Slot) : Descriptor :=
  -- slots are written in order, so what was behind this one is from an earlier writing
  { d with slots := d.slots.take number ++ [slot] }

/-- Marks a descriptor whose registration failed. -/
def poison (d : Descriptor) : Descriptor :=
  -- without slots, walking it reads nothing that was left unwritten
  { d with array := .empty, slotCount := 0, initialized := false, poisoned := true }

end Descriptor

end TracedHeap

import TracedHeap.Descriptor.Basic

/-! # The store of descriptors

Descriptors live at fixed addresses for good.  The store is what lies at those
addresses; `Store.allocate` hands out fresh ones, and nothing is ever freed.

* `Store.get`, `Store.set`, `Store.allocate`: the memory.
* `Slot.make`: a slot, checked against the header of its target.
-/

namespace TracedHeap

structure Store where
  descriptors : List Descriptor
  deriving DecidableEq, Repr

namespace Store

def initial : Store := ⟨[.sentinel]⟩

/-- An address that was never handed out reads as the sentinel. -/
def get (s : Store) (d : DescriptorRef) : Descriptor :=
  s.descriptors.getD d.index .sentinel

def set (s : Store) (d : DescriptorRef) (memory : Descriptor) : Store :=
  ⟨s.descriptors.set d.index memory⟩

def fresh (s : Store) : DescriptorRef := ⟨s.descriptors.length⟩

def allocate (s : Store) (memory : Descriptor) : Store :=
  ⟨s.descriptors ++ [memory]⟩

end Store

/-- Creates a slot.  Without a target the slot is boxed. -/
def Slot.make (store : Store) (target : Option DescriptorRef) (discipline : Discipline)
    (offset : Nat) : Except Fault Slot :=
  let descriptor := target.getD .boxed
  if descriptor.isBoxed && discipline == .value then
    .error (.failed .boxedByValue)
  -- only the header is read, so the check means something even while the target is unfinished
  else if discipline == .value && (store.get descriptor).hasArray then
    .error (.failed .arrayByValue)
  else
    .ok ⟨some descriptor, discipline, offset⟩

end TracedHeap

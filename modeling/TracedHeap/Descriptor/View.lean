import TracedHeap.Descriptor.Basic

/-! # Views of descriptors

All that can be told about a descriptor through its accessors, in one value.
-/

namespace TracedHeap

/-- What the accessors of a descriptor say. -/
structure DescriptorView where
  descriptor : DescriptorRef
  size : Nat
  hasArray : Bool
  initialized : Bool
  poisoned : Bool
  slotCount : Except Fault Nat
  array : Except Fault Slot
  slots : Except Fault (List Slot)

def Descriptor.view (d : DescriptorRef) (memory : Descriptor) : DescriptorView where
  descriptor := d
  size := memory.size
  hasArray := memory.hasArray
  initialized := memory.initialized
  poisoned := memory.poisoned
  slotCount := memory.slotCount?
  array := memory.array?
  slots := memory.slots?

end TracedHeap

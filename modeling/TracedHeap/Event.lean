import TracedHeap.Address
import TracedHeap.Descriptor.View
import TracedHeap.Layout

/-! # Events

What collectors, values and build functions report to whoever watches them.
-/

namespace TracedHeap

/-- Something that was reported. -/
inductive Event where
  | read (stored : Pointer)
  | write (given stored : Pointer)
  | allocate (layout : Layout)
  | created (discipline : Discipline)
  | destroyed (discipline : Discipline)
  | payloadDefaulted
  | payloadCloned (source : String)
  | payloadAssigned (source target : String)
  | payloadDropped (text : String)
  | building (type : String)
  /-- A build function looks at the header of a descriptor it was given. -/
  | sees (type target : String) (size : Nat) (hasArray initialized poisoned : Bool)
  /-- A build function survived a fault. -/
  | catches (type : String) (fault : Fault)
  | countProbed (slots : Nat)
  | probed (seen : Except Fault DescriptorView)
  /-- A listener of the log asked for all about a type. -/
  | reentered (seen : Except Fault DescriptorView)

namespace Event

/-- The text of an event, if it is shown as a text. -/
def text? : Event → Option String
  | .read stored => "read " ++ stored.text
  | .write given stored => "write " ++ given.text ++ " over " ++ stored.text
  | .allocate layout => s!"allocate {layout.size} align {layout.align}"
  | .created discipline => "created " ++ discipline.name
  | .destroyed discipline => "destroyed " ++ discipline.name
  | .payloadDefaulted => "default payload"
  | .payloadCloned source => "clone payload " ++ source
  | .payloadAssigned source target => "clone payload " ++ source ++ " into " ++ target
  | .payloadDropped text => "drop payload " ++ text
  | .building type => "build " ++ type
  | .sees type target size hasArray initialized poisoned =>
      s!"{type} sees {target} size={size} has_array={hasArray} " ++
        s!"initialized={initialized} poisoned={poisoned}"
  | .catches type fault => type ++ " catches " ++ fault.text
  | .countProbed _ | .probed _ | .reentered _ => none

end Event

end TracedHeap

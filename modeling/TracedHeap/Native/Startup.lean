import TracedHeap.Native.Catalogue
import TracedHeap.Registry.Walk

/-! # Start-up

All native types are registered once, in order, before anything else happens.

* `Native.firstRequests`: what the first request for each type came to.
* `Native.session`: the session that start-up leaves behind.
* `Native.lookup`: what every later request comes to.
-/

namespace TracedHeap

namespace Native

def calls (t : NativeType) : Call NativeType.count NativeType :=
  t.declaration.call t.cell Client.get

/-- Asks for native types, one after the other, and whether they were finished
when they were handed out. -/
def requestAll : List NativeType →
    Client NativeType.count NativeType (List (NativeType × Except Fault Bool))
  | [] => .done []
  | t :: rest => do
    let first ← Client.attempt do
      let memory ← Client.memory (← Client.get t)
      return memory.initialized
    let others ← requestAll rest
    return (t, first) :: others

def startup : Except Fault (List (NativeType × Except Fault Bool)) ×
    Session NativeType.count NativeType :=
  Session.initial.run calls (requestAll NativeType.all)

/-- What the first request for each type came to. -/
def firstRequests : List (NativeType × Except Fault Bool) :=
  match startup.1 with
  | .ok requests => requests
  | .error _ => []

def first (t : NativeType) : Except Fault Bool :=
  (firstRequests.lookup t).getD (.ok false)

def session : Session NativeType.count NativeType :=
  -- what start-up has reported is no part of any answer
  { startup.2 with events := [], log := [] }

def lookup (t : NativeType) : Except Fault DescriptorRef :=
  (session.run calls (.get t)).1

/-- The descriptors of native types, each with its type. -/
def published : List (DescriptorRef × NativeType) :=
  NativeType.all.filterMap fun t => session.cells[t.cell].address.map (·, t)

end Native

end TracedHeap

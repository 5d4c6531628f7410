import TracedHeap.Registry.Client

/-! # Walks over descriptors

Clients that look around in finished descriptors: following slots from one
descriptor to the next, and asking for all there is to tell.
-/

namespace TracedHeap

/-- One step from a descriptor to another. -/
inductive Hop where
  | slot (number : Nat)
  | array
  deriving DecidableEq, Repr

namespace Client

variable {n : Nat} {κ : Type}

/-- Writes what an outcome leaves in the log where it arises. -/
def logOutcome {α : Type} : Except Fault α → Client n κ Unit
  | .ok _ => .done ()
  | .error fault => fault.lines.foldr .log (.done ())

def slotCount (d : DescriptorRef) : Client n κ Nat := do
  demand (← memory d).slotCount?

def slots (d : DescriptorRef) : Client n κ (List Slot) := do
  demand (← memory d).slots?

def array (d : DescriptorRef) : Client n κ Slot := do
  demand (← memory d).array?

def hop (d : DescriptorRef) : Hop → Client n κ DescriptorRef
  | .array => do
    let slot ← array d
    return slot.descriptor
  | .slot number => do
    let all ← slots d
    match all[number]? with
    | some s => return s.descriptor
    | none => raise (.indexOutOfBounds all.length number)

def follow : List Hop → DescriptorRef → Client n κ DescriptorRef
  | [], d => .done d
  | h :: rest, d => do
    let next ← hop d h
    follow rest next

/-- All that the accessors say.  Those that fail are logged in the order in which
they are asked. -/
def view (d : DescriptorRef) : Client n κ DescriptorView := do
  let seen := (← memory d).view d
  logOutcome seen.slotCount
  logOutcome seen.array
  logOutcome seen.slots
  return seen

end Client

end TracedHeap

import TracedHeap.Descriptor.Construction
import TracedHeap.Event
import TracedHeap.LogLine

/-! # Clients of the registry

Code that asks for descriptors: the build functions of types, and whatever asks
for types in the first place.  A client is given as the tree of what it may do,
so that a run of it is a recursion over the tree.

* `Phase`: how far the registration of a type has come.
* `Client`: the tree.  It ends with a result or a fault; each other node is one
  request to the registry and what the client does with the answer.
* `Client.attempt`: survives a fault.

The registry of a client has `n` cells, and `κ` names the calls that it can make
to it.
-/

namespace TracedHeap

/-- How far the registration of a type has come. -/
inductive Phase where
  | unclaimed
  | registering
  | registered
  | poisoned
  deriving DecidableEq, Repr

/-- Code that uses the registry. -/
inductive Client (n : Nat) (κ : Type) (α : Type) : Type where
  | done (result : α)
  | fail (fault : Fault)
  | log (line : LogLine) (next : Client n κ α)
  | note (event : Event) (next : Client n κ α)
  | read (descriptor : DescriptorRef) (next : Descriptor → Client n κ α)
  | phase (cell : Fin n) (next : Phase → Client n κ α)
  | slot (target : Option DescriptorRef) (discipline : Discipline) (offset : Nat)
      (next : Except Fault Slot → Client n κ α)
  | construct (placement : Placement) (blueprint : Blueprint)
      (next : Except Fault (Option DescriptorRef) → Client n κ α)
  | lookup (call : κ) (next : Except Fault DescriptorRef → Client n κ α)

namespace Client

variable {n : Nat} {κ α β : Type}

def bind : Client n κ α → (α → Client n κ β) → Client n κ β
  | .done a, f => f a
  | .fail fault, _ => .fail fault
  | .log line next, f => .log line (next.bind f)
  | .note event next, f => .note event (next.bind f)
  | .read d next, f => .read d fun memory => (next memory).bind f
  | .phase cell next, f => .phase cell fun p => (next p).bind f
  | .slot target discipline offset next, f =>
      .slot target discipline offset fun made => (next made).bind f
  | .construct placement blueprint next, f =>
      .construct placement blueprint fun made => (next made).bind f
  | .lookup call next, f => .lookup call fun found => (next found).bind f

instance : Monad (Client n κ) where
  pure := .done
  bind := bind

/-- Turns the fault of a client into a result. -/
def attempt : Client n κ α → Client n κ (Except Fault α)
  | .done a => .done (.ok a)
  | .fail fault => .done (.error fault)
  | .log line next => .log line next.attempt
  | .note event next => .note event next.attempt
  | .read d next => .read d fun memory => (next memory).attempt
  | .phase cell next => .phase cell fun p => (next p).attempt
  | .slot target discipline offset next =>
      .slot target discipline offset fun made => (next made).attempt
  | .construct placement blueprint next =>
      .construct placement blueprint fun made => (next made).attempt
  | .lookup call next => .lookup call fun found => (next found).attempt

/-- Goes on with a result, or ends with a fault that arose elsewhere. -/
def ofExcept : Except Fault α → Client n κ α
  | .ok a => .done a
  | .error fault => .fail fault

/-- Lets a fault arise, which leaves its lines in the log. -/
def raise (fault : Fault) : Client n κ α :=
  fault.lines.foldr .log (.fail fault)

def demand : Except Fault α → Client n κ α
  | .ok a => .done a
  | .error fault => raise fault

def report (event : Event) : Client n κ Unit := .note event (.done ())

def get (call : κ) : Client n κ DescriptorRef := .lookup call ofExcept

def memory (d : DescriptorRef) : Client n κ Descriptor := .read d .done

def makeSlot (target : Option DescriptorRef) (discipline : Discipline) (offset : Nat) :
    Client n κ Slot :=
  .slot target discipline offset ofExcept

/-- A new descriptor, or `none` if no memory is large enough for it. -/
def build (placement : Placement) (blueprint : Blueprint) :
    Client n κ (Option DescriptorRef) :=
  .construct placement blueprint ofExcept

end Client

end TracedHeap

import TracedHeap.Registry.Session

/-! # Registration

The descriptor of a type is registered when it is first asked for.  Registration
claims the cell of the type, writes the header of the descriptor and publishes
its address, and only then runs the build function of the type.  A build function
that comes back to the type therefore finds the address and stops there.

A registration that fails poisons its cell for good, and whatever was already
published of it.

* `Call`: one way to ask for a type.
* `interpret`: a run of a client, given what a lookup does.
* `register`: a registration whose cell has been claimed.
* `resolve`: a lookup.  It recurses on the number of unclaimed cells, which
  bounds how deep registrations nest, so it always comes to an end.
* `Session.run`, `Session.resolve`: the two entrances.
-/

namespace TracedHeap

/-- What a registration declares before its slots are built. -/
structure Request where
  size : Nat
  hasArray : Bool
  slotCount : Nat
  deriving DecidableEq, Repr

/-- What a build function returns: the array slot and the other slots. -/
structure Parts where
  array : Slot
  source : SlotSource
  deriving DecidableEq, Repr

structure Call (n : Nat) (κ : Type) where
  cell : Fin n
  request : Request
  build : Client n κ Parts

def Request.blueprint (r : Request) (parts : Parts) : Blueprint :=
  ⟨r.size, r.hasArray, parts.array, parts.source⟩

variable {n : Nat} {κ : Type}

abbrev Outcome (n : Nat) (κ : Type) (depth : Nat) (α : Type) :=
  Except Fault α × Bounded n κ depth

def Bounded.raise {depth : Nat} {α : Type} (b : Bounded n κ depth) (fault : Fault) :
    Outcome n κ depth α :=
  (.error fault, b.logFault fault)

/-! ## Runs of clients -/

def interpret {depth : Nat} {α : Type}
    (enter : κ → Bounded n κ depth → Outcome n κ depth DescriptorRef) :
    Client n κ α → Bounded n κ depth → Outcome n κ depth α
  | .done a, b => (.ok a, b)
  | .fail fault, b => (.error fault, b)
  | .log line next, b => interpret enter next (b.write line)
  | .note event next, b => interpret enter next (b.report event)
  | .read d next, b => interpret enter (next (b.session.store.get d)) b
  | .phase cell next, b => interpret enter (next b.session.cells[cell].phase) b
  | .slot target discipline offset next, b =>
    let made := Slot.make b.session.store target discipline offset
    interpret enter (next made) (b.logOutcome made)
  | .construct placement blueprint next, b =>
    let made := b.construct placement blueprint
    interpret enter (next made.1) made.2
  | .lookup call next, b =>
    let found := enter call b
    interpret enter (next found.1) found.2

/-! ## Registrations -/

/-- Announces a registration in the log.  If a listener is waiting, it is run
now, before the address is published, and waits no more. -/
def announce {depth : Nat}
    (enter : κ → Bounded n κ depth → Outcome n κ depth DescriptorRef)
    (cell : Fin n) (request : Request) (b : Bounded n κ depth) : Bounded n κ depth :=
  let b := b.write (.registering cell request.size request.hasArray request.slotCount)
  match b.session.listener with
  | none => b
  | some listener =>
    let quiet := b.update (fun s => { s with listener := none }) fun _ => Nat.le_refl _
    (interpret enter listener quiet).2

/-- Reserves memory for the descriptor of a cell, writes the header and publishes
the address. -/
def reserve {depth : Nat} (cell : Fin n) (request : Request) (b : Bounded n κ depth) :
    DescriptorRef × Bounded n κ depth :=
  let d := b.session.store.fresh
  let header := (Descriptor.blank request.slotCount).writeHeader request.size request.hasArray
  (d, (b.allocate header).publish cell d)

def complete {depth : Nat}
    (enter : κ → Bounded n κ depth → Outcome n κ depth DescriptorRef)
    (call : Call n κ) (d : DescriptorRef) (b : Bounded n κ depth) : Outcome n κ depth Unit :=
  match interpret enter call.build b with
  | (.error fault, b) => (.error fault, b)
  | (.ok parts, b) =>
    -- the memory is for the declared number of slots; for any other number nothing is written
    if parts.source.reported = call.request.slotCount then
      let made := (b.session.store.get d).compose 0 (call.request.blueprint parts)
      (made.1, (b.overwrite d made.2).logOutcome made.1)
    else
      b.raise (.failed (.slotCountMismatch call.request.slotCount parts.source.reported))

/-- Poisons a cell whose registration failed, and its descriptor if that was
already published. -/
def abandon {depth : Nat} (cell : Fin n) (published : Option DescriptorRef)
    (b : Bounded n κ depth) : Bounded n κ depth :=
  let b := b.write (.registrationFailed cell)
  let b :=
    match published with
    | none => b
    | some d => b.overwrite d (b.session.store.get d).poison
  b.poison cell

def register {depth : Nat}
    (enter : κ → Bounded n κ depth → Outcome n κ depth DescriptorRef)
    (call : Call n κ) (b : Bounded n κ depth) : Outcome n κ depth DescriptorRef :=
  -- the cell is claimed but has no address yet: whoever comes back to it now is refused
  let b := announce enter call.cell call.request b
  match Descriptor.layout? call.request.slotCount with
  | none =>
    let fault := Fault.noDescriptorLayout call.request.slotCount
    (.error fault, abandon call.cell none (b.logFault fault))
  | some _ =>
    let reserved := reserve call.cell call.request b
    match complete enter call reserved.1 reserved.2 with
    | (.error fault, b) => (.error fault, abandon call.cell (some reserved.1) b)
    | (.ok (), b) => (.ok reserved.1, (b.finish call.cell).write (.registered call.cell))

/-- Asks for the descriptor of a type, and registers it if nobody has before. -/
def resolve (calls : κ → Call n κ) :
    (depth : Nat) → Call n κ → Bounded n κ depth → Outcome n κ depth DescriptorRef
  | 0, call, b =>
    match h : b.session.entry call.cell with
    | .found d => (.ok d, b)
    | .refused fault => b.raise fault
    -- no cell is left that could be claimed
    | .free => absurd h (b.entry_ne_free call.cell)
  | depth + 1, call, b =>
    match h : b.session.entry call.cell with
    | .found d => (.ok d, b)
    | .refused fault => b.raise fault
    | .free =>
      let registered :=
        register (fun key => resolve calls depth (calls key)) call (b.claim call.cell h)
      (registered.1, registered.2.weaken)

/-! ## Entrances -/

namespace Session

def bounded (s : Session n κ) : Bounded n κ s.unclaimed := ⟨s, Nat.le_refl _⟩

def run {α : Type} (calls : κ → Call n κ) (client : Client n κ α) (s : Session n κ) :
    Except Fault α × Session n κ :=
  let enter := fun key => TracedHeap.resolve calls s.unclaimed (calls key)
  let outcome := interpret enter client s.bounded
  (outcome.1, outcome.2.session)

/-- Asks for the descriptor of a type.  The build functions that this runs find
their own calls in `calls`. -/
def resolve (calls : κ → Call n κ) (call : Call n κ) (s : Session n κ) :
    Except Fault DescriptorRef × Session n κ :=
  let outcome := TracedHeap.resolve calls s.unclaimed call s.bounded
  (outcome.1, outcome.2.session)

end Session

end TracedHeap

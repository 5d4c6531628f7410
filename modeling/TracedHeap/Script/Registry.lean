import TracedHeap.Script.Descriptors

/-! # Scripts over the registry

The types of a script are registered on demand, by build functions that look
around, catch faults and fail as they are told to.

* `TypePlan`: a type and its build function.
* `TypePlan.build`: what the build function does.
* `RegistryStep`: the steps.
-/

namespace TracedHeap

namespace Script

/-- A slot that a build function makes. -/
structure BuiltSlot where
  plan : SlotPlan
  /-- Whether the build function survives a fault while it makes the slot. -/
  catches : Bool
  deriving DecidableEq, Repr

/-- A type that a build function asks for without making a slot. -/
structure Probe where
  type : String
  via : List Hop
  catches : Bool
  deriving DecidableEq, Repr

structure TypePlan where
  name : String
  size : Nat
  hasArray : Bool
  array : Option SlotPlan
  slots : List BuiltSlot
  /-- The declared number of slots, if not the true one. -/
  declared : Option Nat
  /-- The reported number of slots, if not the true one. -/
  claim : Option Nat
  /-- The slot before which the build function fails. -/
  failAt : Option Nat
  probes : List Probe
  deriving DecidableEq, Repr

/-- What a step asks for instead of what the type declares. -/
structure Override where
  size : Option Nat
  hasArray : Option Bool
  declared : Option Nat
  deriving DecidableEq, Repr

inductive RegistryStep where
  /-- Requests a type.  With `reenters`, a listener of the log requests it too, as
  soon as a registration is announced. -/
  | get (type : String) (override : Override) (reenters : Bool)
  | dump (type : String) (via : List Hop)
  | phase (type : String)
  | phases
  | same (a : String) (viaA : List Hop) (b : String) (viaB : List Hop)

/-! ## Types by name -/

/-- A native type, or one of the `m` types of a script. -/
inductive TypeKey (m : Nat) where
  | native (type : NativeType)
  | planned (number : Fin m)
  deriving DecidableEq, Repr

abbrev cellCount (m : Nat) : Nat := NativeType.count + m

variable {m : Nat}

abbrev TypeClient (m : Nat) := Client (cellCount m) (TypeKey m)

def TypeKey.cell : TypeKey m → Fin (cellCount m)
  | .native t => t.cell.castAdd m
  | .planned i => i.natAdd NativeType.count

abbrev TypePlans (m : Nat) := Vector TypePlan m

/-- What a name stands for: the first type of the script of that name, or else a
native type. -/
def TypePlans.target? (plans : TypePlans m) (name : String) : Option (Target (TypeKey m)) :=
  match plans.findFinIdx? (·.name == name) with
  | some i => some (.type (.planned i))
  | none =>
    (NativeType.target? name).map fun
      | .boxed => .boxed
      | .type t => .type (.native t)

def Override.none : Override := ⟨.none, .none, .none⟩

def TypePlan.request (plan : TypePlan) (o : Override) : Request :=
  ⟨o.size.getD plan.size, o.hasArray.getD plan.hasArray,
    (o.declared <|> plan.declared).getD plan.slots.length⟩

def TypePlans.get (plans : TypePlans m) : TypeKey m → TypeClient m DescriptorRef
  | .native t => Client.get (.native t)
  | .planned i => do
    -- even if the type is registered already
    demandMemory ((Vector.get plans i).request .none).slotCount
    Client.get (.planned i)

def noSuchType : Fault := .raised "no such type"

def TypePlans.find (plans : TypePlans m) (name : String) : TypeClient m DescriptorRef :=
  match plans.target? name with
  | some target => target.find plans.get
  | none => Client.raise noSuchType

/-! ## Build functions -/

def TypePlans.findSeen (plans : TypePlans m) (me name : String) : TypeClient m DescriptorRef := do
  let d ← plans.find name
  let memory ← Client.memory d
  Client.report
    (.sees me name memory.size memory.hasArray memory.initialized memory.poisoned)
  return d

def TypePlans.makeSlot (plans : TypePlans m) (me : String) (plan : SlotPlan) :
    TypeClient m Slot :=
  match plan.target with
  | .missing => Client.makeSlot none plan.discipline plan.offset
  | .boxed => Client.makeSlot (some .boxed) plan.discipline plan.offset
  | .named name => do
    let d ← plans.findSeen me name
    Client.makeSlot (some d) plan.discipline plan.offset

/-- Makes a slot, or a boxed one in its place if the fault is survived. -/
def TypePlans.makeBuiltSlot (plans : TypePlans m) (me : String) (slot : BuiltSlot) :
    TypeClient m Slot :=
  if slot.catches then do
    match ← (plans.makeSlot me slot.plan).attempt with
    | .ok s => return s
    | .error fault =>
      Client.report (.catches me fault)
      Client.makeSlot none .strong slot.plan.offset
  else
    plans.makeSlot me slot.plan

def TypePlans.probe (plans : TypePlans m) (me : String) (p : Probe) : TypeClient m Unit :=
  if p.catches then do
    let seen ← Client.attempt do
      let d ← plans.findSeen me p.type
      Client.view (← Client.follow p.via d)
    Client.report (.probed seen)
  else do
    let d ← plans.findSeen me p.type
    Client.report (.countProbed (← Client.slotCount d))

def TypePlans.probeAll (plans : TypePlans m) (me : String) : List Probe → TypeClient m Unit
  | [] => .done ()
  | p :: rest => do
    plans.probe me p
    plans.probeAll me rest

/-- Fails if the slot with the given number is the one to fail at. -/
def TypePlan.failBefore (plan : TypePlan) (number : Nat) : TypeClient m Unit :=
  if plan.failAt = some number then
    Client.raise (.raised s!"building {plan.name} failed at {number}")
  else
    .done ()

def TypePlans.makeSlots (plans : TypePlans m) (plan : TypePlan) :
    Nat → List BuiltSlot → TypeClient m (List Slot)
  -- the number after the last slot is one to fail at, too
  | number, [] => do
    plan.failBefore number
    return []
  | number, slot :: rest => do
    plan.failBefore number
    let s ← plans.makeBuiltSlot plan.name slot
    let others ← plans.makeSlots plan (number + 1) rest
    return s :: others

def TypePlan.build (plans : TypePlans m) (plan : TypePlan) : TypeClient m Parts := do
  Client.report (.building plan.name)
  plans.probeAll plan.name plan.probes
  let array ←
    match plan.array with
    | none => pure Slot.empty
    | some array => plans.makeSlot plan.name array
  let slots ← plans.makeSlots plan 0 plan.slots
  return ⟨array, ⟨slots, plan.claim.getD slots.length⟩⟩

def TypePlans.call (plans : TypePlans m) (o : Override) (i : Fin m) :
    Call (cellCount m) (TypeKey m) :=
  ⟨(TypeKey.planned i).cell, (Vector.get plans i).request o, (Vector.get plans i).build plans⟩

def TypePlans.calls (plans : TypePlans m) : TypeKey m → Call (cellCount m) (TypeKey m)
  | .native t =>
    t.declaration.call (TypeKey.native t).cell fun t => Client.get (.native t)
  | .planned i => plans.call .none i

/-! ## Steps -/

/-- The session before the first step: the native types are registered. -/
def startSession (m : Nat) : Session (cellCount m) (TypeKey m) where
  store := Native.session.store
  cells := Native.session.cells ++ Vector.replicate m Cell.fresh
  listener := none
  events := []
  log := []

/-- What a listener of the log does that asks for a type itself. -/
def TypePlans.reenter (plans : TypePlans m) (name : String) : TypeClient m Unit := do
  let seen ← Client.attempt do
    Client.view (← plans.find name)
  Client.report (.reentered seen)

def TypePlans.request (plans : TypePlans m) (target : Target (TypeKey m)) (o : Override)
    (s : Session (cellCount m) (TypeKey m)) :
    Except Fault DescriptorRef × Session (cellCount m) (TypeKey m) :=
  match target with
  | .boxed => (.ok .boxed, s)
  | .type (.native t) => s.run plans.calls (.get (.native t))
  | .type (.planned i) =>
    if exceedsMemory ((Vector.get plans i).request o).slotCount then (.error untestable, s)
    else s.resolve plans.calls (plans.call o i)

def TypePlans.phases (plans : TypePlans m) :
    List (Fin m) → TypeClient m (List (String × Phase))
  | [] => .done []
  | i :: rest =>
    .phase (TypeKey.planned i).cell fun phase => do
      let others ← plans.phases rest
      return ((Vector.get plans i).name, phase) :: others

def RegistryStep.act (plans : TypePlans m) :
    RegistryStep → Option (Session (cellCount m) (TypeKey m) →
      Except Fault Finding × Session (cellCount m) (TypeKey m))
  | .get type override reenters => do
    let target ← plans.target? type
    some fun s =>
      let listener := if reenters then some (plans.reenter type) else none
      let requested := plans.request target override { s with listener }
      match requested.1 with
      -- the fault of a request is the result of the step, and does not end it
      | .error fault => (.ok (.requested (.error fault)), requested.2)
      | .ok d =>
        requested.2.run plans.calls do
          let view ← Client.view d
          return .requested (.ok view)
  | .dump type via =>
    some (Session.run plans.calls do
      let d ← Client.follow via (← plans.find type)
      return .view (← Client.view d))
  | .phase type => do
    let i ← plans.findFinIdx? (·.name == type)
    some (Session.run plans.calls
      (.phase (TypeKey.planned i).cell fun phase => pure (.phase phase)))
  | .phases =>
    some (Session.run plans.calls do
      return .phases (← plans.phases (List.finRange m)))
  | .same a viaA b viaB =>
    some (Session.run plans.calls do
      let x ← Client.follow viaA (← plans.find a)
      let y ← Client.follow viaB (← plans.find b)
      return .truth (x = y))

/-! ## Scripts -/

def tellsOf (fault : Fault) : Event → Bool
  | .catches _ f | .probed (.error f) | .reentered (.error f) => f = fault
  | _ => false

def Answer.tellsOf (fault : Fault) (a : Answer Finding) : Bool :=
  a.events.any (Script.tellsOf fault) ||
    match a.outcome with
    | .error f | .ok (.requested (.error f)) => f = fault
    | .ok _ => false

def TypePlans.names (plans : TypePlans m) (s : Session (cellCount m) (TypeKey m)) : Names :=
  Names.native ++ (List.finRange m).filterMap fun i =>
    s.cells[(TypeKey.planned i).cell].address.map (·, (Vector.get plans i).name)

/-- Carries out the steps of a script over the registry.  Each answer comes with the names that hold
at the time. -/
def TypePlans.run (plans : TypePlans m) (steps : List RegistryStep) :
    Option (List (Answer Finding × Names)) :=
  runAll (fun s step => do
    let act ← step.act plans
    let (answer, s) := onSession act s
    -- names that stand for nothing only matter if the step comes to them
    if answer.tellsOf noSuchType then none
    some ((answer, plans.names s), s)) steps (startSession m)

def runRegistry (types : List TypePlan) (steps : List RegistryStep) :
    Option (List (Answer Finding × Names)) :=
  TypePlans.run ⟨types.toArray, rfl⟩ steps

end Script

end TracedHeap

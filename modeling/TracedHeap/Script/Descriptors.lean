import TracedHeap.Script.Finding
import TracedHeap.Script.Named

/-! # Scripts that construct descriptors

Descriptors are constructed at run-time and named.  A name stands for the latest
descriptor of that name, or else for a native type.
-/

namespace TracedHeap

namespace Script

inductive SlotTarget where
  /-- No descriptor is given. -/
  | missing
  | boxed
  | named (name : String)
  deriving DecidableEq, Repr

structure SlotPlan where
  target : SlotTarget
  discipline : Discipline
  offset : Nat
  deriving DecidableEq, Repr

inductive SlotsPlan where
  | listed (plans : List SlotPlan)
  /-- Copies of the slots of another descriptor. -/
  | copied (name : String)
  deriving DecidableEq, Repr

structure DescriptorPlan where
  name : String
  placement : Placement
  size : Nat
  hasArray : Bool
  /-- The array slot; the empty one if there is none. -/
  array : Option SlotPlan
  slots : SlotsPlan
  /-- The number of slots that is reported, if not the true one. -/
  claim : Option Nat
  deriving DecidableEq, Repr

inductive DescriptorStep where
  | slot (plan : SlotPlan)
  | slotDebug (plan : SlotPlan)
  | empty
  | build (plan : DescriptorPlan)
  | dump (name : String) (via : List Hop)
  | same (a b : String)

/-- The descriptors made so far, the latest first. -/
abbrev Made := Named DescriptorRef

def Made.sought? (made : Made) (name : String) : Option Sought :=
  match made.lookup name with
  | some d => some (.known d)
  | none => Sought.ofNative? name

/-- A client that runs in the session of the native types.  It has no result if it
comes to a name that stands for nothing. -/
abbrev NativeClient := OptionT (Client NativeType.count NativeType)

def Made.find (made : Made) (name : String) : NativeClient DescriptorRef :=
  match made.sought? name with
  | some sought => OptionT.lift sought.find
  | none => OptionT.fail

/-- Finds the descriptor that is dumped. -/
def Made.walk (made : Made) (name : String) (via : List Hop) : NativeClient DescriptorRef :=
  -- the sentinel has a name of its own here, which hides all others, and no hops lead away from it
  if name = "boxed" then pure .boxed
  else do
    let start ← made.find name
    OptionT.lift (Client.follow via start)

def SlotPlan.make (made : Made) (plan : SlotPlan) : NativeClient Slot := do
  let target ←
    match plan.target with
    | .missing => pure none
    | .boxed => pure (some .boxed)
    | .named name => some <$> made.find name
  OptionT.lift (Client.makeSlot target plan.discipline plan.offset)

def SlotPlan.makeAll (made : Made) : List SlotPlan → NativeClient (List Slot)
  | [] => pure []
  | plan :: rest => do
    let slot ← plan.make made
    let slots ← SlotPlan.makeAll made rest
    return slot :: slots

def SlotsPlan.make (made : Made) : SlotsPlan → NativeClient (List Slot)
  | .listed plans => SlotPlan.makeAll made plans
  | .copied name => do
    let d ← made.find name
    OptionT.lift (Client.slots d)

def DescriptorPlan.build (made : Made) (plan : DescriptorPlan) :
    NativeClient (Option DescriptorRef) := do
  -- the slots are made before anything else
  let array ←
    match plan.array with
    | none => pure Slot.empty
    | some array => array.make made
  let slots ← plan.slots.make made
  let source := ⟨slots, plan.claim.getD slots.length⟩
  OptionT.lift do
    demandMemory source.reported
    Client.build plan.placement ⟨plan.size, plan.hasArray, array, source⟩

def DescriptorStep.client (made : Made) : DescriptorStep → NativeClient (Finding × Made)
  | .slot plan => do
    return (.slot (← plan.make made), made)
  | .slotDebug plan => do
    return (.text (TracedHeap.Script.slotDebug (← plan.make made)), made)
  | .empty => return (.slot .empty, made)
  | .build plan => do
    match ← plan.build made with
    | none => return (.tooLarge, made)
    | some d => return (.view (← OptionT.lift (Client.view d)), (plan.name, d) :: made)
  | .dump name via => do
    let d ← made.walk name via
    return (.view (← OptionT.lift (Client.view d)), made)
  | .same a b => do
    let x ← made.find a
    let y ← made.find b
    return (.truth (x = y), made)

structure DescriptorState where
  session : Session NativeType.count NativeType
  made : Made

def Made.names (made : Made) : Names :=
  made.map (fun (name, d) => (d, name)) ++ Names.native

def DescriptorStep.run (s : DescriptorState) (step : DescriptorStep) :
    Option ((Answer Finding × Names) × DescriptorState) :=
  let (answer, session) := onSession (Session.run Native.calls (step.client s.made).run) s.session
  match answer.outcome with
  | .ok none => none
  | .ok (some (finding, made)) =>
    some ((⟨.ok finding, answer.events, answer.log⟩, made.names), ⟨session, made⟩)
  | .error fault =>
    some ((⟨.error fault, answer.events, answer.log⟩, s.made.names), ⟨session, s.made⟩)

/-- Carries out a script that constructs descriptors.  Each answer comes with the
names that hold at the time. -/
def runDescriptors (steps : List DescriptorStep) :
    Option (List (Answer Finding × Names)) :=
  runAll DescriptorStep.run steps ⟨Native.session, []⟩

end Script

end TracedHeap

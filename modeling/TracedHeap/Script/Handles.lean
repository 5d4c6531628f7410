import TracedHeap.Handle.Simulated
import TracedHeap.Handle.Basic
import TracedHeap.Layout
import TracedHeap.Script.Answer
import TracedHeap.Script.Named

/-! # Scripts over handles

Handles that are held by name, and objects that references point to.  What is
stored in place is a payload, which reports what becomes of it.

* `Payload`: numbers and texts.
* `HandleAct`: what can be done with a handle.
* `HandleStep`: the steps, which create, change and destroy handles.
-/

namespace TracedHeap

namespace Script

/-! ## Payloads -/

inductive Payload where
  | number (value : Int)
  | text (value : String)
  deriving DecidableEq, Repr

namespace Payload

def shown : Payload → String
  | .number value => toString value
  | .text value => value

def default : Payload := .number 0

/-- Adds a number: numbers wrap around at 64 bits, texts grow by its digits. -/
def add (n : Int) : Payload → Payload
  | .number value => .number ((value + n).bmod Word.bound)
  | .text value => .text (value ++ toString n)

def make (s : Simulated) : Payload × Simulated := (.default, s.report .payloadDefaulted)

def copy (p : Payload) (s : Simulated) : Payload × Simulated :=
  (p, s.report (.payloadCloned p.shown))

def copyOnto (p other : Payload) (s : Simulated) : Payload × Simulated :=
  (other, s.report (.payloadAssigned other.shown p.shown))

def drop (p : Payload) (s : Simulated) : Simulated := s.report (.payloadDropped p.shown)

end Payload

/-! ## The hooks -/

inductive HookKind where
  /-- The barriers; creation and destruction are reported. -/
  | noisy
  | quiet
  | noBarrier
  deriving DecidableEq, Repr

def HookKind.hooks : HookKind → Hooks Simulated
  | .noisy => Simulated.noisy
  | .quiet => Simulated.quiet
  | .noBarrier => .noBarrier

/-! ## Steps -/

/-- How a handle comes into being. -/
inductive Creation where
  | new (content : Handle Payload)
  | null (strength : Strength)
  | default (discipline : Discipline)
  /-- From what it is to store. -/
  | stored (content : Handle Payload)
  /-- From what it is to store, without telling the hooks. -/
  | unhooked (content : Handle Payload)
  deriving DecidableEq, Repr

/-- What can be done with a handle that stays where it is. -/
inductive HandleAct where
  | type
  | debug
  | debugLines
  | get
  /-- The payload, as if the handle were one. -/
  | deref
  /-- Points a reference to a target, or replaces the payload. -/
  | set (target : Pointer) (value : Option Payload)
  /-- Replaces the payload, as if the handle were one. -/
  | derefSet (value : Payload)
  | add (n : Int)
  | isNull
  | isAlive
  /-- The object that a reference points to. -/
  | object
  | store (value : Int)
  /-- What a reference stores, past the hooks. -/
  | slot
  | setSlot (target : Pointer)
  deriving DecidableEq, Repr

inductive HandleStep where
  | create (name : String) (kind : HookKind) (how : Creation)
  | clone (name source : String)
  | assign (name source : String)
  | swap (a b : String)
  | rename (name newName : String)
  | drop (name : String)
  /-- Gives a handle up without destroying it. -/
  | forget (name : String)
  /-- Destroys a handle and takes its payload out. -/
  | intoInner (name : String)
  | act (name : String) (act : HandleAct)
  | object (number : Nat)
  | mode (mode : Mode)
  deriving DecidableEq, Repr

inductive HandleFinding where
  | nothing
  | payload (value : Payload)
  | pointer (value : Pointer)
  | truth (value : Bool)
  | text (value : String)
  | discipline (discipline : Discipline)
  | object (value : Option Int)
  deriving DecidableEq, Repr

/-! ## The state between two steps -/

structure Held where
  kind : HookKind
  handle : Handle Payload
  deriving DecidableEq, Repr

structure HandleState where
  /-- The values of objects, the latest first; all others are zero. -/
  objects : List (Nat × Int)
  /-- The handles in the order of their creation. -/
  handles : Named Held
  collector : Simulated

namespace HandleState

def object (s : HandleState) (number : Nat) : Int := (s.objects.lookup number).getD 0

def hold (s : HandleState) (name : String) (held : Held) (collector : Simulated) : HandleState :=
  { s with handles := s.handles ++ [(name, held)], collector }

def replace (s : HandleState) (name : String) (held : Held) (handle : Handle Payload) :
    HandleState :=
  { s with handles := Named.replace name { held with handle } s.handles }

def remove (s : HandleState) (name : String) : HandleState :=
  { s with handles := Named.remove name s.handles }

end HandleState

/-! ## Carrying out steps -/

def Creation.run (hooks : Hooks Simulated) (s : Simulated) : Creation → Handle Payload × Simulated
  | .new content | .stored content => content.fromRepr hooks s
  | .null strength =>
    let (h, s) := RefHandle.null hooks strength s
    (.reference h, s)
  | .default discipline => Handle.default hooks Payload.make discipline s
  | .unhooked content => (content, s)

def HandleAct.onValue (h : ValueHandle Payload) (s : Simulated) :
    HandleAct → Option (HandleFinding × ValueHandle Payload × Simulated)
  | .get | .deref => some (.payload h.value, h, s)
  | .set _ (some value) | .derefSet value => some (.nothing, h.set Payload.drop value s)
  | .add n => some (.payload (h.value.add n), ⟨h.value.add n⟩, s)
  | _ => none

def HandleAct.onReference (hooks : Hooks Simulated) (h : RefHandle) (s : Simulated) :
    HandleAct → Option (HandleFinding × RefHandle × Simulated)
  | .get =>
    let (target, h, s) := h.get hooks s
    some (.pointer target, h, s)
  | .set target _ => some (.nothing, h.set hooks target s)
  | .isNull =>
    let (answer, h, s) := h.isNull hooks s
    some (.truth answer, h, s)
  -- strong references have no such operation
  | .isAlive => do
    if h.strength ≠ .weak then none
    let (answer, h, s) := h.isAlive hooks s
    some (.truth answer, h, s)
  | .slot => some (.pointer h.stored, h, s)
  | .setSlot target => some (.nothing, h.setSlot target, s)
  | _ => none

def pointedTo (state : HandleState) : Pointer → Option Int
  | some (.object number) => some (state.object number)
  | _ => none

def HandleAct.run (state : HandleState) (name : String) (held : Held) (act : HandleAct) :
    Option (HandleFinding × HandleState) :=
  match act, held.handle with
  | .type, h => some (.discipline h.discipline, state)
  | .debug, h => some (.text (h.debug Payload.shown), state)
  | .debugLines, h => some (.text (h.debugLines Payload.shown), state)
  | .object, .reference h =>
    let (found, h, collector) := h.asRef held.kind.hooks (pointedTo state) state.collector
    some (.object found, { state.replace name held (.reference h) with collector })
  | .store value, .reference h =>
    let (target, h, collector) := h.get held.kind.hooks state.collector
    let state := { state.replace name held (.reference h) with collector }
    match target with
    | some (.object number) =>
      some (.truth true, { state with objects := (number, value) :: state.objects })
    | _ => some (.truth false, state)
  | act, .value h => do
    let (finding, h, collector) ← act.onValue h state.collector
    some (finding, { state.replace name held (.value h) with collector })
  | act, .reference h => do
    let (finding, h, collector) ← act.onReference held.kind.hooks h state.collector
    some (finding, { state.replace name held (.reference h) with collector })

def HandleStep.run (state : HandleState) : HandleStep → Option (HandleFinding × HandleState)
  | .create name kind how =>
    let (handle, collector) := how.run kind.hooks state.collector
    some (.nothing, state.hold name ⟨kind, handle⟩ collector)
  | .clone name source => do
    let held ← state.handles.lookup source
    let (handle, collector) := held.handle.clone held.kind.hooks Payload.copy state.collector
    some (.nothing, state.hold name { held with handle } collector)
  | .assign name source => do
    let target ← state.handles.lookup name
    let source ← state.handles.lookup source
    -- the hooks are part of the type of a handle
    if target.kind ≠ source.kind then none
    let (handle, collector) ←
      target.handle.assign target.kind.hooks Payload.copyOnto source.handle state.collector
    some (.nothing, { state.replace name target handle with collector })
  | .swap a b => do
    let first ← state.handles.lookup a
    let second ← state.handles.lookup b
    if first.kind ≠ second.kind ∨ first.handle.discipline ≠ second.handle.discipline then none
    some (.nothing, (state.replace a first second.handle).replace b second first.handle)
  | .rename name newName => do
    let _ ← state.handles.lookup name
    some (.nothing, { state with handles := Named.rename name newName state.handles })
  | .drop name => do
    let held ← state.handles.lookup name
    let collector := held.handle.drop held.kind.hooks Payload.drop state.collector
    some (.nothing, { state.remove name with collector })
  | .forget name => do
    let _ ← state.handles.lookup name
    some (.nothing, state.remove name)
  | .intoInner name => do
    let held ← state.handles.lookup name
    match held.handle with
    | .value h =>
      let (value, collector) := h.intoInner held.kind.hooks state.collector
      -- the payload outlives the handle, and is dropped once the result is taken
      some (.payload value, { state.remove name with collector := value.drop collector })
    | .reference _ => none
  | .act name what => do
    let held ← state.handles.lookup name
    what.run state name held
  | .object number => some (.object (some (state.object number)), state)
  | .mode told => some (.nothing, { state with collector := { state.collector with mode := told } })

/-- Carries out a step whose events are told apart from those before. -/
def answerHandles (act : HandleState → Option (HandleFinding × HandleState))
    (state : HandleState) : Option (Answer HandleFinding × HandleState) := do
  let (finding, state) ←
    act { state with collector := { state.collector with events := [] } }
  some (⟨.ok finding, state.collector.events, []⟩, state)

def dropAll (state : HandleState) : HandleState :=
  let collector := state.handles.foldl
    (fun s (_, held) => held.handle.drop held.kind.hooks Payload.drop s) state.collector
  { state with handles := [], collector }

def runHandleSteps : List HandleStep → HandleState → Option (List (Answer HandleFinding))
  -- one more answer is about the handles that are left
  | [], state => do
    let (answer, _) ← answerHandles (fun s => some (.nothing, dropAll s)) state
    some [answer]
  | step :: rest, state => do
    let (answer, state) ← answerHandles step.run state
    let others ← runHandleSteps rest state
    some (answer :: others)

/-- Carries out a script over handles.  The first objects have given values. -/
def runHandles (objects : List Int) (steps : List HandleStep) :
    Option (List (Answer HandleFinding)) :=
  let numbered := objects.zipIdx.map fun (value, number) => (number, value)
  runHandleSteps steps ⟨numbered, [], .initial⟩

end Script

end TracedHeap

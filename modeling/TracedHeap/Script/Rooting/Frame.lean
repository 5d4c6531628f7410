import TracedHeap.Roots.PersistentHandle
import TracedHeap.Script.Answer
import TracedHeap.Script.Named
import TracedHeap.Script.Rooting.Step

/-! # Names and answers of scripts over root sets

What a script over root sets keeps between two steps, and what its steps come to.

* `Frame`: the names that are in use with one root set.
* `Reply`: what a step comes to, with the answers of the steps that it contains.
* `Scripting`: the frame, and what is to be told later.
* `Script.reporting`, `Script.collecting`: telling events, lines and answers of
  some code apart from those before and after it.
-/

namespace TracedHeap

namespace Script

/-! ## Names -/

structure LocalHandle where
  type : NativeType
  handle : Handle NativeValue

abbrev NativePersistent := PersistentHandle DescriptorRef NativeValue

/-- The names that are in use with one root set; the latest of a name comes first. -/
structure Frame where
  /-- The scopes whose steps are being carried out, the innermost first. -/
  enclosing : Named Scope
  scopes : Named Scope
  locals : Named LocalHandle
  persistents : Named NativePersistent
  /-- The names that handles had when their values were boxed. -/
  boxes : List (Nat × String)

namespace Frame

def empty : Frame := ⟨[], [], [], [], []⟩

/-- The scope of a name.  The scopes around a step come before all others. -/
def scope? (f : Frame) (name : String) : Option Scope :=
  (f.enclosing ++ f.scopes).lookup name

def persist (f : Frame) (name : String) (p : NativePersistent) : Frame :=
  let boxes :=
    match p.box with
    | .box number => (number, name) :: f.boxes
    | _ => f.boxes
  { f with persistents := (name, p) :: f.persistents, boxes }

end Frame

/-! ## What steps come to -/

inductive Place where
  | object (number : Nat)
  | value (name : String)
  /-- The place of all values of size zero. -/
  | zeroSized
  deriving DecidableEq, Repr

def Place.text : Place → String
  | .object number => toString number
  | .value name => "value " ++ name
  | .zeroSized => "zero-sized"

def Frame.place (f : Frame) : Address → Place
  | .object number => .object number
  | .box number => .value ((f.boxes.lookup number).getD "?")
  | .dangling _ => .zeroSized

structure SeenRoots where
  locals : List (DescriptorRef × Place)
  objects : List (DescriptorRef × Place)
  /-- The persistent roots that are values, by the text of their place. -/
  values : List (DescriptorRef × Place)

/-- The roots that a visitor was shown, of which so many were local ones. -/
def Frame.sortOut (f : Frame) (locals : Nat) (seen : List (DescriptorRef × Address)) :
    SeenRoots :=
  let placed := seen.map fun (descriptor, data) => (descriptor, f.place data)
  let isObject : DescriptorRef × Place → Bool
    | (_, .object _) => true
    | _ => false
  let (objects, values) := (placed.drop locals).partition isObject
  ⟨placed.take locals, objects, values.mergeSort fun a b => a.2.text ≤ b.2.text⟩

/-- The answer to a step, with the numbers of roots after it. -/
inductive Told (ρ : Type) where
  | answered (answer : Answer ρ) (locals persistents : Nat)
  /-- The step gave up. -/
  | failing

structure Transcript (ρ : Type) where
  steps : List (Told ρ)
  cleanup : List (String × Answer Unit)
  ending : Answer Unit

inductive Reply where
  | nothing
  | truth (value : Bool)
  | number (value : Nat)
  | text (value : String)
  | value (value : NativeValue)
  | pointer (target : Pointer)
  | place (place : Place)
  | opened (height : Nat)
  | updated
  /-- A fault that is no more than a result. -/
  | refused (fault : Fault)
  | inScope (body : List (Told Reply)) (result : Except Fault Nat)
  | visited (seen : SeenRoots)
  | visitedDuring (seen : SeenRoots) (during : List (Told Reply))
  | transcribed (transcript : Transcript Reply)

/-! ## The state of a script -/

structure Scripting where
  frame : Frame
  answers : List (Told Reply)
  cleanup : List (String × Answer Unit)
  seen : List (DescriptorRef × Address)
  /-- Every step made sense whose answer is not lost. -/
  sensible : Bool

namespace Scripting

def initial : Scripting := ⟨.empty, [], [], [], true⟩

end Scripting

abbrev ScriptAct := Act Simulated DescriptorRef Scripting

def frame : ScriptAct Frame := do return (← get).client.frame

def keep (f : Scripting → Scripting) : ScriptAct Unit :=
  modify fun w => { w with client := f w.client }

def reframe (f : Frame → Frame) : ScriptAct Unit :=
  keep fun c => { c with frame := f c.frame }

/-- What comes of a step that makes no sense. -/
def nonsense : ScriptAct Reply := do
  keep fun c => { c with sensible := false }
  return .nothing

def named {α : Type} (find : Frame → Option α) (act : α → ScriptAct Reply) : ScriptAct Reply := do
  match find (← frame) with
  | some a => act a
  | none => nonsense

/-- Runs code and tells its events and lines apart from those around it. -/
def reporting {α : Type} (act : ScriptAct α) : ScriptAct (Answer α) := do
  let outer ← get
  -- what was reported before is put aside, and put back afterwards
  set { outer with log := [], collector := { outer.collector with events := [] } }
  let outcome ← Act.attempt act
  let w ← get
  set { w with
    log := outer.log, collector := { w.collector with events := outer.collector.events } }
  return ⟨outcome, w.collector.events, w.log⟩

/-- Runs code and tells the answers to its steps apart from those before. -/
def collecting {α : Type} (act : ScriptAct α) : ScriptAct (Except Fault α × List (Told Reply)) := do
  let outer := (← get).client.answers
  keep fun c => { c with answers := [] }
  let outcome ← Act.attempt act
  let inner := (← get).client.answers
  keep fun c => { c with answers := outer }
  return (outcome, inner)

end Script

end TracedHeap

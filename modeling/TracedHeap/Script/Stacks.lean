import TracedHeap.Roots.ShadowStack
import TracedHeap.Script.Answer

/-! # Scripts over shadow stacks

Two shadow stacks, and marks that may be tried on either of them.
-/

namespace TracedHeap

namespace Script

abbrev TextStack := ShadowStack String Int

inductive StackAct where
  | push (descriptor : String) (data : Int)
  | mark (name : String)
  | popTo (name : String)
  | accepts (name : String)
  | height (name : String)
  | same (a b : String)
  | clear
  | isEmpty
  | iter
  deriving DecidableEq, Repr

structure StackStep where
  /-- Whether the step is about the second stack. -/
  second : Bool
  act : StackAct
  deriving DecidableEq, Repr

inductive StackFinding where
  | nothing
  | mark (mark : StackMark)
  | truth (value : Bool)
  | number (value : Nat)
  | roots (roots : List (String × Int))
  deriving DecidableEq, Repr

structure StackState where
  first : TextStack
  second : TextStack
  /-- The marks, the latest first. -/
  marks : List (String × StackMark)
  deriving DecidableEq, Repr

namespace StackState

def initial : StackState := ⟨.empty, .empty, []⟩

def stack (s : StackState) (second : Bool) : TextStack := if second then s.second else s.first

def setStack (s : StackState) (second : Bool) (stack : TextStack) : StackState :=
  if second then { s with second := stack } else { s with first := stack }

end StackState

/-- The answer to a step that changes something. -/
def changed {α ρ : Type} (outcome : Except Fault α) (nothing : ρ) (lines : List LogLine) :
    Answer ρ :=
  match outcome with
  | .ok _ => ⟨.ok nothing, [], lines⟩
  | .error fault => ⟨.error fault, [], fault.lines⟩

/-- The answer to a step that changes nothing. -/
def told {ρ : Type} (finding : ρ) : Answer ρ := ⟨.ok finding, [], []⟩

def StackAct.run (stack : TextStack) (marks : List (String × StackMark)) :
    StackAct → Option (Answer StackFinding × TextStack × List (String × StackMark))
  | .push descriptor data =>
    let outcome := stack.push descriptor data
    some (changed outcome .nothing [], outcome.toOption.getD stack, marks)
  -- the marks of both stacks are kept together
  | .mark name =>
    some (told (.mark stack.mark), stack, (name, stack.mark) :: marks)
  | .popTo name => do
    let m ← marks.lookup name
    let outcome := stack.popTo m
    some (changed outcome .nothing [stack.popLine m], outcome.toOption.getD stack, marks)
  | .accepts name => do
    let m ← marks.lookup name
    some (told (.truth (stack.accepts m)), stack, marks)
  | .height name => do
    let m ← marks.lookup name
    some (told (.number m.height), stack, marks)
  | .same a b => do
    let x ← marks.lookup a
    let y ← marks.lookup b
    some (told (.truth (x = y)), stack, marks)
  | .clear => some (told .nothing, stack.clear, marks)
  | .isEmpty => some (told (.truth stack.entries.isEmpty), stack, marks)
  | .iter => some (told (.roots stack.roots), stack, marks)

/-- Carries out a step.  Its answer comes with the height of its stack. -/
def StackStep.run (s : StackState) (step : StackStep) :
    Option ((Answer StackFinding × Nat) × StackState) := do
  let (answer, stack, marks) ← step.act.run (s.stack step.second) s.marks
  let s := { s.setStack step.second stack with marks }
  some ((answer, stack.height), s)

def runStacks (steps : List StackStep) : Option (List (Answer StackFinding × Nat)) :=
  runAll StackStep.run steps .initial

end Script

end TracedHeap

import TracedHeap.Roots.BorrowCell
import TracedHeap.Script.Stacks

/-! # Scripts over a borrow cell

A borrow cell with a list of numbers, and guards that are held by name.
-/

namespace TracedHeap

namespace Script

inductive CellStep where
  | share (name : String)
  | seize (name : String)
  | release (name : String)
  | read (name : String)
  | push (name : String) (value : Int)
  /-- Adds a number at the front while nobody else can look. -/
  | getMut (value : Int)
  /-- Takes the list out, and starts over. -/
  | intoInner
  deriving DecidableEq, Repr

inductive CellFinding where
  | nothing
  | numbers (values : List Int)
  deriving DecidableEq, Repr

structure CellState where
  cell : BorrowCell (List Int)
  guards : List String
  deriving DecidableEq, Repr

namespace CellState

/-- Keeps a guard that was handed out under a name. -/
def hold (s : CellState) (name : String) (handedOut : Except Fault (BorrowCell (List Int))) :
    Answer CellFinding × CellState :=
  match handedOut with
  | .error fault => (⟨.error fault, [], fault.lines⟩, s)
  | .ok cell =>
    -- a guard of that name is given back, but only after the new one was handed out
    if s.guards.contains name then (told .nothing, { s with cell := cell.release })
    else (told .nothing, ⟨cell, name :: s.guards⟩)

end CellState

/-- Carries out a step.  `start` is the list that a fresh cell contains. -/
def CellStep.run (start : List Int) (s : CellState) :
    CellStep → Option (Answer CellFinding × CellState)
  | .share name => some (s.hold name s.cell.share)
  | .seize name => some (s.hold name s.cell.seize)
  | .release name =>
    if s.guards.contains name then
      some (told .nothing, ⟨s.cell.release, s.guards.erase name⟩)
    else
      some (told .nothing, s)
  | .read name =>
    if s.guards.contains name then some (told (.numbers s.cell.value), s) else none
  | .push name value =>
    if s.guards.contains name && s.cell.borrow == .unique then
      some (told .nothing, { s with cell := s.cell.write (s.cell.value ++ [value]) })
    else
      none
  -- no guard can be alive then, so the borrow is not looked at
  | .getMut value =>
    let cell := s.cell.write (value :: s.cell.value)
    some (told (.numbers cell.value), { s with cell })
  | .intoInner => some (told (.numbers s.cell.intoInner), ⟨.new start, []⟩)

def runCell (start : List Int) (steps : List CellStep) : Option (List (Answer CellFinding)) :=
  runAll (CellStep.run start) steps ⟨.new start, []⟩

end Script

end TracedHeap

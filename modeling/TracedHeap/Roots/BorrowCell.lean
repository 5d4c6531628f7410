import TracedHeap.Fault

/-! # Borrow cells

A value that is lent out at run-time: to any number of readers, or to one writer.

* `Borrow`: who holds the value.
* `BorrowCell`: the value and who holds it.
* `BorrowCell.inspect`, `BorrowCell.mutate`: borrows that end at once.
-/

namespace TracedHeap

/-- The guards of a borrow cell that are alive. -/
inductive Borrow where
  | idle
  /-- One shared guard, and some more of them. -/
  | shared (more : Nat)
  | unique
  deriving DecidableEq, Repr

namespace Borrow

def share : Borrow → Except Fault Borrow
  | .idle => .ok (.shared 0)
  | .shared more => .ok (.shared (more + 1))
  | .unique => .error .alreadyMutablyBorrowed

def seize : Borrow → Except Fault Borrow
  | .idle => .ok .unique
  | .shared _ | .unique => .error .alreadyBorrowed

def release : Borrow → Borrow
  | .shared (more + 1) => .shared more
  | .idle | .shared 0 | .unique => .idle

end Borrow

structure BorrowCell (α : Type) where
  value : α
  borrow : Borrow
  deriving DecidableEq, Repr

namespace BorrowCell

variable {α β : Type}

def new (value : α) : BorrowCell α := ⟨value, .idle⟩

def share (c : BorrowCell α) : Except Fault (BorrowCell α) := do
  return { c with borrow := ← c.borrow.share }

def seize (c : BorrowCell α) : Except Fault (BorrowCell α) := do
  return { c with borrow := ← c.borrow.seize }

def release (c : BorrowCell α) : BorrowCell α := { c with borrow := c.borrow.release }

def write (c : BorrowCell α) (value : α) : BorrowCell α := { c with value }

/-- Takes the value out of a cell, which is gone then. -/
def intoInner (c : BorrowCell α) : α := c.value

/-- Looks at the value through a shared guard, which is given back at once. -/
def inspect (c : BorrowCell α) (f : α → β) : Except Fault β := do
  let c ← c.share
  return f c.value

/-- Changes the value through a unique guard, which is given back at once, also
if the change fails and leaves the value as it was. -/
def mutate (c : BorrowCell α) (f : α → Except Fault α) : Except Fault (BorrowCell α) := do
  let c ← c.seize
  let value ← f c.value
  return (c.write value).release

end BorrowCell

end TracedHeap

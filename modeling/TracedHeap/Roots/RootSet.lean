import TracedHeap.Address
import TracedHeap.Roots.BorrowCell
import TracedHeap.Roots.Pool
import TracedHeap.Roots.ShadowStack

/-! # Root sets

The roots of one thread of native code: its shadow stack and its pool of
persistent roots.  Both are borrowed for the time of each operation, so that an
operation is refused while the collector looks at what it would change.

* `RootSet.push`, `RootSet.popTo`, `RootSet.register`, `RootSet.unregister`: changes.
  Each either fails and leaves the root set as it was, or has the changed root set
  as its result.
* `RootSet.checkEmpty`: what is demanded of a root set in the end.
-/

namespace TracedHeap

/-- The roots of one thread. -/
structure RootSet (D : Type) where
  locals : BorrowCell (ShadowStack D Address)
  persistents : BorrowCell (Pool D Address)
  deriving DecidableEq, Repr

namespace RootSet

variable {D : Type}

def empty : RootSet D := ⟨.new .empty, .new .empty⟩

/-! ## Counting -/

def height (r : RootSet D) : Except Fault Nat := r.locals.inspect (·.height)

def poolSize (r : RootSet D) : Except Fault Nat := r.persistents.inspect (·.size)

def refcount (r : RootSet D) (data : Address) : Except Fault Nat :=
  r.persistents.inspect (·.refcount data)

/-! ## Changes -/

def mark (r : RootSet D) : Except Fault StackMark := r.locals.inspect (·.mark)

def push (r : RootSet D) (descriptor : D) (data : Address) : Except Fault (RootSet D) := do
  return { r with locals := ← r.locals.mutate (·.push descriptor data) }

def popTo (r : RootSet D) (m : StackMark) : Except Fault (RootSet D) := do
  return { r with locals := ← r.locals.mutate (·.popTo m) }

def register [BEq D] (r : RootSet D) (data : Address) (descriptor : D) :
    Except Fault (RootSet D) := do
  return { r with persistents := ← r.persistents.mutate (·.add data descriptor) }

def unregister (r : RootSet D) (data : Address) : Except Fault (RootSet D) := do
  return { r with persistents := ← r.persistents.mutate (·.remove data) }

/-! ## Looking at the roots -/

def shareLocals (r : RootSet D) : Except Fault (RootSet D) := do
  return { r with locals := ← r.locals.share }

def sharePersistents (r : RootSet D) : Except Fault (RootSet D) := do
  return { r with persistents := ← r.persistents.share }

def releaseLocals (r : RootSet D) : RootSet D := { r with locals := r.locals.release }

def releasePersistents (r : RootSet D) : RootSet D :=
  { r with persistents := r.persistents.release }

/-- Fails if roots are left when their thread has done its work. -/
def checkEmpty (r : RootSet D) : Except Fault Unit := do
  if (← r.height) ≠ 0 then
    throw (.failed .localsOutlived)
  if (← r.poolSize) ≠ 0 then
    throw (.failed .persistentsOutlived)

end RootSet

end TracedHeap

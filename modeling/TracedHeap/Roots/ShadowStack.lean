import TracedHeap.Layout
import TracedHeap.LogLine

/-! # The shadow stack

The roots that native code holds in its scopes.  Roots are pushed
one by one and popped in bulk, back to a mark that was taken earlier.

Each entry carries a stamp that is never used again, and a mark remembers the
stamp just below it.  So a mark is refused not only when the stack has
shrunk below it, but also when it has grown back since with other entries.

* `StackMark`, `ShadowStack`: marks and stacks.
* `ShadowStack.push`, `ShadowStack.mark`, `ShadowStack.popTo`, `ShadowStack.clear`: the
  operations.
* `ShadowStack.accepts`: whether the stack can be popped back to a mark.
-/

namespace TracedHeap

structure StackMark where
  height : Nat
  /-- Stamp of the entry just below the height, or zero at the bottom. -/
  stamp : Nat
  deriving DecidableEq, Repr

def StackMark.debug (m : StackMark) : String :=
  "StackRef \x7b height: " ++ toString m.height ++ ", stamp: " ++ toString m.stamp ++ " \x7d"

structure StackEntry (D P : Type) where
  descriptor : D
  data : P
  stamp : Nat
  deriving DecidableEq, Repr

structure ShadowStack (D P : Type) where
  /-- The entries, from the bottom to the top. -/
  entries : List (StackEntry D P)
  /-- The stamp of the next entry.  Zero is never one. -/
  nextStamp : Nat
  deriving DecidableEq, Repr

namespace ShadowStack

variable {D P : Type}

def empty : ShadowStack D P := ⟨[], 1⟩

def height (s : ShadowStack D P) : Nat := s.entries.length

def roots (s : ShadowStack D P) : List (D × P) := s.entries.map fun e => (e.descriptor, e.data)

def mark (s : ShadowStack D P) : StackMark :=
  ⟨s.height, (s.entries.getLast?.map (·.stamp)).getD 0⟩

/-- Pushes a root.  This fails when the stamps have run out. -/
def push (s : ShadowStack D P) (descriptor : D) (data : P) : Except Fault (ShadowStack D P) := do
  let nextStamp ← Word.add s.nextStamp 1
  return ⟨s.entries ++ [⟨descriptor, data, s.nextStamp⟩], nextStamp⟩

/-- Whether the stack can be popped back to a mark: no entry at or below it has been
popped since it was taken. -/
def accepts (s : ShadowStack D P) (m : StackMark) : Bool :=
  match m.height with
  | 0 => true
  -- the entry just below the mark must be the one that was there when it was taken
  | below + 1 =>
    match s.entries[below]? with
    | some entry => entry.stamp == m.stamp
    | none => false

def popTo (s : ShadowStack D P) (m : StackMark) : Except Fault (ShadowStack D P) :=
  if s.height < m.height then
    .error (.failed (.popAboveTop m.height s.height))
  else if s.accepts m then
    .ok { s with entries := s.entries.take m.height }
  else
    .error (.failed .staleMark)

def popLine (s : ShadowStack D P) (m : StackMark) : LogLine := .poppingLocals s.height m.height

def clear (s : ShadowStack D P) : ShadowStack D P := { s with entries := [] }

end ShadowStack

end TracedHeap

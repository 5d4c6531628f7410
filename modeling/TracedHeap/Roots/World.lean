import TracedHeap.Roots.RootSet

/-! # Native code at work

Native code works on a root set, a collector, and whatever state of its own it
has.  It may fail at any point, which leaves the world as it was just then.

* `World`: what native code works on.
* `Act`: a piece of native code.
* `Act.attempt`, `Act.ensuring`: surviving a fault, and work that is done even
  then.
* `Act.visit`: what the collector does with the roots.
* `Act.withRootSet`: the whole life of a root set.
-/

namespace TracedHeap

/-- What native code works on: a root set, a collector of state `σ`, and state `ω`
of its own. -/
structure World (σ D ω : Type) where
  roots : RootSet D
  collector : σ
  /-- Number of boxes that were ever allocated. -/
  boxes : Nat
  log : List LogLine
  client : ω

abbrev Act (σ D ω α : Type) := ExceptT Fault (StateM (World σ D ω)) α

namespace Act

variable {σ D ω α : Type}

/-! ## Faults -/

def write (lines : List LogLine) : Act σ D ω Unit :=
  modify fun w => { w with log := w.log ++ lines }

def raise (fault : Fault) : Act σ D ω α := do
  write fault.lines
  throw fault

def demand : Except Fault α → Act σ D ω α
  | .ok a => pure a
  | .error fault => raise fault

/-- Turns a fault into a result. -/
def attempt (act : Act σ D ω α) : Act σ D ω (Except Fault α) :=
  ExceptT.lift act.run

/-- Does some work after a piece of code, even if that failed. -/
def ensuring (act : Act σ D ω α) (work : Act σ D ω Unit) : Act σ D ω α := do
  let outcome ← attempt act
  -- a fault of the work takes the place of one of the code
  work
  match outcome with
  | .ok a => pure a
  | .error fault => throw fault

/-! ## The parts of the world -/

def ask (question : RootSet D → Except Fault α) : Act σ D ω α := do
  demand (question (← get).roots)

def change (act : RootSet D → Except Fault (RootSet D)) : Act σ D ω Unit := do
  let roots ← ask act
  modify fun w => { w with roots }

def onCollector (act : σ → α × σ) : Act σ D ω α := do
  let w ← get
  let done := act w.collector
  set { w with collector := done.2 }
  return done.1

/-- The number of a box that was never handed out. -/
def freshBox : Act σ D ω Nat := do
  let w ← get
  set { w with boxes := w.boxes + 1 }
  return w.boxes

/-! ## Changes of the root set -/

def push (descriptor : D) (data : Address) : Act σ D ω Unit :=
  change (·.push descriptor data)

def popTo (m : StackMark) : Act σ D ω Unit := do
  -- the line tells the height from before
  let line := (← get).roots.locals.value.popLine m
  change (·.popTo m)
  write [line]

def register [BEq D] (data : Address) (descriptor : D) : Act σ D ω Unit := do
  let line := (← get).roots.persistents.value.addLine data
  change (·.register data descriptor)
  write [line]

def unregister (data : Address) : Act σ D ω Unit := do
  let lines := (← get).roots.persistents.value.removeLines data
  change (·.unregister data)
  write lines

/-! ## Visits and root sets -/

def visitAll (visitor : D → Address → Act σ D ω Unit) : List (D × Address) → Act σ D ω Unit
  | [] => pure ()
  | (descriptor, data) :: rest => do
    visitor descriptor data
    visitAll visitor rest

/-- Calls a function with every root: first those on the shadow stack, from the bottom to the top,
then the persistent ones in ascending order. -/
def visit (visitor : D → Address → Act σ D ω Unit) : Act σ D ω Unit := do
  -- either part of the root set is lent out while its roots are visited
  change (·.shareLocals)
  let locals := (← get).roots.locals.value.roots
  ensuring (visitAll visitor locals) (change fun r => .ok r.releaseLocals)
  change (·.sharePersistents)
  let persistents := (← get).roots.persistents.value.roots
  ensuring (visitAll visitor persistents) (change fun r => .ok r.releasePersistents)

/-- Runs code with a root set of its own, which must be empty in the end.
Afterwards the root set of before is back. -/
def withRootSet (act : Act σ D ω α) : Act σ D ω α := do
  let outer := (← get).roots
  modify fun w => { w with roots := .empty }
  ensuring
    (do
      let result ← act
      ask (·.checkEmpty)
      return result)
    (change fun _ => .ok outer)

end Act

end TracedHeap

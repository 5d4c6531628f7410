import TracedHeap.Handle.Basic
import TracedHeap.Roots.World

/-! # Root scopes

A scope records the height of the shadow stack when it is opened, and pops the
stack back to it when it is closed.  The roots in between are those of the scope.

* `TypeInfo`: what must be known of the type of a root.
* `Scope.opened`, `Scope.close`, `Scope.within`: the extent of a scope.
* `Scope.newStrong`, `Scope.retarget`, `Scope.root`: local roots.
-/

namespace TracedHeap

structure TypeInfo (D : Type) where
  /-- The descriptor of the type, or why it cannot be had. -/
  descriptor : Except Fault D
  hasArray : Bool
  layout : Layout

/-- A region of native code that holds local roots. -/
structure Scope where
  mark : StackMark
  deriving DecidableEq, Repr

namespace Scope

variable {σ D ω α : Type}

/-! ## The extent of a scope -/

def opened : Act σ D ω Scope := do
  return ⟨← Act.ask (·.mark)⟩

def close (s : Scope) : Act σ D ω Unit := Act.popTo s.mark

/-- Runs code in a scope, which is closed on every way out. -/
def within (body : Scope → Act σ D ω α) : Act σ D ω α := do
  let s ← opened
  Act.ensuring (body s) s.close

/-! ## Local roots -/

/-- Roots a target of a given type, unless it is null. -/
def rootTarget (type : TypeInfo D) : Pointer → Act σ D ω Unit
  | none => pure ()
  | some data => do
    let descriptor ← Act.demand type.descriptor
    Act.push descriptor data

def newStrong (hooks : Hooks σ) (_ : Scope) (type : TypeInfo D) (target : Pointer) :
    Act σ D ω RefHandle := do
  let h ← Act.onCollector (RefHandle.new hooks .strong target)
  rootTarget type target
  return h

def newWeak (hooks : Hooks σ) (_ : Scope) (target : Pointer) : Act σ D ω RefHandle :=
  Act.onCollector (RefHandle.new hooks .weak target)

/-- Creates a local value.  It moves with the code that holds it, so that it is not rooted. -/
def newValue {V : Type} (_ : Scope) (value : V) : Act σ D ω (ValueHandle V) :=
  return ⟨value⟩

/-- Points a strong local to a new target and roots that target. -/
def retarget (hooks : Hooks σ) (_ : Scope) (h : RefHandle) (type : TypeInfo D)
    (target : Pointer) : Act σ D ω (RefHandle × Except Fault Unit) := do
  let h ← Act.onCollector (h.set hooks target)
  -- what was given is rooted, whatever the write hook has stored; and if that cannot be rooted, the
  -- local comes back all the same
  let outcome ← Act.attempt (rootTarget type target)
  return (h, outcome)

def root (_ : Scope) (descriptor : D) (data : Address) : Act σ D ω Unit :=
  Act.push descriptor data

end Scope

end TracedHeap

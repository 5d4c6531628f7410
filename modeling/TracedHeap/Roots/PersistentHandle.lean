import TracedHeap.Roots.Scope

/-! # Persistent handles

Handles that stay rooted for as long as they exist, outside of any scope.  A
strong one roots its target, a value roots the box that it lies in, and a weak one
roots nothing.  What a handle is registered as is kept with it, so that exactly
that is unregistered again.

* `PersistentHandle`: the handle in its box.
* `PersistentHandle.new`, `PersistentHandle.clone`, `PersistentHandle.update`,
  `PersistentHandle.drop`: the operations.
* `PersistentHandle.identity`: what a handle is to be registered as.
-/

namespace TracedHeap

structure PersistentHandle (D V : Type) where
  type : TypeInfo D
  handle : Handle V
  box : Address
  /-- What the handle is registered as, if anything. -/
  registered : Pointer

namespace PersistentHandle

variable {σ D V ω α : Type}

/-- What a handle is to be registered as, from what it stores now. -/
def identity (p : PersistentHandle D V) : Pointer :=
  match p.handle with
  | .value _ => some p.box
  | .reference ⟨.strong, stored⟩ => stored
  | .reference ⟨.weak, _⟩ => none

/-- The address of the next box for a value: boxes of size zero need no memory. -/
def boxAddress (layout : Layout) : Act σ D ω Address :=
  if layout.size = 0 then
    pure (.dangling layout.align)
  else do
    return .box (← Act.freshBox)

/-- Registers what a handle stores now.  The result is what it is registered as. -/
def register [BEq D] (p : PersistentHandle D V) : Act σ D ω Pointer := do
  match p.identity with
  | none => return none
  | some data =>
    let descriptor ← Act.demand p.type.descriptor
    if p.handle.discipline = .value ∧ p.type.hasArray then
      Act.raise (.failed .arrayRootByValue)
    Act.register data descriptor
    return some data

def unregister (p : PersistentHandle D V) : Act σ D ω Unit :=
  match p.registered with
  | some data => Act.unregister data
  | none => pure ()

/-- Moves a handle into a box and registers it.  If that is refused there is no
such handle, and nothing to unregister. -/
def new [BEq D] (type : TypeInfo D) (handle : Handle V) : Act σ D ω (PersistentHandle D V) := do
  let box ← boxAddress type.layout
  let p : PersistentHandle D V := ⟨type, handle, box, none⟩
  let registered ← p.register
  return { p with registered }

def clone [BEq D] (hooks : Hooks σ) (p : PersistentHandle D V) :
    Act σ D ω (PersistentHandle D V) := do
  match p.handle with
  | .value h => new p.type (.value h)
  | .reference h => do
    let copy ← Act.onCollector (h.clone hooks)
    new p.type (.reference copy)

def drop (p : PersistentHandle D V) : Act σ D ω Unit := p.unregister

/-- Code that changes a handle.  It may fail halfway. -/
abbrev Change (σ V : Type) := Handle V → σ → Except Fault Unit × Handle V × σ

/-- Changes a handle and registers it anew.  The handle comes back as the steps up to a fault have
left it. -/
def update [BEq D] (p : PersistentHandle D V) (change : Change σ V) :
    Act σ D ω (PersistentHandle D V × Except Fault Unit) := do
  let (outcome, handle) ← Act.onCollector fun s =>
    let (outcome, handle, s) := change p.handle s
    ((outcome, handle), s)
  let changed := { p with handle }
  match outcome with
  -- changed, but registered as before
  | .error fault => return (changed, .error fault)
  | .ok () =>
    -- the new registration comes before the old one goes, so that a target that stays the same is
    -- never unrooted in between
    match ← Act.attempt changed.register with
    -- the old registration is forgotten by now, though not undone
    | .error fault => return ({ changed with registered := none }, .error fault)
    | .ok registered =>
      let removed ← Act.attempt p.unregister
      return ({ changed with registered }, removed)

def read (hooks : Hooks σ) (p : PersistentHandle D V) (h : RefHandle) :
    Act σ D ω (Pointer × PersistentHandle D V) := do
  let (target, h) ← Act.onCollector fun s =>
    let (target, h, s) := h.get hooks s
    ((target, h), s)
  return (target, { p with handle := .reference h })

def registeredText : Pointer → String
  | none => "None"
  | some a => "Some(" ++ Pointer.debugText (some a) ++ ")"

def debug (showValue : V → String) (p : PersistentHandle D V) : String :=
  "Persistent \x7b handle: " ++ p.handle.debug showValue ++
    ", registered: " ++ registeredText p.registered ++ " \x7d"

def debugLines (showValue : V → String) (p : PersistentHandle D V) : String :=
  let registered :=
    match p.registered with
    | none => "None"
    | some a => "Some(\n    " ++ Pointer.debugText (some a) ++ ",\n)"
  "Persistent \x7b\n    handle: " ++ Handle.indented (p.handle.debugLines showValue) ++
    ",\n    registered: " ++ Handle.indented registered ++ ",\n\x7d"

end PersistentHandle

end TracedHeap

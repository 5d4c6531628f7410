import TracedHeap.Handle.Interception

/-! # Handles

A handle stores its target in place, or a pointer to it.  Pointers are read and
written through the hooks; everything else is done behind their back.

* `RefHandle`: a strong or weak reference, with `get`, `set`, `assign`, `clone`.
* `ValueHandle`: a value in place.
* `Handle`: either, with what all disciplines have in common.

An operation takes the state of the hooks and returns it changed.  What a value does
itself, when it is copied or dropped, is code on that state too.
-/

namespace TracedHeap

inductive Strength where
  | strong
  | weak
  deriving DecidableEq, Repr

def Strength.discipline : Strength → Discipline
  | .strong => .strong
  | .weak => .weak

/-- A handle that stores a pointer. -/
structure RefHandle where
  strength : Strength
  stored : Pointer
  deriving DecidableEq, Repr

namespace RefHandle

variable {σ : Type}

/-- A new reference.  The pointer is stored as it is, past the write hook. -/
def new (hooks : Hooks σ) (strength : Strength) (target : Pointer) (s : σ) : RefHandle × σ :=
  (⟨strength, target⟩, hooks.created strength.discipline s)

def null (hooks : Hooks σ) (strength : Strength) (s : σ) : RefHandle × σ :=
  new hooks strength none s

/-- Reads the target.  The read hook may rewrite what is stored. -/
def get (hooks : Hooks σ) (h : RefHandle) (s : σ) : Pointer × RefHandle × σ :=
  let (reading, s) := hooks.read h.stored s
  (reading.seen, { h with stored := reading.left }, s)

/-- Points the reference to a target.  The write hook may store another one. -/
def set (hooks : Hooks σ) (h : RefHandle) (target : Pointer) (s : σ) : RefHandle × σ :=
  let (stored, s) := hooks.write target h.stored s
  ({ h with stored }, s)

/-- Points the reference to what another one stores, which is not read. -/
def assign (hooks : Hooks σ) (h other : RefHandle) (s : σ) : RefHandle × σ :=
  h.set hooks other.stored s

/-- A new reference that stores the same pointer, which is not read. -/
def clone (hooks : Hooks σ) (h : RefHandle) (s : σ) : RefHandle × σ :=
  new hooks h.strength h.stored s

def isNull (hooks : Hooks σ) (h : RefHandle) (s : σ) : Bool × RefHandle × σ :=
  let (target, h, s) := h.get hooks s
  (target.isNone, h, s)

def isAlive (hooks : Hooks σ) (h : RefHandle) (s : σ) : Bool × RefHandle × σ :=
  let (target, h, s) := h.get hooks s
  (target.isSome, h, s)

def asRef {α : Type} (hooks : Hooks σ) (behind : Pointer → Option α) (h : RefHandle) (s : σ) :
    Option α × RefHandle × σ :=
  let (target, h, s) := h.get hooks s
  (behind target, h, s)

/-- Stores a pointer past the hooks. -/
def setSlot (h : RefHandle) (target : Pointer) : RefHandle := { h with stored := target }

end RefHandle

/-- A handle that stores its target in place, and goes through no barrier. -/
structure ValueHandle (V : Type) where
  value : V
  deriving DecidableEq, Repr

namespace ValueHandle

variable {V σ : Type}

/-- Replaces the value, and drops the one that was there. -/
def set (dropValue : V → σ → σ) (h : ValueHandle V) (value : V) (s : σ) : ValueHandle V × σ :=
  (⟨value⟩, dropValue h.value s)

def assign (copyOnto : (value other : V) → σ → V × σ) (h other : ValueHandle V) (s : σ) :
    ValueHandle V × σ :=
  let (value, s) := copyOnto h.value other.value s
  (⟨value⟩, s)

def intoInner (hooks : Hooks σ) (h : ValueHandle V) (s : σ) : V × σ :=
  (h.value, hooks.destroyed .value s)

end ValueHandle

inductive Handle (V : Type) where
  | value (handle : ValueHandle V)
  | reference (handle : RefHandle)
  deriving DecidableEq, Repr

namespace Handle

variable {V σ : Type}

def discipline : Handle V → Discipline
  | .value _ => .value
  | .reference h => h.strength.discipline

def announce (hooks : Hooks σ) (h : Handle V) (s : σ) : σ := hooks.created h.discipline s

def destroy (hooks : Hooks σ) (h : Handle V) (s : σ) : σ := hooks.destroyed h.discipline s

def fromRepr (hooks : Hooks σ) (content : Handle V) (s : σ) : Handle V × σ :=
  (content, content.announce hooks s)

def default (hooks : Hooks σ) (makeValue : σ → V × σ) : Discipline → σ → Handle V × σ
  -- the value is made before its handle
  | .value, s =>
    let (made, s) := makeValue s
    fromRepr hooks (.value ⟨made⟩) s
  | .strong, s =>
    let (h, s) := RefHandle.null hooks .strong s
    (.reference h, s)
  | .weak, s =>
    let (h, s) := RefHandle.null hooks .weak s
    (.reference h, s)

def clone (hooks : Hooks σ) (copyValue : V → σ → V × σ) : Handle V → σ → Handle V × σ
  -- the value is copied before the handle of the copy is made
  | .value h, s =>
    let (copy, s) := copyValue h.value s
    fromRepr hooks (.value ⟨copy⟩) s
  | .reference h, s =>
    let (copy, s) := h.clone hooks s
    (.reference copy, s)

def assign (hooks : Hooks σ) (copyOnto : (value other : V) → σ → V × σ) :
    (target source : Handle V) → σ → Option (Handle V × σ)
  | .value target, .value source, s =>
    let (target, s) := target.assign copyOnto source s
    some (.value target, s)
  | .reference target, .reference source, s =>
    -- strong and weak references are handles of two types
    if target.strength = source.strength then
      let (target, s) := target.assign hooks source s
      some (.reference target, s)
    else none
  | _, _, _ => none

/-- Destroys a handle, and then drops its value. -/
def drop (hooks : Hooks σ) (dropValue : V → σ → σ) (h : Handle V) (s : σ) : σ :=
  let s := h.destroy hooks s
  match h with
  | .value h => dropValue h.value s
  | .reference _ => s

def storedText (showValue : V → String) : Handle V → String
  | .value h => showValue h.value
  | .reference h => h.stored.debugText

def debug (showValue : V → String) (h : Handle V) : String :=
  "Handle(" ++ h.storedText showValue ++ ")"

/-- A text whose lines, after the first, are indented by one level. -/
def indented (text : String) : String := text.replace "\n" "\n    "

def debugLines (showValue : V → String) (h : Handle V) : String :=
  "Handle(\n    " ++ indented (h.storedText showValue) ++ ",\n)"

end Handle

end TracedHeap

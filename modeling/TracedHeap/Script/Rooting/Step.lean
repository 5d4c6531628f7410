import TracedHeap.Handle.Simulated
import TracedHeap.Native.Startup

/-! # Steps over root sets

What scripts over root sets are made of.  Scopes, locals and persistent handles go
by names; the latest of a name is meant.

* `NativeValue`: the values that are stored in place.
* `LocalAct`, `PersistentAct`: what can be done with one handle.
* `PlainStep`: steps without steps of their own.
* `RootingStep`: all steps.
-/

namespace TracedHeap

namespace Script

/-! ## Values -/

/-- A value of a native type, as far as values are told apart. -/
inductive NativeValue where
  | half (value : UInt32)
  /-- A number of 64 bits, by itself or as what tells a node or a chunk apart. -/
  | word (value : UInt64)
  | unit
  | unit2
  deriving DecidableEq, Repr

namespace NativeValue

/-- The value of a type that a number stands for.  Only a type with a single value needs none. -/
def ofNumber? (n : Option Nat) : NativeType → Option NativeValue
  | .unit => some .unit
  | .unit2 => some .unit2
  -- numbers that are too large wrap around
  | .u32 => n.map fun n => .half (.ofNat n)
  | _ => n.map fun n => .word (.ofNat n)

def withNumber? (n : Option Nat) : NativeValue → Option NativeValue
  | .half _ => n.map fun n => .half (.ofNat n)
  | .word _ => n.map fun n => .word (.ofNat n)
  | .unit => some .unit
  | .unit2 => some .unit2

def shown : NativeValue → String
  | .half value => toString value
  | .word value => toString value
  | .unit => "()"
  | .unit2 => "Unit2"

end NativeValue

/-! ## What can be done with one handle -/

inductive LocalAct where
  /-- Points it to a target and roots that, in a scope. -/
  | retarget (scope : String) (target : Pointer)
  | set (target : Pointer) (n : Option Nat)
  | get
  | isAlive
  deriving DecidableEq, Repr

inductive Alteration where
  | set (target : Pointer) (n : Option Nat)
  /-- Puts a new reference or value in its place. -/
  | replace (target : Pointer) (n : Option Nat)
  | setSlot (target : Pointer)
  | read
  | nothing
  deriving DecidableEq, Repr

inductive PersistentAct where
  /-- Alters it and registers it anew, unless the code that alters it then fails. -/
  | update (alteration : Alteration) (fails : Bool)
  | get
  /-- Stores a pointer past the hooks, without an update. -/
  | setSlot (target : Pointer)
  | isAlive
  | debug
  | debugLines
  | selfRooted
  deriving DecidableEq, Repr

/-! ## Steps -/

inductive PlainStep where
  | openScope (name : String)
  | closeScope (name : String)
  | forgetScope (name : String)
  | newStrong (scope name : String) (type : NativeType) (target : Pointer)
  | newWeak (scope name : String) (type : NativeType) (target : Pointer)
  | newValue (scope name : String) (type : NativeType) (n : Option Nat)
  | root (scope : String) (descriptor : Target NativeType) (object : Nat)
  | onLocal (name : String) (act : LocalAct)
  | dropLocal (name : String)
  | persistStrong (name : String) (type : NativeType) (target : Pointer)
  | persistWeak (name : String) (type : NativeType) (target : Pointer)
  | persistValue (name : String) (type : NativeType) (n : Option Nat)
  | clone (name source : String)
  | drop (name : String)
  | forget (name : String)
  | onPersistent (name : String) (act : PersistentAct)
  | whereIs (name : String)
  | refcount (target : Pointer)
  /-- How often that is registered which a persistent handle is registered as. -/
  | refcountOf (name : String)
  | mode (mode : Mode)
  deriving DecidableEq, Repr

/-- What becomes of scopes and persistent handles that are left over. -/
inductive Ending where
  | drop
  | forget
  deriving DecidableEq, Repr

inductive RootingStep where
  | plain (step : PlainStep)
  | withScope (name : String) (body : List RootingStep)
  /-- Gives up, as far as the next step that survives it. -/
  | fail (text : String)
  | withRootSet (body : List RootingStep) (ending : Ending)
  | visit
  | visitDuring (during : List RootingStep)

end Script

end TracedHeap

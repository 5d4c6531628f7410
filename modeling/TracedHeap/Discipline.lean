/-! # Disciplines

How a handle refers to its target: `Discipline` is what a slot records for the
collector and what a handle announces to its hooks.
-/

namespace TracedHeap

/-- How a handle refers to its target: stored in place, by a pointer that keeps it alive, or by one
that does not. -/
inductive Discipline where
  | value
  | strong
  | weak
  deriving DecidableEq, Repr

namespace Discipline

/-- Whether handles store a pointer and go through the barriers. -/
def isReference : Discipline → Bool
  | .value => false
  | .strong | .weak => true

def name : Discipline → String
  | .value => "Value"
  | .strong => "StrongRef"
  | .weak => "WeakRef"

def all : List Discipline := [.value, .strong, .weak]

def ofName? (text : String) : Option Discipline :=
  all.find? (·.name == text)

end Discipline

end TracedHeap

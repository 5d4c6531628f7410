/-! # Addresses

Where a root lies.  Objects of the collected heap are numbered in the order of
their addresses; boxed values have addresses of their own; values of size zero
take up no memory, so that all of one alignment share one address.
-/

namespace TracedHeap

inductive Address where
  /-- A value of size zero: its address is its alignment. -/
  | dangling (align : Nat)
  | object (number : Nat)
  /-- A boxed value; no two live boxes have the same number. -/
  | box (number : Nat)
  deriving DecidableEq, Repr

/-- What a reference handle stores: an address or null. -/
abbrev Pointer := Option Address

namespace Address

def rank : Address → Nat
  | .dangling _ => 0
  | .object _ => 1
  | .box _ => 2

def number : Address → Nat
  | .dangling n | .object n | .box n => n

/-- Addresses are ordered by kind, then by number. -/
instance : Ord Address where
  compare a b := (compare a.rank b.rank).then (compare a.number b.number)

end Address

namespace Pointer

def text : Pointer → String
  | none => "null"
  | some a => toString a.number

/-- A pointer as debugging output shows it: only objects are told apart. -/
def debugText : Pointer → String
  | none => "<null>"
  | some (.object n) => "<" ++ toString n ++ ">"
  | some _ => "<?>"

end Pointer

end TracedHeap

/-! # Entries that go by names

What a script holds goes by names, and several entries may have the same one.  A
name stands for its first entry, so a list that grows in front has the latest entry
of a name stand for it.
-/

namespace TracedHeap

namespace Script

/-- Entries by name. -/
abbrev Named (α : Type) := List (String × α)

namespace Named

variable {α : Type}

def remove (name : String) (entries : Named α) : Named α := entries.eraseP (·.1 == name)

def replace (name : String) (a : α) : Named α → Named α
  | [] => []
  | (n, b) :: rest => if n = name then (n, a) :: rest else (n, b) :: replace name a rest

/-- Gives a new name to the entry that a name stands for, in its place. -/
def rename (name newName : String) : Named α → Named α
  | [] => []
  | (n, a) :: rest => if n = name then (newName, a) :: rest else (n, a) :: rename name newName rest

end Named

end Script

end TracedHeap

/-! # Ascending maps

A map from keys to values as the list of its entries in ascending order of keys.

* `AscendingMap.find?`, `AscendingMap.insert`, `AscendingMap.erase`: the operations.
* `AscendingMap.toList`: the entries, which is the map itself.
-/

namespace TracedHeap

/-- A map from `κ` to `α`, the least key first. -/
structure AscendingMap (κ α : Type) where
  toList : List (κ × α)
  deriving DecidableEq, Repr

namespace AscendingMap

variable {κ α : Type} [Ord κ]

def empty : AscendingMap κ α := ⟨[]⟩

def size (m : AscendingMap κ α) : Nat := m.toList.length

def findIn (key : κ) : List (κ × α) → Option α
  | [] => none
  | (k, a) :: rest =>
    match compare key k with
    -- all keys from here on are greater
    | .lt => none
    | .eq => some a
    | .gt => findIn key rest

def insertIn (key : κ) (value : α) : List (κ × α) → List (κ × α)
  | [] => [(key, value)]
  | (k, a) :: rest =>
    match compare key k with
    | .lt => (key, value) :: (k, a) :: rest
    -- the key that is there stays
    | .eq => (k, value) :: rest
    | .gt => (k, a) :: insertIn key value rest

def eraseIn (key : κ) : List (κ × α) → List (κ × α)
  | [] => []
  | (k, a) :: rest =>
    match compare key k with
    | .lt => (k, a) :: rest
    | .eq => rest
    | .gt => (k, a) :: eraseIn key rest

def find? (m : AscendingMap κ α) (key : κ) : Option α := findIn key m.toList

def insert (m : AscendingMap κ α) (key : κ) (value : α) : AscendingMap κ α :=
  ⟨insertIn key value m.toList⟩

def erase (m : AscendingMap κ α) (key : κ) : AscendingMap κ α := ⟨eraseIn key m.toList⟩

end AscendingMap

end TracedHeap

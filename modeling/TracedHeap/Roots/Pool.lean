import TracedHeap.Layout
import TracedHeap.LogLine
import TracedHeap.Roots.AscendingMap

/-! # Persistent roots

The roots that native code holds beyond any scope.  A root is known by its
address and recorded with a descriptor; it may be added several times, and stays
until it has been removed as often.

* `Pool.add`, `Pool.remove`: the operations.
* `Pool.refcount`, `Pool.descriptor?`, `Pool.roots`: what the pool holds.
-/

namespace TracedHeap

structure RootRecord (D : Type) where
  descriptor : D
  /-- How often the root was added but not removed. -/
  count : Nat
  deriving DecidableEq, Repr

structure Pool (D P : Type) where
  records : AscendingMap P (RootRecord D)
  deriving DecidableEq, Repr

namespace Pool

variable {D P : Type} [Ord P]

def empty : Pool D P := ⟨.empty⟩

def size (pool : Pool D P) : Nat := pool.records.size

def refcount (pool : Pool D P) (data : P) : Nat :=
  ((pool.records.find? data).map (·.count)).getD 0

def descriptor? (pool : Pool D P) (data : P) : Option D :=
  (pool.records.find? data).map (·.descriptor)

/-- The roots in ascending order, each once. -/
def roots (pool : Pool D P) : List (D × P) :=
  pool.records.toList.map fun (data, record) => (record.descriptor, data)

/-- Adds a root, or counts it once more if it is there with the same descriptor. -/
def add [BEq D] (pool : Pool D P) (data : P) (descriptor : D) : Except Fault (Pool D P) :=
  match pool.records.find? data with
  | none => .ok ⟨pool.records.insert data ⟨descriptor, 1⟩⟩
  | some record =>
    if record.descriptor == descriptor then do
      let count ← Word.add record.count 1
      return ⟨pool.records.insert data { record with count }⟩
    else
      .error (.failed .descriptorConflict)

/-- What adding a root logs, if it does not fail. -/
def addLine (pool : Pool D P) (data : P) : LogLine :=
  match pool.records.find? data with
  | none => .addingRoot
  | some record => .countingRoot (record.count + 1)

/-- Counts a root once less, and removes it when it is no longer counted. -/
def remove (pool : Pool D P) (data : P) : Except Fault (Pool D P) :=
  match pool.records.find? data with
  | none => .error (.failed .absentRoot)
  | some record =>
    -- no record is kept with a count of zero, so this never falls short
    let count := record.count - 1
    if count = 0 then .ok ⟨pool.records.erase data⟩
    else .ok ⟨pool.records.insert data { record with count }⟩

def removeLines (pool : Pool D P) (data : P) : List LogLine :=
  -- a root that is only counted down leaves no line
  if pool.refcount data = 1 then [.removingRoot] else []

end Pool

end TracedHeap

import TracedHeap.Handle.Basic

/-! # Objects on the collected heap

Objects are moved to memory that the collector allocates, and stay there.  They
are not destroyed: the collector takes the memory back when nothing refers to it.

* `Heap`: the objects by address.
* `Heap.moveIn`, `Heap.giveUp`: moving an object there, and giving it up.
* `Cons`, `Heap.link`, `Heap.follow`: linked lists of such objects.
-/

namespace TracedHeap

/-- The collected heap with objects of one type. -/
structure Heap (σ α : Type) where
  collector : σ
  /-- What is stored where; a later entry for an address comes first. -/
  objects : List (Nat × α)

namespace Heap

variable {σ α : Type}

def get? (h : Heap σ α) (address : Nat) : Option α := h.objects.lookup address

def moveIn (c : Collector σ) (layout : Layout) (object : α) (h : Heap σ α) : Nat × Heap σ α :=
  let (address, collector) := c.allocate layout h.collector
  (address, ⟨collector, (address, object) :: h.objects⟩)

/-- Gives up an object, which is none of the heap's business. -/
def giveUp (_address : Nat) (h : Heap σ α) : Heap σ α := h

end Heap

structure Cons where
  head : Int
  tail : RefHandle
  deriving DecidableEq, Repr

namespace Cons

def layout : Layout := ⟨16, 8⟩

end Cons

namespace Heap

variable {σ : Type}

/-- Builds a linked list back to front.  The result points to its first node. -/
def link (c : Collector σ) : List Int → Heap σ Cons → Pointer × Heap σ Cons
  | [], h => (none, h)
  | value :: rest, h =>
    let (tail, h) := link c rest h
    let (tail, collector) := RefHandle.new (.ofCollector c) .strong tail h.collector
    let (address, h) := moveIn c Cons.layout ⟨value, tail⟩ { h with collector }
    (some (.object address), h)

/-- The values of at most `fuel` nodes along the stored tails. -/
def followAtMost (h : Heap σ Cons) : (fuel : Nat) → Pointer → List Int
  | fuel + 1, some (.object address) =>
    match h.get? address with
    | some node => node.head :: followAtMost h fuel node.tail.stored
    | none => []
  | _, _ => []

/-- The values of a linked list.  It has no more nodes than the heap has objects. -/
def follow (h : Heap σ Cons) (first : Pointer) : List Int :=
  h.followAtMost h.objects.length first

end Heap

end TracedHeap

import TracedHeap.Handle.Simulated
import TracedHeap.Heap
import TracedHeap.Script.Stacks

/-! # Scripts that allocate objects -/

namespace TracedHeap

namespace Script

inductive ObjectStep where
  | list (values : List Int)
  /-- Forty copies of a byte, aligned to 32 bytes. -/
  | wide (value : Int)
  | empty
  /-- An object that would tell when it is destroyed. -/
  | loud (value : Int)
  | byte (value : Int)
  | memory (layout : Layout)
  /-- A slot that is read, written and read again, past the barriers. -/
  | slot (stored given : Pointer)
  deriving DecidableEq, Repr

inductive ObjectFinding where
  | numbers (values : List Int)
  | number (value : Int)
  /-- What can be told of an address: whether it is null, its remainder modulo the
  alignment, and whether it is the alignment. -/
  | placed (null : Bool) (misaligned : Nat) (isAlign : Bool)
  | pointers (before after : Pointer)
  deriving DecidableEq, Repr

/-- Moves an object to an otherwise empty heap and reads it again there. -/
def roundTrip {α : Type} (collector : Collector Simulated) (layout : Layout) (object : α)
    (s : Simulated) : (Nat × Option α) × Simulated :=
  let (address, heap) := Heap.moveIn collector layout object ⟨s, []⟩
  let read := heap.get? address
  -- giving the object up reports nothing, since objects on the heap are not destroyed
  ((address, read), (heap.giveUp address).collector)

def ObjectStep.act (s : Simulated) : ObjectStep → ObjectFinding × Simulated
  | .list values =>
    let (first, heap) := Heap.link Simulated.collector values ⟨s, []⟩
    (.numbers (heap.follow first), heap.collector)
  | .wide value =>
    let ((address, read), s) :=
      roundTrip Simulated.collector ⟨64, 32⟩ (List.replicate 40 value) s
    let last := (read.bind List.getLast?).getD 0
    (.numbers [last, address % 32], s)
  | .empty =>
    let ((address, _), s) := roundTrip Simulated.collector ⟨0, 1⟩ () s
    (.number address, s)
  | .loud value =>
    let ((_, read), s) := roundTrip Simulated.collector ⟨8, 8⟩ value s
    (.number (read.getD 0), s)
  | .byte value =>
    let ((_, read), s) := roundTrip Simulated.silent ⟨1, 1⟩ value s
    (.number (read.getD 0), s)
  | .memory layout =>
    let (address, s) := Simulated.silent.allocate layout s
    (.placed (address = 0) (address % layout.align) (address = layout.align), s)
  | .slot stored given =>
    let (before, s) := Simulated.silent.read stored s
    let (written, s) := Simulated.silent.write given before.left s
    let (after, s) := Simulated.silent.read written s
    (.pointers before.seen after.seen, s)

def ObjectStep.run (s : Simulated) (step : ObjectStep) :
    Option (Answer ObjectFinding × Simulated) :=
  let (finding, s) := step.act { s with events := [] }
  some (⟨.ok finding, s.events, []⟩, s)

def runObjects (steps : List ObjectStep) : Option (List (Answer ObjectFinding)) :=
  runAll ObjectStep.run steps .initial

end Script

end TracedHeap

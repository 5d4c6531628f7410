import TracedHeap.Descriptor.Size
import TracedHeap.Descriptor.Store

/-! # Construction of descriptors

A descriptor is written into memory that was sized by the number of slots that
its source of slots reports.  The source may be wrong about that number, which
the writing loop notices before it leaves the memory.

* `SlotSource`: slots together with the reported number of them.
* `Blueprint`: everything a descriptor is made from.
* `Descriptor.fill`: the writing loop.
* `Descriptor.compose`: the whole of a descriptor.
* `Store.construct`: a descriptor in memory of its own.
-/

namespace TracedHeap

structure SlotSource where
  slots : List Slot
  reported : Nat
  deriving DecidableEq, Repr

/-- A source that reports the truth. -/
def SlotSource.ofList (slots : List Slot) : SlotSource := ⟨slots, slots.length⟩

structure Blueprint where
  size : Nat
  hasArray : Bool
  array : Slot
  source : SlotSource
  deriving DecidableEq, Repr

namespace Descriptor

/-- Writes the arriving slots, of which `reported` were announced, from number
`written` on.  The memory comes back as far as it was written. -/
def fill (reported : Nat) : List Slot → Nat → Descriptor → Except Fault Unit × Descriptor
  | [], written, d =>
    if written = reported then (.ok (), d)
    else (.error (.failed .fewerSlotsThanReported), d)
  | slot :: rest, written, d =>
    if written < reported then fill reported rest (written + 1) (d.writeSlot written slot)
    else (.error (.failed .moreSlotsThanReported), d)

/-- Writes a whole descriptor into memory at an address. -/
def compose (d : Descriptor) (address : Nat) (b : Blueprint) : Except Fault Unit × Descriptor :=
  -- the checks come first: their faults leave the memory as it was, even if that is finished
  if b.size == 0 && !b.hasArray && b.source.reported != 0 then
    (.error (.failed .slotsOfEmptyObject), d)
  else if address % alignment != 0 then
    (.error (.failed .misaligned), d)
  else
    -- from here on the memory is marked as unfinished, until all is written
    let d := { d.writeHeader b.size b.hasArray with array := b.array }
    match fill b.source.reported b.source.slots 0 d with
    | (.error f, d) => (.error f, d)
    | (.ok (), d) => (.ok (), { d with slotCount := b.source.reported, initialized := true })

end Descriptor

inductive Placement where
  /-- Memory that the caller owns, large enough for the reported number of slots. -/
  | memory (address : Nat)
  | collected
  deriving DecidableEq, Repr

structure Construction where
  /-- The descriptor, or `none` if no memory is large enough for it. -/
  result : Except Fault (Option DescriptorRef)
  store : Store
  allocated : Option Layout

namespace Store

def constructAt (s : Store) (address : Nat) (b : Blueprint) :
    Except Fault (Option DescriptorRef) × Store :=
  let made := (Descriptor.blank b.source.reported).compose address b
  (made.1.map fun _ => some s.fresh, s.allocate made.2)

/-- Constructs a descriptor at run-time. -/
def construct (s : Store) (placement : Placement) (b : Blueprint) : Construction :=
  match placement with
  | .memory address =>
    let made := s.constructAt address b
    ⟨made.1, made.2, none⟩
  | .collected =>
    match Descriptor.layout? b.source.reported with
    | none => ⟨.ok none, s, none⟩
    -- the heap aligns the memory, and has allocated it before the blueprint is looked at
    | some layout =>
      let made := s.constructAt 0 b
      ⟨made.1, made.2, some layout⟩

end Store

end TracedHeap

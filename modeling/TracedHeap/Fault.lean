/-! # Faults

Everything that can end an operation: a violated invariant (`Check`), an
arithmetic overflow, a refused borrow, or a failure raised by client code.

* `Check.condition`, `Check.message`: the two halves of a failed check's text.
* `Fault.text`: the text a fault is reported with.
* `Fault.kind`: failed checks are told apart from all other faults by their text.
-/

namespace TracedHeap

/-- An invariant that is checked at run-time and whose violation is fatal to the
operation that checks it. -/
inductive Check where
  | boxedByValue
  | arrayByValue
  | slotsOfEmptyObject
  | misaligned
  | moreSlotsThanReported
  | fewerSlotsThanReported
  | stillBuilding
  | poisoned
  /-- A descriptor was asked for whose registration had failed before its
  address was published. -/
  | poisonedUnpublished
  /-- A cell was found claimed without an address. -/
  | registeringElsewhere
  | slotCountMismatch (declared built : Nat)
  | popAboveTop (target height : Nat)
  /-- The entry just below a mark is not the one that it remembers. -/
  | staleMark
  | descriptorConflict
  | absentRoot
  | arrayRootByValue
  | localsOutlived
  | persistentsOutlived
  deriving DecidableEq, Repr

namespace Check

def condition : Check → String
  | .boxedByValue => "!(descriptor.is_boxed() && discipline == HandleType::Value)"
  | .arrayByValue => "discipline != HandleType::Value || !descriptor.has_array()"
  | .slotsOfEmptyObject => "size_with_empty_array != 0 || has_array || slot_count == 0"
  | .misaligned => "memory.as_ptr() as usize % align_of::<Self>() == 0"
  | .moreSlotsThanReported => "written < slot_count"
  | .fewerSlotsThanReported => "written == slot_count"
  | .stillBuilding => "self.is_initialized()"
  | .poisoned => "self.state.load(Ordering::Acquire) != POISONED"
  | .poisonedUnpublished => "claimed != Err(POISONED)"
  | .registeringElsewhere => "claimed.is_ok()"
  | .slotCountMismatch _ _ => "slots.len() == slot_count"
  | .popAboveTop _ _ => "top.height <= self.entries.len()"
  | .staleMark => "self.is_valid(top)"
  | .descriptorConflict => "record.descriptor == descriptor"
  | .absentRoot => "refcount.is_some()"
  | .arrayRootByValue => "D::TYPE != HandleType::Value || !descriptor.has_array()"
  | .localsOutlived => "this.local_count() == 0"
  | .persistentsOutlived => "this.persistent_count() == 0"

def message : Check → String
  | .boxedByValue => "boxed slots cannot be stored by value"
  | .arrayByValue | .arrayRootByValue => "variable-size objects cannot be stored by value"
  | .slotsOfEmptyObject => "a descriptor with slots describes a non-empty object"
  | .misaligned => "descriptor memory is misaligned"
  | .moreSlotsThanReported => "slot iterator is longer than it said"
  | .fewerSlotsThanReported => "slot iterator is shorter than it said"
  | .stillBuilding => "descriptor is still being built"
  | .poisoned | .poisonedUnpublished => "descriptor registration panicked earlier"
  | .registeringElsewhere => "descriptor is being registered by another thread"
  | .slotCountMismatch declared built => s!"declared {declared} slots but built {built}"
  | .popAboveTop target height => s!"popping to height {target} of a stack of height {height}"
  | .staleMark => "popping to a stale stack reference"
  | .descriptorConflict => "persistent root added again with a different descriptor"
  | .absentRoot => "removing a persistent root that is not present"
  | .localsOutlived => "local roots outlived their mutator"
  | .persistentsOutlived => "persistent roots outlived their mutator"

def text (c : Check) : String :=
  "check failed: " ++ c.condition ++ ": " ++ c.message

end Check

/-- What ends an operation before it has a result. -/
inductive Fault where
  | failed (check : Check)
  | multiplyOverflow
  | addOverflow
  /-- A unique borrow was refused. -/
  | alreadyBorrowed
  /-- A shared borrow was refused. -/
  | alreadyMutablyBorrowed
  | noDescriptorLayout (slots : Nat)
  | indexOutOfBounds (length index : Nat)
  | raised (text : String)
  deriving DecidableEq, Repr

inductive FaultKind where
  | checkFailed
  | other
  deriving DecidableEq, Repr

namespace Fault

def text : Fault → String
  | .failed check => check.text
  | .multiplyOverflow => "attempt to multiply with overflow"
  | .addOverflow => "attempt to add with overflow"
  | .alreadyBorrowed => "RefCell already borrowed"
  | .alreadyMutablyBorrowed => "RefCell already mutably borrowed"
  | .noDescriptorLayout slots => s!"descriptor with {slots} slots: DescriptorSizeError"
  | .indexOutOfBounds length index =>
      s!"index out of bounds: the len is {length} but the index is {index}"
  | .raised text => text

/-- The kind of a fault, read off its text, so that client code can raise a
fault that passes for a failed check. -/
def kind (f : Fault) : FaultKind :=
  if f.text.startsWith "check failed: " then .checkFailed else .other

end Fault

theorem except_bind_eq_ok_iff {ε α β : Type} {x : Except ε α} {f : α → Except ε β} {b : β} :
    (x >>= f) = .ok b ↔ ∃ a, x = .ok a ∧ f a = .ok b := by
  cases x with
  | error e => simp [bind, Except.bind]
  | ok a => simp [bind, Except.bind]

end TracedHeap

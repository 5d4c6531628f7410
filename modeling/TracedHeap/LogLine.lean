import TracedHeap.Fault

/-! # The log

What the library reports while it works.  A line about a registration names the
cell it is about, although the text leaves it out.
-/

namespace TracedHeap

/-- One line of the log. -/
inductive LogLine where
  | registering (cell : Nat) (size : Nat) (hasArray : Bool) (slotCount : Nat)
  | registered (cell : Nat)
  | registrationFailed (cell : Nat)
  | poppingLocals (start target : Nat)
  | addingRoot
  | countingRoot (count : Nat)
  | removingRoot
  | checkFailed (check : Check)
  deriving DecidableEq, Repr

namespace LogLine

/-- A line as it is shown: level, message, then the fields. -/
def text : LogLine → String
  | .registering _ size hasArray slotCount =>
      s!"DEBUG registering descriptor size_with_empty_array={size} has_array={hasArray} " ++
        s!"slot_count={slotCount}"
  | .registered _ => "DEBUG registered descriptor descriptor=<?>"
  | .registrationFailed _ => "ERROR descriptor registration panicked"
  | .poppingLocals start target => s!"TRACE popping local roots from={start} to={target}"
  | .addingRoot => "TRACE adding persistent root"
  | .countingRoot count => s!"TRACE counting persistent root refcount={count}"
  | .removingRoot => "TRACE removing persistent root"
  | .checkFailed check => "ERROR " ++ check.message ++ " condition=[" ++ check.condition ++ "]"

end LogLine

/-- What a fault leaves in the log where it arises: failed checks are logged,
other faults are not. -/
def Fault.lines : Fault → List LogLine
  | .failed check => [.checkFailed check]
  | _ => []

end TracedHeap

import TracedHeap.Discipline
import TracedHeap.Layout

/-! # The size of a handle

A handle is exactly as large as what it stores.
-/

namespace TracedHeap

/-- The layout of a handle whose target has a given layout. -/
def Discipline.handleLayout (d : Discipline) (target : Layout) : Layout :=
  if d.isReference then .word else target

end TracedHeap

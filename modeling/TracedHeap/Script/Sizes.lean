import TracedHeap.Handle.Size
import TracedHeap.Native.Catalogue

/-! # Sizes of handles

The types for which the sizes of handles are asked.
-/

namespace TracedHeap

namespace Script

def measured? : String → Option Layout
  | "u16x7" => some (.array NativeType.u16.layout 7)
  | "u64x4" => some (.array NativeType.u64.layout 4)
  | "u8x100" => some (.array NativeType.u8.layout 100)
  | "StrongRef_u8" => some (Discipline.strong.handleLayout NativeType.u8.layout)
  | name =>
    match NativeType.target? name with
    | some (.type t) => some t.layout
    | some .boxed | none => none

/-- The layouts of handles of each discipline to the type of a name. -/
def handleSizes (name : String) : Option (List (Discipline × Layout)) := do
  let target ← measured? name
  return Discipline.all.map fun d => (d, d.handleLayout target)

end Script

end TracedHeap

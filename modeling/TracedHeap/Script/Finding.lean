import TracedHeap.Script.Answer

/-! # Findings about descriptors

What the steps that deal with descriptors come to, and the names under which
descriptors are shown.
-/

namespace TracedHeap

namespace Script

inductive Finding where
  | slot (slot : Slot)
  | text (text : String)
  | view (view : DescriptorView)
  | tooLarge
  | truth (value : Bool)
  /-- What the first request for a native type came to. -/
  | first (outcome : Except Fault Bool)
  /-- What a request for a type came to. -/
  | requested (outcome : Except Fault DescriptorView)
  | phase (phase : Phase)
  | phases (phases : List (String × Phase))

/-- The names of descriptors.  A descriptor that goes by several names is shown
by the first of them. -/
abbrev Names := List (DescriptorRef × String)

def Names.native : Names :=
  (.boxed, "boxed") :: Native.published.map fun (d, t) => (d, t.name)

def Names.show (names : Names) (d : DescriptorRef) : String :=
  (names.lookup d).getD "?"

def slotDebug (s : Slot) : String :=
  "Slot \x7b descriptor: Handle(" ++ (if s.target.isSome then "<?>" else "<null>") ++
    "), discipline: " ++ s.discipline.name ++ ", offset: " ++ toString s.offset ++ " \x7d"

/-! ## What can be tested -/

/-- The largest descriptor that scripts allocate, in bytes: four gibibytes. -/
def memoryLimit : Nat := 0x100000000

/-- Whether a descriptor has a layout, but one that scripts do not allocate. -/
def exceedsMemory (slots : Nat) : Bool :=
  match Descriptor.layout? slots with
  | some layout => memoryLimit < layout.size
  | none => false

def untestable : Fault := .raised "slot count cannot be tested"

def demandMemory {n : Nat} {κ : Type} (slots : Nat) : Client n κ Unit :=
  if exceedsMemory slots then Client.raise untestable else .done ()

/-! ## Native types by name -/

inductive Sought where
  | known (descriptor : DescriptorRef)
  | native (type : NativeType)
  deriving DecidableEq, Repr

def Sought.ofNative? (name : String) : Option Sought :=
  (NativeType.target? name).map fun
    | .boxed => .known .boxed
    | .type t => .native t

def Sought.find {n : Nat} : Sought → Client n NativeType DescriptorRef
  | .known d => .done d
  | .native t => .get t

end Script

end TracedHeap

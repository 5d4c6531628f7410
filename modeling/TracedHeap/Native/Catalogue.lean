import TracedHeap.Registry.Declaration

/-! # The native types

The types that native code brings along: the primitive ones, those of which
descriptors are made, and a number of object types, some of which are declared
wrongly so that their registration fails.

* `NativeType`: their names.
* `NativeType.layout`: size and alignment.
* `NativeType.declaration`: what is registered for each.
-/

namespace TracedHeap

/-- A type that native code brings along. -/
inductive NativeType where
  | unit | bool | char
  | u8 | u16 | u32 | u64 | u128 | usize
  | i8 | i16 | i32 | i64 | i128 | isize
  | f32 | f64
  | slot
  | storageDescriptor
  /-- Two types that refer to each other. -/
  | odd | even
  | node
  | chunk
  | pair
  | nodes
  | bytes
  | mixed
  | nest
  | opaqueType
  /-- Holds an object with an array in place, which is not allowed. -/
  | holder
  /-- Refers to `right`, then fails as `holder` does. -/
  | left
  /-- Refers to `left`, and is registered on the way. -/
  | right
  /-- Holds a boxed value in place, which is not allowed. -/
  | boxedVal
  | unit2
  deriving DecidableEq, Repr

namespace NativeType

/-- All native types, in the order in which they are registered. -/
def all : List NativeType :=
  [.unit, .bool, .char, .u8, .u16, .u32, .u64, .u128, .usize, .i8, .i16, .i32, .i64, .i128,
    .isize, .f32, .f64, .slot, .storageDescriptor, .odd, .even, .node, .chunk, .pair, .nodes,
    .bytes, .mixed, .nest, .opaqueType, .holder, .left, .right, .boxedVal, .unit2]

theorem mem_all (t : NativeType) : t ∈ all := by
  cases t <;> decide

def count : Nat := all.length

def cell (t : NativeType) : Fin count := ⟨all.idxOf t, List.idxOf_lt_length_of_mem t.mem_all⟩

def name : NativeType → String
  | .unit => "unit" | .bool => "bool" | .char => "char"
  | .u8 => "u8" | .u16 => "u16" | .u32 => "u32" | .u64 => "u64" | .u128 => "u128"
  | .usize => "usize"
  | .i8 => "i8" | .i16 => "i16" | .i32 => "i32" | .i64 => "i64" | .i128 => "i128"
  | .isize => "isize"
  | .f32 => "f32" | .f64 => "f64"
  | .slot => "Slot" | .storageDescriptor => "StorageDescriptor"
  | .odd => "Odd" | .even => "Even" | .node => "Node" | .chunk => "Chunk" | .pair => "Pair"
  | .nodes => "Nodes" | .bytes => "Bytes" | .mixed => "Mixed" | .nest => "Nest"
  | .opaqueType => "Opaque"
  | .holder => "Holder" | .left => "Left" | .right => "Right" | .boxedVal => "BoxedVal"
  | .unit2 => "Unit2"

/-- The native type of a name, or the sentinel. -/
def target? (text : String) : Option (Target NativeType) :=
  if text = "Boxed" then some .boxed
  else (all.find? (·.name == text)).map .type

/-- Size and alignment of the values of a native type, arrays being empty. -/
def layout : NativeType → Layout
  | .unit | .unit2 | .boxedVal => ⟨0, 1⟩
  | .bool | .u8 | .i8 => ⟨1, 1⟩
  | .u16 | .i16 => ⟨2, 2⟩
  | .char | .u32 | .i32 | .f32 => ⟨4, 4⟩
  | .u64 | .i64 | .usize | .isize | .f64 => ⟨8, 8⟩
  | .u128 | .i128 => ⟨16, 16⟩
  | .even | .chunk | .bytes | .right => ⟨8, 8⟩
  | .odd | .node | .nodes | .opaqueType | .holder => ⟨16, 8⟩
  | .slot | .left => ⟨24, 8⟩
  | .pair => ⟨32, 8⟩
  | .storageDescriptor | .nest => ⟨48, 8⟩
  | .mixed => ⟨64, 16⟩

def valueAt (t : NativeType) (offset : Nat) : Member NativeType := ⟨.type t, .value, offset⟩

def strongAt (t : NativeType) (offset : Nat) : Member NativeType := ⟨.type t, .strong, offset⟩

def weakAt (t : NativeType) (offset : Nat) : Member NativeType := ⟨.type t, .weak, offset⟩

def element : NativeType → Option (Member NativeType)
  | .storageDescriptor => some (slot.valueAt 48)
  | .chunk => some (u32.strongAt 8)
  | .nodes => some (node.weakAt 16)
  | .bytes => some (u8.valueAt 8)
  | _ => none

def members : NativeType → List (Member NativeType)
  | .slot => [storageDescriptor.strongAt 0]
  | .storageDescriptor => [slot.valueAt 16]
  | .odd => [even.strongAt 0, odd.weakAt 8]
  | .even => [odd.strongAt 0]
  | .node => [u64.valueAt 0, node.strongAt 8]
  | .pair => [node.valueAt 8, ⟨.boxed, .strong, 24⟩]
  | .nodes => [node.strongAt 0]
  -- declared from the last member to the first
  | .mixed =>
      [bool.valueAt 56, chunk.strongAt 48, u128.valueAt 32, u8.valueAt 16, ⟨.boxed, .weak, 8⟩,
        u16.valueAt 2, u8.valueAt 0]
  | .nest => [pair.valueAt 0, unit.valueAt 32, node.valueAt 32]
  | .holder => [nodes.valueAt 0]
  | .left => [right.strongAt 0, nodes.valueAt 8]
  | .right => [left.strongAt 0]
  | .boxedVal => [⟨.boxed, .value, 0⟩]
  | _ => []

def declaration (t : NativeType) : Declaration NativeType :=
  ⟨t.layout.size, t.element.isSome, t.element, t.members⟩

end NativeType

end TracedHeap

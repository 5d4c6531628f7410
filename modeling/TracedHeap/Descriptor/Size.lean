import TracedHeap.Layout

/-! # The size of a descriptor

A descriptor is a header followed by its slots, so its size depends on their
number.  There are three ways to ask for it, which differ in what they do with
numbers that are too large.

* `memorySize`: the size, or the fault of the arithmetic step that overflows.
* `memorySize?`: the size, if it is a word.
* `layout?`: the layout, if there is one.
-/

namespace TracedHeap

namespace Descriptor

def headerSize : Nat := 48

def slotSize : Nat := 24

def alignment : Nat := 8

def memorySize (slots : Nat) : Except Fault Nat := do
  let size ← Word.mul slots slotSize
  Word.add headerSize size

/-- Like `memorySize`, but declines instead of failing. -/
def memorySize? (slots : Nat) : Option Nat := do
  let size ← Word.mul? slots slotSize
  Word.add? headerSize size

def layout? (slots : Nat) : Option Layout := do
  let size ← memorySize? slots
  Layout.ofSizeAlign? size alignment

def slotOffset (number : Nat) : Nat := headerSize + slotSize * number

end Descriptor

end TracedHeap

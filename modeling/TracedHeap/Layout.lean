import TracedHeap.Fault

/-! # Words and layouts

Sizes, offsets and counts are natural numbers below `Word.bound`.  Arithmetic on
them either reports its overflow (`Word.add`, `Word.mul`) or declines
(`Word.add?`, `Word.mul?`).  A `Layout` is the size and alignment of a piece of
memory; sizes beyond `Layout.maxSize` have none.
-/

namespace TracedHeap

namespace Word

/-- Words are the natural numbers below this one, the 64th power of two. -/
def bound : Nat := 0x10000000000000000

def add? (a b : Nat) : Option Nat :=
  if a + b < bound then some (a + b) else none

def mul? (a b : Nat) : Option Nat :=
  if a * b < bound then some (a * b) else none

/-- The sum of two words, whose overflow is a fault. -/
def add (a b : Nat) : Except Fault Nat :=
  match add? a b with
  | some c => .ok c
  | none => .error .addOverflow

theorem add_eq_ok_iff {a b c : Nat} : add a b = .ok c ↔ a + b < bound ∧ c = a + b := by
  unfold add add?
  by_cases h : a + b < bound
  · simp [h, eq_comm]
  · simp [h]

def mul (a b : Nat) : Except Fault Nat :=
  match mul? a b with
  | some c => .ok c
  | none => .error .multiplyOverflow

end Word

/-- Size and alignment of a piece of memory, in bytes. -/
structure Layout where
  size : Nat
  align : Nat
  deriving DecidableEq, Repr

namespace Layout

def halfSpace : Nat := 0x8000000000000000

/-- Sizes up to here can be rounded up to the alignment within half the address space. -/
def maxSize (align : Nat) : Nat := halfSpace - align

def ofSizeAlign? (size align : Nat) : Option Layout :=
  if size ≤ maxSize align then some ⟨size, align⟩ else none

def word : Layout := ⟨8, 8⟩

def array (element : Layout) (count : Nat) : Layout :=
  ⟨element.size * count, element.align⟩

end Layout

end TracedHeap

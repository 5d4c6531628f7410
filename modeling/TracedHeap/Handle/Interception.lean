import TracedHeap.Address
import TracedHeap.Discipline
import TracedHeap.Layout

/-! # Collectors and hooks

A collector intercepts the reads and writes of pointers, and allocates objects.
The hooks of a handle are called besides when it is created and destroyed.  Both
are given by what they do to a state `σ` of their own.

* `Collector`: barriers and allocation; `Collector.noBarrier` intercepts nothing.
* `Hooks`: the interception points of a handle.
* `Hooks.ofCollector`: the hooks of members, locals and persistents, which leave
  creation and destruction alone.
-/

namespace TracedHeap

structure Reading where
  seen : Pointer
  /-- What is stored in the slot from now on. -/
  left : Pointer
  deriving DecidableEq, Repr

/-- A garbage collector, as far as handles and allocations see it. -/
structure Collector (σ : Type) where
  read : (stored : Pointer) → σ → Reading × σ
  /-- The result is what the slot stores from now on. -/
  write : (given stored : Pointer) → σ → Pointer × σ
  allocate : Layout → σ → Nat × σ

structure Hooks (σ : Type) where
  created : Discipline → σ → σ
  destroyed : Discipline → σ → σ
  read : (stored : Pointer) → σ → Reading × σ
  write : (given stored : Pointer) → σ → Pointer × σ

namespace Hooks

variable {σ : Type}

def ofCollector (c : Collector σ) : Hooks σ where
  created _ s := s
  destroyed _ s := s
  read := c.read
  write := c.write

def noBarrier : Hooks σ where
  created _ s := s
  destroyed _ s := s
  read stored s := (⟨stored, stored⟩, s)
  write given _ s := (given, s)

end Hooks

end TracedHeap

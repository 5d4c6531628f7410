import TracedHeap.Event
import TracedHeap.Handle.Interception

/-! # A simulated collector

A collector whose barriers do as they are told, and report what they do.

* `Mode`: what the barriers are told.
* `Simulated`: the state of the collector.
* `Simulated.collector`: the collector.
* `Simulated.noisy`: hooks that report creation and destruction too.
-/

namespace TracedHeap

/-- What the barriers of a simulated collector do. -/
structure Mode where
  readsNull : Bool
  /-- Objects that reads see as something else. -/
  forward : List (Nat × Pointer)
  /-- Reads overwrite the slot with what was seen. -/
  heals : Bool
  writesNull : Bool
  /-- Objects in place of which writes store something else. -/
  redirect : List (Nat × Pointer)
  deriving DecidableEq, Repr

namespace Mode

def plain : Mode := ⟨false, [], false, false, []⟩

def replace (table : List (Nat × Pointer)) : Pointer → Pointer
  | some (.object n) => (table.lookup n).getD (some (.object n))
  | p => p

def seen (m : Mode) (stored : Pointer) : Pointer :=
  if m.readsNull then none else replace m.forward stored

def written (m : Mode) (given : Pointer) : Pointer :=
  if m.writesNull then none else replace m.redirect given

end Mode

structure Simulated where
  mode : Mode
  /-- No address above this one was handed out. -/
  top : Nat
  events : List Event

namespace Simulated

def initial : Simulated := ⟨.plain, 0, []⟩

def report (s : Simulated) (event : Event) : Simulated :=
  { s with events := s.events ++ [event] }

/-- Memory that was never handed out, and the mark that it raises. -/
def place (layout : Layout) (top : Nat) : Nat × Nat :=
  -- objects of size zero need no memory: their address is their alignment
  if layout.size = 0 then (layout.align, top)
  else
    -- one multiple more than it takes, so that no object lies at its own alignment
    let address := (top / layout.align + 2) * layout.align
    (address, address + layout.size)

def collector : Collector Simulated where
  read stored s :=
    let seen := s.mode.seen stored
    (⟨seen, if s.mode.heals then seen else stored⟩, s.report (.read stored))
  write given stored s := (s.mode.written given, s.report (.write given stored))
  allocate layout s :=
    let (address, top) := place layout s.top
    (address, { s.report (.allocate layout) with top })

def silent : Collector Simulated where
  read stored s := (⟨stored, stored⟩, s)
  write given _ s := (given, s)
  allocate layout s :=
    let (address, top) := place layout s.top
    (address, { s with top })

def quiet : Hooks Simulated := .ofCollector collector

def noisy : Hooks Simulated where
  created discipline s := s.report (.created discipline)
  destroyed discipline s := s.report (.destroyed discipline)
  read := collector.read
  write := collector.write

end Simulated

end TracedHeap

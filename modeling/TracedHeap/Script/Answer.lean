import TracedHeap.Native.Startup

/-! # Answers of scripts

A script is a list of steps that are carried out one after the other on some
state.  Each step is answered by its outcome and by what was reported and logged
meanwhile; a fault ends its step only.
-/

namespace TracedHeap

namespace Script

structure Answer (ρ : Type) where
  outcome : Except Fault ρ
  events : List Event := []
  log : List LogLine := []

/-- Whether an answer tells more than a result, given whether the log is told. -/
def Answer.isNotable {ρ : Type} (logged : Bool) (a : Answer ρ) : Bool :=
  logged || !a.events.isEmpty ||
    match a.outcome with
    | .ok _ => false
    | .error _ => true

/-- Carries out steps in order.  A step that makes no sense has no answer, and
then the whole script has none. -/
def runAll {σ step answer : Type} (run : σ → step → Option (answer × σ)) :
    List step → σ → Option (List answer)
  | [], _ => some []
  | s :: rest, state => do
    let (a, state) ← run state s
    let others ← runAll run rest state
    return a :: others

def onSession {n : Nat} {κ ρ : Type}
    (act : Session n κ → Except Fault ρ × Session n κ) (s : Session n κ) :
    Answer ρ × Session n κ :=
  let done := act { s with events := [], log := [] }
  -- a listener that was not needed does not wait for the next step
  (⟨done.1, done.2.events, done.2.log⟩, { done.2 with listener := none })

end Script

end TracedHeap

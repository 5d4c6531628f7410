import TracedHeap.Roots.Pool
import TracedHeap.Script.Decimal
import TracedHeap.Script.Stacks

/-! # Scripts over a pool

A pool whose keys are numbers and texts, and whose descriptors are texts and
binary numbers; the latter need not equal themselves.
-/

namespace TracedHeap

namespace Script

inductive PoolKey where
  | number (value : Int)
  | text (value : String)
  deriving DecidableEq, Repr

/-- Numbers come before texts. -/
instance : Ord PoolKey where
  compare
    | .number a, .number b => compare a b
    | .number _, .text _ => .lt
    | .text _, .number _ => .gt
    | .text a, .text b => compare a b

inductive PoolDescriptor where
  | text (value : String)
  /-- A number, and the text that denotes it. -/
  | number (text : String) (value : Float)

/-- Numbers are compared by value, whatever their texts. -/
instance : BEq PoolDescriptor where
  beq
    | .text a, .text b => a == b
    | .number _ a, .number _ b => a == b
    | _, _ => false

inductive PoolStep where
  | add (data : PoolKey) (descriptor : PoolDescriptor)
  | remove (data : PoolKey)
  | refcount (data : PoolKey)
  | descriptorOf (data : PoolKey)
  | isEmpty
  | iter

inductive PoolFinding where
  | nothing
  | truth (value : Bool)
  | number (value : Nat)
  | descriptor (descriptor : Option PoolDescriptor)
  | roots (roots : List (PoolDescriptor × PoolKey))

abbrev TextPool := Pool PoolDescriptor PoolKey

def PoolStep.act (pool : TextPool) : PoolStep → Answer PoolFinding × TextPool
  | .add data descriptor =>
    let outcome := pool.add data descriptor
    -- a change that is refused leaves the pool as it was
    (changed outcome .nothing [pool.addLine data], outcome.toOption.getD pool)
  | .remove data =>
    let outcome := pool.remove data
    (changed outcome .nothing (pool.removeLines data), outcome.toOption.getD pool)
  | .refcount data => (told (.number (pool.refcount data)), pool)
  | .descriptorOf data => (told (.descriptor (pool.descriptor? data)), pool)
  | .isEmpty => (told (.truth pool.records.toList.isEmpty), pool)
  | .iter => (told (.roots pool.roots), pool)

/-- Carries out a step.  Its answer comes with the size of the pool. -/
def PoolStep.run (pool : TextPool) (step : PoolStep) :
    Option ((Answer PoolFinding × Nat) × TextPool) :=
  let (answer, pool) := step.act pool
  some ((answer, pool.size), pool)

def runPool (steps : List PoolStep) : Option (List (Answer PoolFinding × Nat)) :=
  runAll PoolStep.run steps .empty

end Script

end TracedHeap

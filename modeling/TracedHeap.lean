import TracedHeap.Handle.Size
import TracedHeap.Heap
import TracedHeap.Native.Startup
import TracedHeap.Roots.PersistentHandle
import TracedHeap.Script.Cells
import TracedHeap.Script.Handles
import TracedHeap.Script.NativeTypes
import TracedHeap.Script.Objects
import TracedHeap.Script.Pools
import TracedHeap.Script.Registry
import TracedHeap.Script.Rooting.Run
import TracedHeap.Script.Sizes
import TracedHeap.Script.Stacks
import TracedHeap.Proofs.Acts
import TracedHeap.Proofs.BorrowGuards
import TracedHeap.Proofs.StackMarks
import TracedHeap.Proofs.ScopeExtent
import TracedHeap.Proofs.ScopeClosing
import TracedHeap.Proofs.PoolLaws
import TracedHeap.Proofs.PoolHistory
import TracedHeap.Proofs.PersistentAccounts
import TracedHeap.Proofs.RefusedUpdates
import TracedHeap.Proofs.InterruptedUpdates
import TracedHeap.Proofs.PersistentValues
import TracedHeap.Proofs.RetargetedLocals
import TracedHeap.Proofs.Inheritance
import TracedHeap.Proofs.NativeCode
import TracedHeap.Proofs.Visits
import TracedHeap.Proofs.Desks
import TracedHeap.Proofs.HookCalls
import TracedHeap.Proofs.Registry.Memory
import TracedHeap.Proofs.Registry.Ledger
import TracedHeap.Proofs.Registry.Honesty
import TracedHeap.Proofs.Registry.Closure
import TracedHeap.Proofs.Registry.Steps
import TracedHeap.Proofs.Registry.Changes
import TracedHeap.Proofs.Registry.Phases
import TracedHeap.Proofs.Registry.Termination
import TracedHeap.Proofs.Registry.Unwinding
import TracedHeap.Proofs.Registry.Descriptions
import TracedHeap.Proofs.Registry.Writes
import TracedHeap.Proofs.Registry.Permanence
import TracedHeap.Proofs.Registry.SlotTargets
import TracedHeap.Proofs.Registry.Declared
import TracedHeap.Proofs.Registry.SlotWrites
import TracedHeap.Proofs.Registry.Miscounts
import TracedHeap.Proofs.Registry.Constructions
import TracedHeap.Proofs.Registry.Brackets
import TracedHeap.Proofs.DescriptorSizes
import TracedHeap.Proofs.HealingReads
import TracedHeap.Proofs.LinkedLists

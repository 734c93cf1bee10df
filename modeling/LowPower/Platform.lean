import LowPower.Clock.Snapshot
import LowPower.Ladder

namespace LowPower

structure Platform where
  cores : Nat
  /-- Wake sources and timer of idle sessions. The constraint supplies their flags. -/
  idle : PowerControl
  suspend : PowerControl
  map : Register.Map
  layout : Clock.Layout
  constraints : List Constraint
  raisesInterrupts : Bool
  handlesSuspend : Bool

namespace Platform

structure Accepted (p : Platform) : Prop where
  cores : p.cores ≤ coreCapacity
  layout : p.layout.Valid
  constraints : p.constraints.length ≤ Ladder.capacity

def performs (p : Platform) : Bus.Event → Bool
  | .read .. | .write .. => true
  | .raise _ => p.raisesInterrupts
  | .prepare | .finish => p.handlesSuspend

end Platform

end LowPower

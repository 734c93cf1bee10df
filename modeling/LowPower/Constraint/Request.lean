import LowPower.Constraint.Basic
import LowPower.Fault

namespace LowPower.Constraint

inductive Request
  | setFlags (flags : ConstraintFlags)
  | clearFlags (flags : ConstraintFlags)
  | clearResidency
  | editForbidden (entry : Nat) (value : Word) (on : Bool)
  | flightMode (on : Bool)
  | storageClockOff (on : Bool)
  | redeliver (interrupts : List Redelivery)
deriving DecidableEq

def Request.memoryFlag? : Request → Option (ConstraintFlags × Bool)
  | .flightMode on => some (.flightMode, on)
  | .storageClockOff on => some (.storageClockOff, on)
  | _ => none

def putMemoryFlag (c : Constraint) (flag : ConstraintFlags) (on : Bool) : Constraint :=
  if c.variant = .dram then c.setFlags (c.status.flags.put flag on) else c

/-- Applies a request. One that is meant for another variant changes nothing. Clearing flags
leaves only flags with a name. -/
def apply (shape : Clock.Shape) (c : Constraint) : Request → Except Failure Constraint
  | .setFlags flags => .ok (c.setFlags (c.status.flags ∪ flags))
  | .clearFlags flags => .ok (c.setFlags (c.status.flags ∩ ~~~flags))
  | .clearResidency => .ok c.clearResidency
  | .editForbidden entry value on =>
    match c.forbidden.edit shape entry value on with
    | .error fault => .error (.broken fault)
    | .ok none => .error (.refused .invalidArgument)
    | .ok (some forbidden) => .ok { c with forbidden }
  | .flightMode on => .ok (c.putMemoryFlag .flightMode on)
  | .storageClockOff on => .ok (c.putMemoryFlag .storageClockOff on)
  | .redeliver interrupts =>
    .ok (match c.variant with
      | .bus26m _ => { c with variant := .bus26m interrupts }
      | _ => c)

end LowPower.Constraint

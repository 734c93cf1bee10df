import LowPower.Word

namespace LowPower

inductive Fault
  | addOverflow
  | subtractOverflow
  | shiftOverflow
  | remainderByZero
  | noDomainWord (number : Nat)
  | tableOverfull
  | tooManyDomains (count : Nat)
  | tooManyProbes (count : Nat)
  | tooManyCores (count : Nat)
  | registeredTwice
  | tooManyConstraints
deriving DecidableEq

def Fault.message : Fault → String
  | .addOverflow => "attempt to add with overflow"
  | .subtractOverflow => "attempt to subtract with overflow"
  | .shiftOverflow => "attempt to shift left with overflow"
  | .remainderByZero => "attempt to calculate the remainder with a divisor of zero"
  | .noDomainWord n => s!"index out of bounds: the len is 16 but the index is {n}"
  | .tableOverfull => "assertion failed: domains.len() <= COND_DOMAIN_MAX"
  | .tooManyDomains n => s!"{n} condition domains exceed the maximum of 16"
  | .tooManyProbes n => s!"{n} PLL probes do not fit in a blocked report"
  | .tooManyCores n => s!"{n} cores exceed the maximum of 16"
  | .registeredTwice => "Constraint registry registered twice"
  | .tooManyConstraints => "More than 8 constraints registered"

inductive Refusal
  | unknownConstraint (number : Word)
  | invalidArgument
deriving DecidableEq

def Refusal.message : Refusal → String
  | .unknownConstraint n => s!"Unknown constraint {n.toNat}"
  | .invalidArgument => "Invalid argument"

/-- A refusal is an answer, and a fault breaks the operation off. -/
inductive Failure
  | refused (refusal : Refusal)
  | broken (fault : Fault)
deriving DecidableEq

end LowPower

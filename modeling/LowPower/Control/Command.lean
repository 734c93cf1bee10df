import LowPower.Constraint.Reading
import LowPower.Constraint.Request

namespace LowPower

inductive Target
  | all
  | index (i : Nat)
deriving DecidableEq

namespace Target

def allWord : Word := 0xFFFFFFFF#32

def ofWord (x : Word) : Target := if x = allWord then .all else .index x.toNat

end Target

inductive Command
  | setFlavor (flavor : SuspendFlavor)
  | setWatchdog (enable : Bool) (ticks : Word)
  | queryPll
  | update (target : Target) (request : Constraint.Request)
  | query (target : Target) (query : Constraint.Query) (clear : Bool)
deriving DecidableEq

namespace Command

inductive Status
  | ok
  | bad
  /-- The answer is that of one constraint, so there is nothing to iterate over. -/
  | stop
deriving DecidableEq

namespace Status

def code : Status → Int
  | .ok => 0
  | .bad => -1
  | .stop => -2

def text : Status → String
  | .ok => "Ok"
  | .bad => "Bad"
  | .stop => "Stop"

end Status

structure Reply where
  status : Status
  value : Word64
deriving DecidableEq

def Reply.ok : Reply := ⟨.ok, 0#64⟩

def Reply.bad : Reply := ⟨.bad, 0#64⟩

end Command

def Refusal.status : Refusal → Command.Status := fun _ => .bad

end LowPower

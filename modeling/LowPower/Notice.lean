import LowPower.Control.Command
import LowPower.Wake.History

namespace LowPower

inductive Severity
  | error
  | warning
  | info
  | debug
  | trace
deriving DecidableEq

namespace Severity

def rank : Severity → Nat
  | .error => 1
  | .warning => 2
  | .info => 3
  | .debug => 4
  | .trace => 5

def text : Severity → String
  | .error => "ERROR"
  | .warning => "WARN"
  | .info => "INFO"
  | .debug => "DEBUG"
  | .trace => "TRACE"

end Severity

inductive Notice
  | noSuchCore (core : Nat)
  | rearming (core : Nat) (phase : Session.Phase)
  | arming (core : Nat) (wakeSources timer : Word) (options : SessionOptions)
  | armed (pcm : PcmSettings) (request power power2nd : Word)
  | nothingToUndo (core : Nat) (phase : Session.Phase)
  | woken (core : Nat) (reason : Wake.Reason) (record : Wake.Record)
  | snapshot (table : Clock.Table)
  | entering (name : String) (kind : Session.Kind)
  | blocked (name : String) (report : Word) (latch : Clock.Table)
  | redeliverySeen (record : Wake.Record)
  | redelivered (interrupt : Interrupt) (sources : Word)
  | flagPut (name : String) (flag : ConstraintFlags) (on : Bool)
  | registered (name : String) (index : Nat)
  | selected (choice : Option Nat) (start : Nat) (required : ResourceSet) (kind : Session.Kind)
  | enterUnknown (index : Nat)
  | leaveUnknown (index : Nat)
  | voted (resource : Resource) (count : Nat)
  | announced (announcement : Announcement) (allows : Allowance)
  | recorded (category : Wake.Category) (record : Wake.Record)
  | ready (constraints : Nat)
  | invalidEntry (kind : Session.Kind) (core : Nat)
  | unwinding (core : Nat)
  | noneEligible (core : Nat) (kind : Session.Kind)
  | invalidLeave (core : Nat)
  | commanded (command : Command)
  | rejected (request : Constraint.Request) (target : Target) (refusal : Refusal)
  | queryFailed (target : Target) (refusal : Refusal)
  | malformedCall (id action : Word64)
  | replied (reply : Command.Reply)
deriving DecidableEq

def Notice.severity : Notice → Severity
  | .noSuchCore .. | .rearming .. | .enterUnknown .. | .leaveUnknown .. | .invalidEntry ..
  | .unwinding .. | .invalidLeave .. | .rejected .. | .queryFailed .. => .warning
  | .arming .. | .armed .. | .woken .. | .blocked .. | .redeliverySeen .. | .redelivered ..
  | .ready .. => .info
  | .nothingToUndo .. | .entering .. | .flagPut .. | .registered .. | .voted ..
  | .noneEligible .. | .commanded .. | .malformedCall .. => .debug
  | .snapshot .. | .selected .. | .announced .. | .recorded .. | .replied .. => .trace

end LowPower

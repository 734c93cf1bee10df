import LowPower.Pcm
import LowPower.Resource
import LowPower.Wake.Reason

namespace LowPower

namespace SessionOptions

def vocabulary : Vocabulary 32 where
  title := "ExtOp"
  names := [(0, "CLR_26M_RECORD"), (1, "SET_WDT"), (2, "NON_GENERIC_RESOURCE_REQ"),
    (3, "SET_SUSPEND_MODE"), (4, "SET_IS_ADSP"), (5, "SRCLKEN_RC_BBLPM"), (6, "HW_S1_DETECT"),
    (7, "TRACE_LP"), (8, "TRACE_SUSPEND")]

end SessionOptions

abbrev SessionOptions := Flags SessionOptions.vocabulary

namespace SessionOptions

def clearClockRecord : SessionOptions := .single _ 0

def watchdog : SessionOptions := .single _ 1

/-- Request what the constraint keeps and nothing that was voted for. -/
def ignoreVotes : SessionOptions := .single _ 2

def audioSuspend : SessionOptions := .single _ 3

def audioActive : SessionOptions := .single _ 4

def crystalLowPower : SessionOptions := .single _ 5

def monitorS1 : SessionOptions := .single _ 6

def traceLowPower : SessionOptions := .single _ 7

def traceSuspend : SessionOptions := .single _ 8

end SessionOptions

structure Wake.Outcome where
  record : Record
  interruptStatus : Word
  sourceRequest : Word
  reason : Reason
deriving DecidableEq

namespace Session

inductive Kind
  | idle
  | suspend
deriving DecidableEq

def Kind.text : Kind → String
  | .idle => "Idle"
  | .suspend => "Suspend"

inductive Phase
  | idle
  | preparing
  | asleep
  | resuming
deriving DecidableEq

def Phase.text : Phase → String
  | .idle => "Idle"
  | .preparing => "Preparing"
  | .asleep => "Asleep"
  | .resuming => "Resuming"

end Session

structure Session where
  core : Nat
  constraint : Nat
  kind : Session.Kind
  options : SessionOptions
  request : ResourceSet
  power : PowerControl
  wake : Option Wake.Outcome
deriving DecidableEq

def Session.new (core constraint : Nat) (kind : Session.Kind) (power : PowerControl) : Session :=
  { core, constraint, kind, options := ∅, request := ∅, power, wake := none }

end LowPower

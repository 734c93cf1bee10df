import LowPower.Wake.Record

namespace LowPower.Wake

inductive Reason
  | none
  | abort
  | peripheral
  | ackCheck
  | powerMeter
  | twam
  | dvfs
  | timer
  | unknown
deriving DecidableEq

namespace Reason

def code : Reason → Nat
  | .none => 0
  | .abort => 1
  | .peripheral => 2
  | .ackCheck => 3
  | .powerMeter => 4
  | .twam => 5
  | .dvfs => 6
  | .timer => 7
  | .unknown => 8

def text : Reason → String
  | .none => "None"
  | .abort => "Abort"
  | .peripheral => "Peripheral"
  | .ackCheck => "AckCheck"
  | .powerMeter => "Pmsr"
  | .twam => "Twam"
  | .dvfs => "Dvfsrc"
  | .timer => "Timer"
  | .unknown => "Unknown"

theorem code_injective {a b : Reason} (h : a.code = b.code) : a = b := by
  revert h
  cases a <;> cases b <;> decide

def timerEvent : Word := 0x00000001#32

def miscEvent : Word := 0x00000002#32

def abortFlags : Word := 0xC0000000#32

def s1Flags : Word := 0x00300000#32

def dvfsSource : Word := 0x00010000#32
def twamSource : Word := 0x00020000#32
def powerMeterSources : Word := 0x001C0000#32
def ackCheckSources : Word := 0x03E00000#32

def sees (word mask : Word) : Bool := word &&& mask != 0#32

/-- An abort outranks every wake event, a peripheral every other event, and the miscellaneous
sources, which count only together with their event, outrank the timer. -/
def decode (r : Record) : Reason :=
  if sees r.debugFlag abortFlags then .abort
  else if sees r.event (~~~(timerEvent ||| miscEvent)) then .peripheral
  else if sees r.event miscEvent && sees r.misc ackCheckSources then .ackCheck
  else if sees r.event miscEvent && sees r.misc powerMeterSources then .powerMeter
  else if sees r.event miscEvent && sees r.misc twamSource then .twam
  else if sees r.event miscEvent && sees r.misc dvfsSource then .dvfs
  else if sees r.event timerEvent then .timer
  else .unknown

end Reason

end LowPower.Wake

import LowPower.Flags

namespace LowPower

namespace ConstraintFlags

def vocabulary : Vocabulary 16 where
  title := "ValidFlags"
  names := [(0, "SW"), (1, "FW"), (2, "RESIDENCY"), (3, "COND_CHECK"), (4, "COND_LATCH"),
    (5, "UFS_H8"), (6, "FLIGHT_MODE"), (7, "XSOC_BBLPM"), (8, "TRACE_EVENT")]

end ConstraintFlags

abbrev ConstraintFlags := Flags ConstraintFlags.vocabulary

namespace ConstraintFlags

/-- Enabled by static configuration. -/
def software : ConstraintFlags := .single _ 0

/-- Enabled since the firmware of the other processors is ready. -/
def firmware : ConstraintFlags := .single _ 1

def residency : ConstraintFlags := .single _ 2

def checkClocks : ConstraintFlags := .single _ 3

def latchClocks : ConstraintFlags := .single _ 4

def storageClockOff : ConstraintFlags := .single _ 5

def flightMode : ConstraintFlags := .single _ 6

def crystalSupport : ConstraintFlags := .single _ 7

def traceIdle : ConstraintFlags := .single _ 8

def ready : ConstraintFlags := software ∪ firmware

def crystalLowPower : ConstraintFlags := storageClockOff ∪ flightMode ∪ crystalSupport

def isReady (f : ConstraintFlags) : Bool := f.contains ready

def allowsCrystalLowPower (f : ConstraintFlags) : Bool := f.contains crystalLowPower

end ConstraintFlags

namespace Allowance

def vocabulary : Vocabulary 32 where
  title := "AllowFlags"
  names := [(0, "CPU_BUCK_OFF"), (1, "DRAM_S0"), (2, "DRAM_S1"), (3, "VCORE_LP"),
    (4, "INFRA_PDN"), (5, "BUS26M_OFF"), (6, "AP_SUSPEND"), (7, "BBLPM"), (8, "XO_UFS"),
    (9, "GPS"), (10, "LVTS")]

end Allowance

abbrev Allowance := Flags Allowance.vocabulary

namespace Allowance

def cpuBuckOff : Allowance := .single _ 0
def dramS0 : Allowance := .single _ 1
def dramS1 : Allowance := .single _ 2
def coreVoltageLow : Allowance := .single _ 3
def infraOff : Allowance := .single _ 4
def bus26mOff : Allowance := .single _ 5

def systemSuspend : Allowance := .single _ 6

def crystalLowPower : Allowance := .single _ 7
def storageCrystalOff : Allowance := .single _ 8
def gpsIdle : Allowance := .single _ 9
def thermalParked : Allowance := .single _ 10

end Allowance

inductive Announcement
  | enter
  | leave
deriving DecidableEq

namespace Announcement

def tag : Announcement → Word
  | .enter => 0x454E0000#32
  | .leave => 0x4C450000#32

def word (a : Announcement) (allows : Allowance) : Word :=
  a.tag ||| (allows.bits &&& 0x0000FFFF#32)

def text : Announcement → String
  | .enter => "Enter"
  | .leave => "Leave"

end Announcement

end LowPower

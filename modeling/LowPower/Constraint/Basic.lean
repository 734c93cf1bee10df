import LowPower.Clock.Table
import LowPower.Constraint.Flags
import LowPower.Interrupt
import LowPower.Session

/-!
A constraint is one selectable depth of power-down. Its variant fixes what it keeps on, what it
allows and how it is programmed; its status and its forbidden table change at run time.
-/

namespace LowPower

namespace Constraint

inductive Variant
  /-- The 26 MHz bus clock is stopped. Interrupts whose edges are lost are raised again. -/
  | bus26m (redeliveries : List Redelivery)
  | syspll
  | dram
  | cpuBuckLdo
deriving DecidableEq

namespace Variant

def name : Variant → String
  | .bus26m _ => "bus26m"
  | .syspll => "syspll"
  | .dram => "dram"
  | .cpuBuckLdo => "cpu_buck_ldo"

def keeps : Variant → ResourceSet
  | .bus26m _ => ∅
  | .syspll => Resource.bus26m.toSet
  | .dram => Resource.syspll.toSet ∪ Resource.infra.toSet ∪ Resource.bus26m.toSet
  | .cpuBuckLdo => .all

def initial : Variant → ConstraintFlags
  | .bus26m _ => .software ∪ .checkClocks ∪ .latchClocks
  | .syspll | .dram => .software ∪ .checkClocks ∪ .latchClocks ∪ .crystalSupport
  | .cpuBuckLdo => .software

def managesCrystal : Variant → Bool
  | .syspll | .dram => true
  | .bus26m _ | .cpuBuckLdo => false

def allows : Variant → Allowance
  | .bus26m _ => .cpuBuckOff ∪ .dramS0 ∪ .dramS1 ∪ .coreVoltageLow ∪ .thermalParked ∪ .bus26mOff
  | .syspll => .cpuBuckOff ∪ .dramS0 ∪ .dramS1 ∪ .coreVoltageLow
  | .dram => .dramS0 ∪ .dramS1 ∪ .cpuBuckOff
  | .cpuBuckLdo => .cpuBuckOff

def idleFlags : PcmFlags :=
  .keepInfra ∪ .noVoltageScaling ∪ .noFrequencyScaling ∪ .keepSram ∪ .keepPowerAck

def idlePcm : Variant → PcmSettings
  | .bus26m _ => ⟨idleFlags ∪ .tiaWorkaround ∪ .thermalWorkaround, .keepModemClock⟩
  | .syspll => ⟨idleFlags ∪ .pmicControl ∪ .secondClockRequest, ∅⟩
  | .dram | .cpuBuckLdo => ⟨idleFlags, ∅⟩

def options : Variant → Session.Kind → SessionOptions
  | .bus26m _, .idle | .syspll, .idle | .dram, .idle => .monitorS1
  | .cpuBuckLdo, .idle => ∅
  | .bus26m _, .suspend => .watchdog ∪ .monitorS1
  | .syspll, .suspend => .watchdog ∪ .monitorS1 ∪ .audioSuspend
  | .dram, .suspend => .clearClockRecord ∪ .watchdog ∪ .monitorS1
  | .cpuBuckLdo, .suspend => .clearClockRecord ∪ .watchdog

def redeliveries : Variant → List Redelivery
  | .bus26m irqs => irqs
  | .syspll | .dram | .cpuBuckLdo => []

end Variant

structure Status where
  flags : ConstraintFlags
  blocked : Word
  /-- How often the constraint was entered, modulo the size of a word. -/
  entries : Word
  residency : Word64
  /-- What blocked at the latest check which was latched. -/
  latch : Clock.Table
deriving DecidableEq

end Constraint

structure Constraint where
  variant : Constraint.Variant
  status : Constraint.Status
  forbidden : Clock.Table
deriving DecidableEq

namespace Constraint

def new (variant : Variant) (forbidden : Clock.Table) : Constraint where
  variant := variant
  status := ⟨∅, 0#32, 0#32, 0#64, .empty⟩
  forbidden := forbidden

def name (c : Constraint) : String := c.variant.name

def keeps (c : Constraint) : ResourceSet := c.variant.keeps

def crystalMode (c : Constraint) : Bool :=
  c.variant.managesCrystal && c.status.flags.allowsCrystalLowPower

def allows (c : Constraint) : Allowance :=
  if c.crystalMode then c.variant.allows ∪ .crystalLowPower else c.variant.allows

def options (c : Constraint) : Session.Kind → SessionOptions
  | .idle =>
    if c.crystalMode then c.variant.options .idle ∪ .crystalLowPower else c.variant.options .idle
  | .suspend => c.variant.options .suspend

def setFlags (c : Constraint) (flags : ConstraintFlags) : Constraint :=
  { c with status.flags := flags }

def init (c : Constraint) : Constraint := c.setFlags (c.status.flags ∪ c.variant.initial)

def check (live : Clock.Table) (c : Constraint) : Constraint :=
  let blocking := live ∩ c.forbidden
  { c with
    status.blocked := blocking.report
    status.latch :=
      if c.status.flags.contains ConstraintFlags.latchClocks then blocking else c.status.latch }

def eligible (c : Constraint) : Bool :=
  c.status.flags.isReady &&
    !(c.status.blocked != 0#32 && c.status.flags.contains ConstraintFlags.checkClocks)

def honours (c : Constraint) (required : ResourceSet) : Bool := c.keeps.contains required

def countEntry (c : Constraint) : Constraint :=
  { c with status.entries := c.status.entries + 1#32 }

def addResidency (c : Constraint) (ticks : Word) : Except Fault Constraint :=
  if c.status.residency.uaddOverflow (ticks.setWidth 64) then .error .addOverflow
  else .ok { c with status.residency := c.status.residency + ticks.setWidth 64 }

def clearResidency (c : Constraint) : Constraint :=
  { c with status.residency := 0#64 }

end Constraint

end LowPower

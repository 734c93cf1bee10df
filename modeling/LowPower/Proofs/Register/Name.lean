import LowPower.Bus
import LowPower.Register.Map
import Mathlib.Data.List.Nodup

namespace LowPower.Register

inductive Name
  | powerStatus
  | powerStatus2nd
  | pcmControl
  | timerValue
  | watchdogValue
  | wakeMask
  | kick
  | sourceRequest
  | swFlag0
  | swFlag1
  | coreScratch
  | coreMailbox
  | clockRecord
  | crystal
  | s1Control
  | s1Status
  | externalClear
  | wakeEvent
  | wakeEventExt
  | wakeStatus
  | wakeMisc
  | timerBackup
  | pcmReg13
  | requestStatus
  | debugFlag
  | debugFlag1
  | interruptStatus
  | pllMode
  | allowMailbox
  | eventMailbox
  | powerDownMailbox
deriving DecidableEq

namespace Name

def all : List Name :=
  [.powerStatus, .powerStatus2nd, .pcmControl, .timerValue, .watchdogValue, .wakeMask, .kick,
    .sourceRequest, .swFlag0, .swFlag1, .coreScratch, .coreMailbox, .clockRecord, .crystal,
    .s1Control, .s1Status, .externalClear, .wakeEvent, .wakeEventExt, .wakeStatus, .wakeMisc,
    .timerBackup, .pcmReg13, .requestStatus, .debugFlag, .debugFlag1, .interruptStatus, .pllMode,
    .allowMailbox, .eventMailbox, .powerDownMailbox]

theorem mem_all (r : Name) : r ∈ all := by cases r <;> decide

end Name

def Map.at (m : Map) : Name → Address
  | .powerStatus => m.powerStatus
  | .powerStatus2nd => m.powerStatus2nd
  | .pcmControl => m.pcmControl
  | .timerValue => m.timerValue
  | .watchdogValue => m.watchdogValue
  | .wakeMask => m.wakeMask
  | .kick => m.kick
  | .sourceRequest => m.sourceRequest
  | .swFlag0 => m.swFlag0
  | .swFlag1 => m.swFlag1
  | .coreScratch => m.coreScratch
  | .coreMailbox => m.coreMailbox
  | .clockRecord => m.clockRecord
  | .crystal => m.crystal
  | .s1Control => m.s1Control
  | .s1Status => m.s1Status
  | .externalClear => m.externalClear
  | .wakeEvent => m.wakeEvent
  | .wakeEventExt => m.wakeEventExt
  | .wakeStatus => m.wakeStatus
  | .wakeMisc => m.wakeMisc
  | .timerBackup => m.timerBackup
  | .pcmReg13 => m.pcmReg13
  | .requestStatus => m.requestStatus
  | .debugFlag => m.debugFlag
  | .debugFlag1 => m.debugFlag1
  | .interruptStatus => m.interruptStatus
  | .pllMode => m.pllMode
  | .allowMailbox => m.allowMailbox
  | .eventMailbox => m.eventMailbox
  | .powerDownMailbox => m.powerDownMailbox

theorem Map.addresses_eq_map_at (m : Map) : m.addresses = Name.all.map m.at := rfl

theorem Map.Distinct.at_injective {m : Map} (h : m.Distinct) : Function.Injective m.at := by
  intro a b hab
  rw [Map.Distinct, Map.addresses_eq_map_at] at h
  exact List.inj_on_of_nodup_map h (Name.mem_all a) (Name.mem_all b) hab

theorem Map.Distinct.at_eq_iff {m : Map} (h : m.Distinct) {a b : Name} :
    m.at a = m.at b ↔ a = b :=
  h.at_injective.eq_iff

end LowPower.Register

import LowPower.Word

namespace LowPower.Register

structure Map where
  powerStatus : Address
  powerStatus2nd : Address
  pcmControl : Address
  timerValue : Address
  watchdogValue : Address
  wakeMask : Address
  kick : Address
  sourceRequest : Address
  swFlag0 : Address
  swFlag1 : Address
  coreScratch : Address
  coreMailbox : Address
  clockRecord : Address
  crystal : Address
  s1Control : Address
  s1Status : Address
  externalClear : Address
  wakeEvent : Address
  wakeEventExt : Address
  wakeStatus : Address
  wakeMisc : Address
  timerBackup : Address
  pcmReg13 : Address
  requestStatus : Address
  debugFlag : Address
  debugFlag1 : Address
  interruptStatus : Address
  pllMode : Address
  allowMailbox : Address
  eventMailbox : Address
  powerDownMailbox : Address
deriving DecidableEq

def Map.addresses (m : Map) : List Address :=
  [m.powerStatus, m.powerStatus2nd, m.pcmControl, m.timerValue, m.watchdogValue, m.wakeMask,
    m.kick, m.sourceRequest, m.swFlag0, m.swFlag1, m.coreScratch, m.coreMailbox, m.clockRecord,
    m.crystal, m.s1Control, m.s1Status, m.externalClear, m.wakeEvent, m.wakeEventExt,
    m.wakeStatus, m.wakeMisc, m.timerBackup, m.pcmReg13, m.requestStatus, m.debugFlag,
    m.debugFlag1, m.interruptStatus, m.pllMode, m.allowMailbox, m.eventMailbox,
    m.powerDownMailbox]

def Map.Distinct (m : Map) : Prop := m.addresses.Nodup

end LowPower.Register

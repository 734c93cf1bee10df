import LowPower.Watchdog

/-!
Programming the hardware for one low-power entry, and undoing it after the wake. A core is asleep
from the end of `arm` to the start of `disarm`, and `disarm` does nothing to a core which is not
asleep.
-/

namespace LowPower

def coreCapacity : Nat := 16

structure Sequencer where
  phases : Vector Session.Phase coreCapacity
  lastWake : Option Wake.Outcome
  history : Wake.History
deriving DecidableEq

def SessionOptions.category? (options : SessionOptions) : Option Wake.Category :=
  if options.contains traceLowPower then some .lowPower
  else if options.contains traceSuspend then some .suspend
  else none

namespace Sequencer

def new : Sequencer := ⟨Vector.replicate coreCapacity .idle, none, .empty⟩

def phase (s : Sequencer) (core : Nat) : Session.Phase := s.phases[core]?.getD .idle

def setPhase (core : Nat) (phase : Session.Phase) (s : Sequencer) : Sequencer :=
  { s with phases := s.phases.setIfInBounds core phase }

theorem phase_setPhase (s : Sequencer) (core other : Nat) (p : Session.Phase) :
    (s.setPhase core p).phase other =
      if core = other ∧ core < coreCapacity then p else s.phase other := by
  by_cases h : core = other
  · subst h
    by_cases hc : core < coreCapacity <;> simp [phase, setPhase, hc]
  · simp [phase, setPhase, h]

abbrev Action := StateT Sequencer Bus.Action

def request (session : Session) (votes : ResourceSet) : ResourceSet :=
  if session.options.contains SessionOptions.ignoreVotes then session.request
  else session.request ∪ votes

def programWake (map : Register.Map) (session : Session) : Bus.Action Unit := do
  Bus.write map.coreScratch (BitVec.twoPow 32 session.core)
  Bus.write map.coreMailbox (BitVec.ofNat 32 session.core)
  Bus.write map.wakeMask (~~~session.power.wakeSources)
  if session.power.timerTicks ≠ 0#32 then
    Bus.write map.timerValue session.power.timerTicks
    Watchdog.putControl map Watchdog.timerEnable true

def programFlags (map : Register.Map) (session : Session) (votes : ResourceSet) :
    Bus.Action Unit := do
  Bus.write map.swFlag0 session.power.pcm.flags.bits
  Bus.write map.swFlag1 session.power.pcm.flags1.bits
  Bus.write map.sourceRequest (request session votes).bits

def programOptions (map : Register.Map) (options : SessionOptions) : Bus.Action Unit := do
  if options.contains SessionOptions.clearClockRecord then Bus.write map.clockRecord 1#32
  if options.contains SessionOptions.watchdog then Watchdog.arm map
  if options.contains SessionOptions.crystalLowPower then Bus.write map.crystal 1#32
  if options.contains SessionOptions.monitorS1 then Bus.setBits map.s1Control 1#32

/-- Starts the low-power sequence. A system suspend does not use the timer. -/
def kick (map : Register.Map) (kind : Session.Kind) : Bus.Action Unit := do
  Bus.write map.kick 1#32
  Bus.write map.kick 0#32
  if kind = .suspend then Watchdog.putControl map Watchdog.timerEnable false

/-- Reports what was programmed, as it reads back. The four reads are made for the two reports and
for nothing else: a log which leaves out what is only informative does not make them. Here the log
is taken to show it. -/
def reportArmed (map : Register.Map) (session : Session) : Bus.Action Unit := do
  let timer ← Bus.read map.timerValue
  Bus.note (.arming session.core session.power.wakeSources timer session.options)
  let request ← Bus.read map.sourceRequest
  let power ← Bus.read map.powerStatus
  let power2nd ← Bus.read map.powerStatus2nd
  Bus.note (.armed session.power.pcm request power power2nd)

def program (map : Register.Map) (session : Session) (votes : ResourceSet) : Bus.Action Unit := do
  programWake map session
  programFlags map session votes
  programOptions map session.options
  kick map session.kind
  reportArmed map session

def arm (map : Register.Map) (session : Session) (votes : ResourceSet) : Action Unit := do
  if session.core < coreCapacity then
    let phase := (← get).phase session.core
    if phase ≠ .idle then Bus.note (.rearming session.core phase)
    modify (setPhase session.core .preparing)
    program map session votes
    modify (setPhase session.core .asleep)
  else Bus.note (.noSuchCore session.core)

/-- Switches off what the options asked for. The result is whether the edge monitor saw memory
enter S1. -/
def undoOptions (map : Register.Map) (options : SessionOptions) : Bus.Action Bool := do
  if options.contains SessionOptions.watchdog then Watchdog.disarm map
  if options.contains SessionOptions.crystalLowPower then Bus.write map.crystal 0#32
  let seen ←
    if options.contains SessionOptions.monitorS1 then do
      Bus.clearBits map.s1Control 1#32
      pure ((← Bus.read map.s1Status).getLsbD 0)
    else pure false
  Bus.write map.externalClear 1#32
  return seen

def capture (map : Register.Map) (session : Session) : Bus.Action Wake.Record := do
  let event ← Bus.read map.wakeEvent
  let eventExt ← Bus.read map.wakeEventExt
  let rawStatus ← Bus.read map.wakeStatus
  let misc ← Bus.read map.wakeMisc
  let timer ← Bus.read map.timerBackup
  let pcmReg13 ← Bus.read map.pcmReg13
  let requestStatus ← Bus.read map.requestStatus
  let debugFlag ← Bus.read map.debugFlag
  let debugFlag1 ← Bus.read map.debugFlag1
  let swFlag0 ← Bus.read map.swFlag0
  let swFlag1 ← Bus.read map.swFlag1
  return {
    constraint := BitVec.ofNat 32 session.constraint
    core := BitVec.ofNat 32 session.core
    event, eventExt, rawStatus, misc, timer, pcmReg13, requestStatus, debugFlag, debugFlag1,
    swFlag0, swFlag1
    reason := 0#32 }

def markS1 (map : Register.Map) (seen : Bool) (record : Wake.Record) :
    Bus.Action Wake.Record := do
  if seen then
    let marked := { record with debugFlag := record.debugFlag ||| Wake.Reason.s1Flags }
    Bus.write map.debugFlag marked.debugFlag
    return marked
  else return record

def captureWake (map : Register.Map) (session : Session) :
    Bus.Action (Wake.Record × Wake.Reason) := do
  let seen ← undoOptions map session.options
  let captured ← markS1 map seen (← capture map session)
  let reason := Wake.Reason.decode captured
  return ({ captured with reason := BitVec.ofNat 32 reason.code }, reason)

def concludeWake (map : Register.Map) (core : Nat) (record : Wake.Record) (reason : Wake.Reason) :
    Bus.Action Wake.Outcome := do
  let interruptStatus ← Bus.read map.interruptStatus
  let sourceRequest ← Bus.read map.sourceRequest
  Bus.note (.woken core reason record)
  return { record, interruptStatus, sourceRequest, reason }

def recordWake (category : Wake.Category) (record : Wake.Record) : Action Unit := do
  Bus.note (.recorded category record)
  modify fun s => { s with history := s.history.record category record }

/-- Undoes the programming of a session and captures why the core woke. Nothing happens if the
core is not asleep, so a session may be disarmed more than once. -/
def disarm (map : Register.Map) (session : Session) : Action (Option Wake.Outcome) := do
  let phase := (← get).phase session.core
  if phase = .asleep then
    modify (setPhase session.core .resuming)
    let (record, reason) ← captureWake map session
    if let some category := session.options.category? then recordWake category record
    let outcome ← concludeWake map session.core record reason
    modify fun s => { s with lastWake := some outcome }.setPhase session.core .idle
    return some outcome
  else
    Bus.note (.nothingToUndo session.core phase)
    return none

end Sequencer

end LowPower

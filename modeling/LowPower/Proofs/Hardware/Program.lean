import LowPower.Proofs.Flags
import LowPower.Proofs.Hardware.View
import LowPower.Proofs.Sequencer.Report

namespace LowPower.Hardware

open Bus (Acts)

def arm (session : Session) (votes : ResourceSet) (hw : Hardware) : Hardware where
  crystal := if session.options.contains SessionOptions.crystalLowPower then 1#32 else hw.crystal
  monitor := hw.monitor || session.options.contains SessionOptions.monitorS1
  watchdog := hw.watchdog || session.options.contains SessionOptions.watchdog
  powerDown := if session.kind = .suspend then Constraint.powerDownWord else hw.powerDown
  request := Sequencer.request session votes

def disarm (session : Session) (hw : Hardware) : Hardware where
  crystal := if session.options.contains SessionOptions.crystalLowPower then 0#32 else hw.crystal
  monitor := hw.monitor && !session.options.contains SessionOptions.monitorS1
  watchdog := hw.watchdog && !session.options.contains SessionOptions.watchdog
  powerDown := if session.kind = .suspend then 0#32 else hw.powerDown
  request := hw.request

theorem disarm_ending (c : Constraint) (session : Session) :
    disarm (c.ending session) = disarm session := by
  have hkept : ∀ option : SessionOptions, SessionOptions.traceLowPower ∩ option = ∅ →
      SessionOptions.traceSuspend ∩ option = ∅ →
      (c.ending session).options.contains option = session.options.contains option := by
    intro option hlow hsuspend
    refine session.options.contains_union_of_disjoint ?_
    cases session.kind with
    | idle =>
      by_cases ht : c.status.flags.contains ConstraintFlags.traceIdle = true
      · simpa [Constraint.traceOptions, ht] using hlow
      · simp only [Constraint.traceOptions, ht]
        exact Flags.ext BitVec.zero_and
    | suspend => exact hsuspend
  funext hw
  simp only [disarm, hkept SessionOptions.crystalLowPower (by decide) (by decide),
    hkept SessionOptions.monitorS1 (by decide) (by decide),
    hkept SessionOptions.watchdog (by decide) (by decide)]
  rfl

namespace Memory

variable {map : Register.Map} {device : Device}

theorem unseenControl (memory : Memory map device) (bits : Word) (h : bits.getLsbD 4 = false)
    (on : Bool) : Acts device (seen map device) (Watchdog.putControl map bits on) id :=
  (memory.acts_putControl bits on).congr fun hw => by
    cases on <;> simp [h, -BitVec.getLsbD_eq_getElem]

theorem acts_armWatchdog (memory : Memory map device) :
    Acts device (seen map device) (Watchdog.arm map) fun hw => { hw with watchdog := true } := by
  rw [Watchdog.arm_eq]
  have enable : Acts device (seen map device)
      (Watchdog.putControl map Watchdog.watchdogEnable true) fun hw =>
        { hw with watchdog := true } :=
    (memory.acts_putControl Watchdog.watchdogEnable true).congr fun hw => by
      simp [show Watchdog.watchdogEnable.getLsbD 4 = true by decide, -BitVec.getLsbD_eq_getElem]
  exact .before (memory.unseenControl _ (by decide) _) fun _ => .before (memory.read _) fun _ =>
    .before (.when_id fun _ => memory.unseen .timerValue (by decide) _) fun _ =>
    .before (memory.unseen .watchdogValue (by decide) _) fun _ => enable

theorem acts_disarmWatchdog (memory : Memory map device) :
    Acts device (seen map device) (Watchdog.disarm map) fun hw => { hw with watchdog := false } :=
  (memory.acts_putControl Watchdog.watchdogEnable false).congr fun hw => by
    simp [show Watchdog.watchdogEnable.getLsbD 4 = true by decide, -BitVec.getLsbD_eq_getElem]

theorem acts_putWatchdog (memory : Memory map device) (on : Bool) :
    Acts device (seen map device) (Watchdog.put map on) fun hw => { hw with watchdog := on } := by
  cases on with
  | true => exact memory.acts_armWatchdog
  | false => exact memory.acts_disarmWatchdog

theorem acts_programWake (memory : Memory map device) (session : Session) :
    Acts device (seen map device) (Sequencer.programWake map session) id := by
  rw [Sequencer.programWake_eq]
  exact .before (memory.unseen .coreScratch (by decide) _) fun _ =>
    .before (memory.unseen .coreMailbox (by decide) _) fun _ =>
    .before (memory.unseen .wakeMask (by decide) _) fun _ => .when_id fun _ =>
    .before (memory.unseen .timerValue (by decide) _) fun _ =>
    memory.unseenControl _ (by decide) _

theorem acts_programFlags (memory : Memory map device) (session : Session) (votes : ResourceSet) :
    Acts device (seen map device) (Sequencer.programFlags map session votes) fun hw =>
      { hw with request := Sequencer.request session votes } :=
  .before (memory.unseen .swFlag0 (by decide) _) fun _ =>
    .before (memory.unseen .swFlag1 (by decide) _) fun _ => memory.acts_write .sourceRequest _

theorem acts_programOptions (memory : Memory map device) (options : SessionOptions) :
    Acts device (seen map device) (Sequencer.programOptions map options) fun hw => { hw with
      crystal := if options.contains SessionOptions.crystalLowPower then 1#32 else hw.crystal
      monitor := hw.monitor || options.contains SessionOptions.monitorS1
      watchdog := hw.watchdog || options.contains SessionOptions.watchdog } := by
  rw [Sequencer.programOptions_eq]
  refine Acts.congr (.before (.when_id fun _ => memory.unseen .clockRecord (by decide) _) fun _ =>
    .bind (.when fun _ => memory.acts_armWatchdog) fun _ =>
    .bind (.when fun _ => memory.acts_write .crystal 1#32) fun _ =>
    .when fun _ => memory.acts_setMonitor) fun hw => ?_
  generalize options.contains SessionOptions.watchdog = watchdog
  generalize options.contains SessionOptions.crystalLowPower = crystal
  generalize options.contains SessionOptions.monitorS1 = monitor
  cases watchdog <;> cases crystal <;> cases monitor <;> simp [write]

theorem acts_kick (memory : Memory map device) (kind : Session.Kind) :
    Acts device (seen map device) (Sequencer.kick map kind) id := by
  rw [Sequencer.kick_eq]
  exact .before (memory.unseen .kick (by decide) _) fun _ =>
    .before (memory.unseen .kick (by decide) _) fun _ => .when_id fun _ =>
    memory.unseenControl _ (by decide) _

theorem acts_program (memory : Memory map device) (session : Session) (votes : ResourceSet) :
    Acts device (seen map device) (Sequencer.program map session votes) fun hw =>
      { arm session votes hw with powerDown := hw.powerDown } :=
  memory.seesOnly.program (memory.acts_programWake session) (memory.acts_programFlags session votes)
    (memory.acts_programOptions session.options) (memory.acts_kick session.kind)

theorem acts_launch (memory : Memory map device) (votes : ResourceSet) (c : Constraint)
    (session : Session) :
    Acts device (seen map device) (c.launch map votes session) (arm (c.prepare session) votes) := by
  refine Acts.congr (memory.seesOnly.launch (by decide) (by decide)
    (memory.acts_write .powerDownMailbox _) (memory.acts_program _ votes)) fun hw => ?_
  by_cases hk : session.kind = .suspend
  · simp [hk, arm, write]
  · simp [hk, arm]

theorem acts_stopMonitor (memory : Memory map device) (options : SessionOptions) :
    Acts device (seen map device) (Sequencer.stopMonitor map options) fun hw =>
      { hw with monitor := hw.monitor && !options.contains SessionOptions.monitorS1 } := by
  unfold Sequencer.stopMonitor
  by_cases h : options.contains SessionOptions.monitorS1 = true
  · rw [if_pos h]
    exact Acts.congr (.after memory.acts_clearMonitor fun _ => .before (memory.read _) fun _ =>
      .pure _) fun hw => by simp [h]
  · rw [if_neg h]
    exact (Acts.pure _).congr fun hw => by simp [h]

theorem acts_undoOptions (memory : Memory map device) (options : SessionOptions) :
    Acts device (seen map device) (Sequencer.undoOptions map options) fun hw => { hw with
      crystal := if options.contains SessionOptions.crystalLowPower then 0#32 else hw.crystal
      monitor := hw.monitor && !options.contains SessionOptions.monitorS1
      watchdog := hw.watchdog && !options.contains SessionOptions.watchdog } := by
  rw [Sequencer.undoOptions_eq]
  refine Acts.congr (.bind (.when fun _ => memory.acts_disarmWatchdog) fun _ =>
    .bind (.when fun _ => memory.acts_write .crystal 0#32) fun _ =>
    .after (memory.acts_stopMonitor options) fun _ =>
    .before (memory.unseen .externalClear (by decide) _) fun _ => .pure _) fun hw => ?_
  generalize options.contains SessionOptions.watchdog = watchdog
  generalize options.contains SessionOptions.crystalLowPower = crystal
  cases watchdog <;> cases crystal <;> simp [write]

theorem acts_wakeUp (memory : Memory map device) (session : Session) :
    Acts device (seen map device) (Sequencer.wakeUp map session) fun hw =>
      { disarm session hw with powerDown := hw.powerDown } :=
  memory.seesOnly.wakeUp (by decide) (memory.acts_undoOptions session.options)

theorem acts_resume (memory : Memory map device) (c : Constraint) (kind : Session.Kind)
    (outcome : Wake.Outcome) :
    Acts device (seen map device) (c.resume map kind outcome) fun hw =>
      { hw with powerDown := if kind = .suspend then 0#32 else hw.powerDown } := by
  refine Acts.congr (memory.seesOnly.resume c kind outcome (by decide) (by decide)
    (memory.acts_write .powerDownMailbox 0#32)) fun hw => ?_
  by_cases hk : kind = .suspend
  · simp [hk, write]
  · simp [hk]

end Memory

end LowPower.Hardware

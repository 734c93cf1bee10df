import LowPower.Proofs.Arbiter.Deed

namespace LowPower

open Bus (Passive Reports when ite_bind_eq_when_bind)

namespace Bus.Reports

variable {φ : Notice → Prop}

theorem setBits (a : Address) (bits : Word) : Reports φ (setBits a bits) :=
  .bind (Reports.read a) fun _ => Reports.write a _

theorem clearBits (a : Address) (bits : Word) : Reports φ (clearBits a bits) :=
  .bind (Reports.read a) fun _ => Reports.write a _

end Bus.Reports

namespace Watchdog

variable {φ : Notice → Prop} (map : Register.Map)

theorem reports_putControl (bits : Word) (on : Bool) : Reports φ (putControl map bits on) :=
  .bind (Reports.read _) fun _ => Reports.write _ _

theorem arm_eq : arm map = (do
    putControl map watchdogWakes false
    let timer ← Bus.read map.timerValue
    when (timerMax < timer) do Bus.write map.timerValue timerMax
    Bus.write map.watchdogValue (clamp timer + margin)
    putControl map watchdogEnable true) := by
  simp only [arm, ite_bind_eq_when_bind]

theorem reports_arm : Reports φ (arm map) := by
  rw [arm_eq]
  exact .bind (reports_putControl map _ _) fun _ => .bind (Reports.read _) fun _ =>
    .bind (.when fun _ => Reports.write _ _) fun _ => .bind (Reports.write _ _) fun _ =>
    reports_putControl map _ _

theorem reports_disarm : Reports φ (disarm map) := reports_putControl map _ _

theorem reports_put (on : Bool) : Reports φ (put map on) := by
  cases on with
  | true => exact reports_arm map
  | false => exact reports_disarm map

end Watchdog

namespace Sequencer

variable (map : Register.Map)

theorem programWake_eq (session : Session) : programWake map session = (do
    Bus.write map.coreScratch (BitVec.twoPow 32 session.core)
    Bus.write map.coreMailbox (BitVec.ofNat 32 session.core)
    Bus.write map.wakeMask (~~~session.power.wakeSources)
    when (session.power.timerTicks ≠ 0#32) do
      Bus.write map.timerValue session.power.timerTicks
      Watchdog.putControl map Watchdog.timerEnable true) := rfl

theorem programOptions_eq (options : SessionOptions) : programOptions map options = (do
    when (options.contains SessionOptions.clearClockRecord) do Bus.write map.clockRecord 1#32
    when (options.contains SessionOptions.watchdog) do Watchdog.arm map
    when (options.contains SessionOptions.crystalLowPower) do Bus.write map.crystal 1#32
    when (options.contains SessionOptions.monitorS1) do Bus.setBits map.s1Control 1#32) := by
  simp only [programOptions, ite_bind_eq_when_bind]
  rfl

theorem kick_eq (kind : Session.Kind) : kick map kind = (do
    Bus.write map.kick 1#32
    Bus.write map.kick 0#32
    when (kind = .suspend) do Watchdog.putControl map Watchdog.timerEnable false) := rfl

def stopMonitor (options : SessionOptions) : Bus.Action Bool :=
  if options.contains SessionOptions.monitorS1 then do
    Bus.clearBits map.s1Control 1#32
    return (← Bus.read map.s1Status).getLsbD 0
  else return false

theorem undoOptions_eq (options : SessionOptions) : undoOptions map options = (do
    when (options.contains SessionOptions.watchdog) do Watchdog.disarm map
    when (options.contains SessionOptions.crystalLowPower) do Bus.write map.crystal 0#32
    let seen ← stopMonitor map options
    Bus.write map.externalClear 1#32
    return seen) := by
  by_cases h : options.contains SessionOptions.monitorS1 = true
  · simp only [undoOptions, ite_bind_eq_when_bind, stopMonitor, if_pos h]
    rfl
  · simp only [undoOptions, ite_bind_eq_when_bind, stopMonitor, if_neg h]

variable {φ : Notice → Prop}

theorem reports_programWake (session : Session) : Reports φ (programWake map session) := by
  rw [programWake_eq]
  exact .bind (Reports.write _ _) fun _ => .bind (Reports.write _ _) fun _ =>
    .bind (Reports.write _ _) fun _ => .when fun _ => .bind (Reports.write _ _) fun _ =>
    Watchdog.reports_putControl map _ _

theorem reports_programFlags (session : Session) (votes : ResourceSet) :
    Reports φ (programFlags map session votes) :=
  .bind (Reports.write _ _) fun _ => .bind (Reports.write _ _) fun _ => Reports.write _ _

theorem reports_programOptions (options : SessionOptions) :
    Reports φ (programOptions map options) := by
  rw [programOptions_eq]
  exact .bind (.when fun _ => Reports.write _ _) fun _ =>
    .bind (.when fun _ => Watchdog.reports_arm map) fun _ =>
    .bind (.when fun _ => Reports.write _ _) fun _ => .when fun _ => Reports.setBits _ _

theorem reports_kick (kind : Session.Kind) : Reports φ (kick map kind) := by
  rw [kick_eq]
  exact .bind (Reports.write _ _) fun _ => .bind (Reports.write _ _) fun _ =>
    .when fun _ => Watchdog.reports_putControl map _ _

theorem reports_reportArmed (session : Session) :
    Reports Notice.Expected (reportArmed map session) :=
  .bind (Reports.read _) fun _ => .bind (Reports.note trivial) fun _ =>
    .bind (Reports.read _) fun _ => .bind (Reports.read _) fun _ => .bind (Reports.read _) fun _ =>
    Reports.note trivial

theorem reports_program (session : Session) (votes : ResourceSet) :
    Reports Notice.Expected (program map session votes) :=
  .bind (reports_programWake map session) fun _ =>
    .bind (reports_programFlags map session votes) fun _ =>
    .bind (reports_programOptions map _) fun _ => .bind (reports_kick map _) fun _ =>
    reports_reportArmed map session

theorem reports_stopMonitor (options : SessionOptions) :
    Reports φ (stopMonitor map options) := by
  unfold stopMonitor
  split
  · exact .bind (Reports.clearBits _ _) fun _ => .bind (Reports.read _) fun _ => .pure _
  · exact .pure _

theorem reports_undoOptions (options : SessionOptions) : Reports φ (undoOptions map options) := by
  rw [undoOptions_eq]
  exact .bind (.when fun _ => Watchdog.reports_disarm map) fun _ =>
    .bind (.when fun _ => Reports.write _ _) fun _ =>
    .bind (reports_stopMonitor map options) fun _ => .bind (Reports.write _ _) fun _ => .pure _

theorem passive_capture (session : Session) : Passive (capture map session) :=
  .bind (.read _) fun _ => .bind (.read _) fun _ => .bind (.read _) fun _ =>
    .bind (.read _) fun _ => .bind (.read _) fun _ => .bind (.read _) fun _ =>
    .bind (.read _) fun _ => .bind (.read _) fun _ => .bind (.read _) fun _ =>
    .bind (.read _) fun _ => .bind (.read _) fun _ => .pure _

theorem reports_markS1 (seen : Bool) (record : Wake.Record) :
    Reports φ (markS1 map seen record) := by
  unfold markS1
  split
  · exact .bind (Reports.write _ _) fun _ => .pure _
  · exact .pure _

theorem reports_wakeUp (session : Session) : Reports Notice.Expected (wakeUp map session) := by
  refine .bind ?_ fun _ => .bind ?_ fun _ => ?_
  · exact .bind (reports_undoOptions map _) fun _ =>
      .bind ((passive_capture map session).reports _) fun _ =>
      .bind (reports_markS1 map _ _) fun _ => .pure _
  · cases session.options.category? with
    | none => exact .pure _
    | some category => exact Reports.note trivial
  · exact .bind (Reports.read _) fun _ => .bind (Reports.read _) fun _ =>
      .bind (Reports.note trivial) fun _ => .pure _

end Sequencer

namespace Constraint

variable (map : Register.Map)

theorem reports_announce (announcement : Announcement) (allows : Allowance) :
    Reports Notice.Expected (announce map announcement allows) :=
  .bind (Reports.note trivial) fun _ => .bind (Reports.write _ _) fun _ => Reports.write _ _

theorem reports_launch (votes : ResourceSet) (c : Constraint) (session : Session) :
    Reports Notice.Expected (launch map votes c session) :=
  .bind (reports_announce map _ _) fun _ =>
    .bind (.when fun _ => .bind (Reports.write _ _) fun _ => Reports.emit _) fun _ =>
    .bind (Reports.note trivial) fun _ => Sequencer.reports_program map _ _

theorem redeliver_cons (record : Wake.Record) (r : Redelivery) (rs : List Redelivery) :
    redeliver record (r :: rs) = (do
      when (redeliveryDue record r) do
        when r.reported do
          Bus.note (.redeliverySeen record)
          Bus.note (.redelivered r.interrupt r.sources)
        Bus.emit (.raise r.interrupt)
      redeliver record rs) := by
  rw [redeliver]
  by_cases hd : redeliveryDue record r = true
  · by_cases hr : r.reported = true
    · simp [hd, hr]
    · simp [hd, hr]
  · simp [hd]

theorem reports_redeliver (record : Wake.Record) (rs : List Redelivery) :
    Reports Notice.Expected (redeliver record rs) := by
  induction rs with
  | nil => exact .pure _
  | cons r rs ih =>
    rw [redeliver_cons]
    refine .bind (.when fun _ => .bind (.when fun _ => ?_) fun _ => Reports.emit _) fun _ => ih
    exact .bind (Reports.note trivial) fun _ => Reports.note trivial

theorem reports_resume (c : Constraint) (kind : Session.Kind) (outcome : Wake.Outcome) :
    Reports Notice.Expected (resume map c kind outcome) :=
  .bind (.when fun _ => .bind (Reports.emit _) fun _ => Reports.write _ _) fun _ =>
    .bind (reports_announce map _ _) fun _ => reports_redeliver _ _

end Constraint

theorem Clock.Layout.reports_observation (map : Register.Map) (l : Layout) :
    Reports Notice.Expected (l.observation map) :=
  .bind ((Domain.passive_observeAll map _).reports _) fun _ =>
    .bind ((Probe.passive_survey _ _ _).reports _) fun _ => .bind (Reports.note trivial) fun _ =>
    .pure _

end LowPower

import LowPower.Proofs.Bus.Habit
import LowPower.Proofs.Register.Name
import LowPower.Proofs.Sequencer.Report

/-!
What the use of the bus is made of. The control register of the power sequencer is only written to
switch the timer and to put the watchdog on or off, and other registers are written one at a time.
A habit which all of these have is one of the sequencer and of the observation of the clocks.
-/

namespace LowPower

open Bus (Event)
open Habit (State)

def Bus.Event.IsCall : Event → Prop
  | .raise _ | .prepare | .finish => True
  | _ => False

/-- A habit which every use of the bus has. -/
structure Manner (map : Register.Map) (Φ : ∀ {α : Type}, Bus.Action α → Prop) : Prop
    extends Habit Bus.Action Φ where
  note (n : Notice) : Φ (Bus.note n)
  call {e : Event} (h : e.IsCall) : Φ (Bus.emit e)
  read (a : Address) : Φ (Bus.read a)
  write (r : Register.Name) (h : r ≠ .pcmControl) (x : Word) : Φ (Bus.write (map.at r) x)
  timer (on : Bool) : Φ (Watchdog.putControl map Watchdog.timerEnable on)
  watchdog (on : Bool) : Φ (Watchdog.put map on)

namespace Manner

variable {map : Register.Map} {Φ : ∀ {α : Type}, Bus.Action α → Prop} (h : Manner map Φ)
include h

theorem programWake (session : Session) : Φ (Sequencer.programWake map session) := by
  rw [Sequencer.programWake_eq]
  refine h.bind (h.write .coreScratch nofun _) fun _ => ?_
  refine h.bind (h.write .coreMailbox nofun _) fun _ => ?_
  refine h.bind (h.write .wakeMask nofun _) fun _ => h.when ?_
  exact h.bind (h.write .timerValue nofun _) fun _ => h.timer true

theorem programFlags (session : Session) (votes : ResourceSet) :
    Φ (Sequencer.programFlags map session votes) :=
  h.bind (h.write .swFlag0 nofun _) fun _ => h.bind (h.write .swFlag1 nofun _) fun _ =>
    h.write .sourceRequest nofun _

theorem programOptions (options : SessionOptions) : Φ (Sequencer.programOptions map options) := by
  rw [Sequencer.programOptions_eq]
  refine h.bind (h.when (h.write .clockRecord nofun _)) fun _ => ?_
  refine h.bind (h.when (h.watchdog true)) fun _ => ?_
  refine h.bind (h.when (h.write .crystal nofun _)) fun _ => h.when ?_
  exact h.bind (h.read _) fun _ => h.write .s1Control nofun _

theorem kick (kind : Session.Kind) : Φ (Sequencer.kick map kind) := by
  rw [Sequencer.kick_eq]
  exact h.bind (h.write .kick nofun _) fun _ => h.bind (h.write .kick nofun _) fun _ =>
    h.when (h.timer false)

theorem reportArmed (session : Session) : Φ (Sequencer.reportArmed map session) :=
  h.bind (h.read _) fun _ => h.bind (h.note _) fun _ => h.bind (h.read _) fun _ =>
    h.bind (h.read _) fun _ => h.bind (h.read _) fun _ => h.note _

theorem program (session : Session) (votes : ResourceSet) :
    Φ (Sequencer.program map session votes) :=
  h.bind (h.programWake session) fun _ => h.bind (h.programFlags session votes) fun _ =>
    h.bind (h.programOptions _) fun _ => h.bind (h.kick _) fun _ => h.reportArmed session

theorem arm (session : Session) (votes : ResourceSet) :
    State Φ (Sequencer.arm map session votes) := by
  have programmed : State Φ (do
      modify (Sequencer.setPhase session.core .preparing)
      Sequencer.program map session votes
      modify (Sequencer.setPhase session.core .asleep)) :=
    h.state.bind (h.state_modify _) fun _ =>
      h.state.bind (h.state_lift (h.program session votes)) fun _ => h.state_modify _
  refine h.state.ite (h.state.bind h.state_get fun _ => h.state.ite ?_ programmed) ?_
  · exact h.state.bind (h.state_lift (h.note _)) fun _ => programmed
  · exact h.state_lift (h.note _)

theorem undoOptions (options : SessionOptions) : Φ (Sequencer.undoOptions map options) := by
  have stopped : Φ (Sequencer.stopMonitor map options) := by
    refine h.ite (h.bind ?_ fun _ => h.bind (h.read _) fun _ => h.pure _) (h.pure _)
    exact h.bind (h.read _) fun _ => h.write .s1Control nofun _
  rw [Sequencer.undoOptions_eq]
  exact h.bind (h.when (h.watchdog false)) fun _ =>
    h.bind (h.when (h.write .crystal nofun _)) fun _ => h.bind stopped fun _ =>
    h.bind (h.write .externalClear nofun _) fun _ => h.pure _

theorem capture (session : Session) : Φ (Sequencer.capture map session) :=
  h.bind (h.read _) fun _ => h.bind (h.read _) fun _ => h.bind (h.read _) fun _ =>
    h.bind (h.read _) fun _ => h.bind (h.read _) fun _ => h.bind (h.read _) fun _ =>
    h.bind (h.read _) fun _ => h.bind (h.read _) fun _ => h.bind (h.read _) fun _ =>
    h.bind (h.read _) fun _ => h.bind (h.read _) fun _ => h.pure _

theorem captureWake (session : Session) : Φ (Sequencer.captureWake map session) :=
  h.bind (h.undoOptions _) fun _ => h.bind (h.capture session) fun _ =>
    h.bind (h.ite (h.bind (h.write .debugFlag nofun _) fun _ => h.pure _) (h.pure _)) fun _ =>
    h.pure _

theorem concludeWake (core : Nat) (record : Wake.Record) (reason : Wake.Reason) :
    Φ (Sequencer.concludeWake map core record reason) :=
  h.bind (h.read _) fun _ => h.bind (h.read _) fun _ => h.bind (h.note _) fun _ => h.pure _

theorem recordWake (category : Wake.Category) (record : Wake.Record) :
    State Φ (Sequencer.recordWake category record) :=
  h.state.bind (h.state_lift (h.note _)) fun _ => h.state_modify _

theorem disarm (session : Session) : State Φ (Sequencer.disarm map session) := by
  refine h.state.bind h.state_get fun _ => h.state.ite ?_ ?_
  · refine h.state.bind (h.state_modify _) fun _ =>
      h.state.bind (h.state_lift (h.captureWake session)) ?_
    rintro ⟨record, reason⟩
    have concluded : State Φ (do
        let outcome ← Sequencer.concludeWake map session.core record reason
        modify fun s : Sequencer =>
          { s with lastWake := some outcome }.setPhase session.core .idle
        return some outcome) :=
      h.state.bind (h.state_lift (h.concludeWake _ _ _)) fun _ =>
        h.state.bind (h.state_modify _) fun _ => h.state.pure _
    cases session.options.category? with
    | none => exact concluded
    | some category => exact h.state.bind (h.recordWake category record) fun _ => concluded
  · exact h.state.bind (h.state_lift (h.note _)) fun _ => h.state.pure _

theorem observe (status : Word) (d : Clock.Domain) : Φ (d.observe status) := by
  refine h.ite ?_ (h.pure _)
  cases d.mux with
  | none => exact h.bind (h.read _) fun _ => h.pure _
  | some m =>
    exact h.bind (h.bind (h.read _) fun _ => h.pure _) fun _ =>
      h.ite (h.pure _) (h.bind (h.read _) fun _ => h.pure _)

theorem observeAll (bits : Word) (i : Nat) (ps : List Clock.Probe) :
    Φ (Clock.Probe.observeAll bits i ps).run := by
  induction ps generalizing bits i with
  | nil => exact h.pure _
  | cons p ps ih =>
    rw [Clock.Probe.observeAll]
    change Φ (ExceptT.run (ExceptT.lift (Bus.read p.register) >>= _))
    rw [ExceptT.run_bind_lift]
    refine h.bind (h.read _) fun control => ?_
    split
    · split
      · exact h.pure _
      · exact ih _ _
    · exact ih _ _

theorem snapshot (l : Clock.Layout) : Φ (l.snapshot map).run := by
  rw [Clock.Layout.snapshot]
  change Φ (ExceptT.run (ExceptT.lift (Clock.Domain.observeAll map _) >>= _))
  rw [ExceptT.run_bind_lift]
  refine h.bind (h.bind (h.read _) fun _ => h.bind (h.read _) fun _ => h.mapM (h.observe _) _) ?_
  intro words
  rw [ExceptT.run_bind]
  refine h.bind (h.observeAll _ _ _) ?_
  rintro (fault | plls)
  · exact h.pure _
  · exact h.bind (h.note _) fun _ => h.pure _

end Manner

end LowPower

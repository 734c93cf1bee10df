import LowPower.Arbiter.Operation
import LowPower.Proofs.Arbiter.Entry
import LowPower.Proofs.Sequencer.Manner

namespace LowPower.Manner

open Habit (Attempt State)

section

variable {map : Register.Map} {Φ : ∀ {α : Type}, Bus.Action α → Prop} (h : Manner map Φ)
include h

theorem announce (a : Announcement) (allows : Allowance) :
    Φ (Constraint.announce map a allows) :=
  h.bind (h.note _) fun _ => h.bind (h.write .allowMailbox nofun _) fun _ =>
    h.write .eventMailbox nofun _

theorem enter (votes : ResourceSet) (c : Constraint) (session : Session) :
    State Φ (c.enter map votes session) := by
  have armed : State Φ (do
      Bus.note (.entering c.name session.kind)
      Sequencer.arm map (c.prepare session) votes
      return c.prepare session) :=
    h.state.bind (h.state_lift (h.note _)) fun _ => h.state.bind (h.arm _ votes) fun _ =>
      h.state.pure _
  refine h.state.bind (h.state_lift (h.announce _ _)) fun _ => h.state.ite ?_ armed
  exact h.state.bind (h.state_lift (h.write .powerDownMailbox nofun _)) fun _ =>
    h.state.bind (h.state_lift (h.call trivial)) fun _ => armed

theorem redeliver (record : Wake.Record) (rs : List Redelivery) :
    Φ (Constraint.redeliver record rs) := by
  induction rs with
  | nil => exact h.pure _
  | cons r rs ih =>
    rw [Constraint.redeliver_cons]
    have reported : Φ (Bus.when r.reported do
        Bus.note (.redeliverySeen record)
        Bus.note (.redelivered r.interrupt r.sources)) :=
      h.when (h.bind (h.note _) fun _ => h.note _)
    exact h.bind (h.when (h.bind reported fun _ => h.call trivial)) fun _ => ih

theorem leave (c : Constraint) (session : Session) : Attempt Φ (c.leave map session) := by
  refine h.attempt.bind (h.attempt_lift (h.disarm _)) fun outcome => ?_
  cases outcome with
  | none => exact h.attempt.pure _
  | some outcome =>
    refine h.attempt.bind (h.attempt_liftExcept _) fun c => ?_
    have announced (result : Constraint × Session) : Attempt Φ (do
        Constraint.announce map .leave c.allows
        Constraint.redeliver outcome.record c.variant.redeliveries
        return result : ExceptT Fault Sequencer.Action (Constraint × Session)) :=
      h.attempt.bind (h.attempt_liftBus (h.announce _ _)) fun _ =>
        h.attempt.bind (h.attempt_liftBus (h.redeliver _ _)) fun _ => h.attempt.pure _
    refine h.attempt.ite ?_ (announced _)
    exact h.attempt.bind (h.attempt_liftBus (h.call trivial)) fun _ =>
      h.attempt.bind (h.attempt_liftBus (h.write .powerDownMailbox nofun _)) fun _ => announced _

theorem reportBlocked (cs : List Constraint) : Φ (Constraint.reportBlocked cs) := by
  induction cs with
  | nil => exact h.pure _
  | cons c cs ih => exact h.ite (h.bind (h.note _) fun _ => ih) ih

theorem noteAll (ns : List Notice) : Φ (Bus.noteAll ns) := by
  induction ns with
  | nil => exact h.pure _
  | cons n ns ih => exact h.bind (h.note n) fun _ => ih

theorem enterAt (votes : ResourceSet) (i : Nat) (session : Session) (l : Ladder) :
    State Φ (l.enter map votes i session) := by
  unfold Ladder.enter
  split
  · exact h.state.bind (h.state_lift (h.note _)) fun _ => h.state.pure _
  · exact h.state.bind (h.enter votes _ session) fun _ => h.state.pure _

theorem leaveAt (i : Nat) (session : Session) (l : Ladder) :
    Attempt Φ (l.leave map i session) := by
  unfold Ladder.leave
  split
  · exact h.attempt.bind (h.attempt_liftBus (h.note _)) fun _ => h.attempt.pure _
  · exact h.attempt.bind (h.leave _ session) fun _ => h.attempt.pure _

theorem update (target : Target) (request : Constraint.Request) (l : Ladder) :
    Φ (l.update target request) :=
  h.bind (h.noteAll _) fun _ => h.pure _

end

section

variable {p : Platform} {Φ : ∀ {α : Type}, Bus.Action α → Prop} (h : Manner p.map Φ)
include h

theorem onSequencer {α : Type} {x : Sequencer.Action α} (hx : State Φ x) :
    Attempt Φ (Arbiter.onSequencer x) :=
  h.attempt.bind h.attempt_get fun a => h.attempt.bind (h.attempt_liftBus (hx a.sequencer))
    fun _ => h.attempt.bind (h.attempt_modify _) fun _ => h.attempt.pure _

theorem close (core : Nat) : Attempt Φ (Arbiter.close p core) := by
  refine h.attempt.bind h.attempt_get fun a => ?_
  cases a.session? core with
  | none => exact h.attempt.pure _
  | some session =>
    refine h.attempt.bind (h.attempt_modify _) fun _ => h.attempt.bind h.attempt_get fun a => ?_
    refine h.attempt.bind (h.onSequencer (h.leaveAt _ session a.ladder)) fun _ => ?_
    exact h.attempt.bind (h.attempt_liftExcept _) fun _ =>
      h.attempt.bind (h.attempt_modify _) fun _ => h.attempt.pure _

theorem refresh : Attempt Φ (Arbiter.refresh p) :=
  h.attempt.bind (h.attempt_liftBus (h.snapshot p.layout)) fun _ =>
    h.attempt.bind (h.attempt_liftExcept _) fun _ => h.attempt_modify _

theorem choose (start : Nat) (kind : Session.Kind) :
    Attempt Φ (Arbiter.choose start kind) := by
  refine h.attempt.bind h.attempt_get fun a => ?_
  have chosen : Attempt Φ (liftM (a.ladder.choose start a.votes.required kind) :
      Arbiter.Action (Option Nat)) :=
    h.attempt_liftBus (h.bind (h.note _) fun _ => h.pure _)
  exact h.attempt.ite (h.attempt.bind (h.attempt_liftBus (h.reportBlocked _)) fun _ => chosen)
    chosen

theorem openSession (core index : Nat) (kind : Session.Kind) (extra : SessionOptions) :
    Attempt Φ (Arbiter.openSession p core index kind extra) :=
  h.attempt.bind h.attempt_get fun a =>
    h.attempt.bind (h.onSequencer (h.enterAt _ index _ a.ladder)) fun _ => h.attempt_modify _

theorem arrive (core start : Nat) (kind : Session.Kind) (extra : SessionOptions) :
    Attempt Φ (Arbiter.arrive p core start kind extra) := by
  refine h.attempt.bind h.refresh fun _ => h.attempt.bind (h.choose start kind) fun choice => ?_
  cases choice with
  | none => exact h.attempt.bind (h.attempt_liftBus (h.note _)) fun _ => h.attempt.pure _
  | some index =>
    exact h.attempt.bind (h.openSession core index kind extra) fun _ => h.attempt.pure _

theorem enterCore (core start : Nat) (kind : Session.Kind) (extra : SessionOptions) :
    Attempt Φ (Arbiter.enter p core start kind extra) := by
  have arrived := h.arrive core start kind extra
  refine h.attempt.ite ?_ (h.attempt.bind h.attempt_get fun a => h.attempt.ite ?_ arrived)
  · exact h.attempt.bind (h.attempt_liftBus (h.note _)) fun _ => h.attempt.pure _
  · exact h.attempt.bind (h.attempt_liftBus (h.note _)) fun _ =>
      h.attempt.bind (h.close core) fun _ => arrived

theorem leaveCore (core : Nat) : Attempt Φ (Arbiter.leave p core) :=
  h.attempt.ite (h.attempt.bind (h.attempt_liftBus (h.note _)) fun _ => h.attempt.pure _)
    (h.attempt.bind (h.close core) fun _ => h.attempt.pure _)

theorem vote (resource : Resource) (requested : Bool) :
    Attempt Φ (Arbiter.vote resource requested) :=
  h.attempt.bind (h.attempt_modify _) fun _ => h.attempt.bind h.attempt_get fun _ =>
    h.attempt_liftBus (h.note _)

theorem settle {α : Type} (r : Except Failure α) : Attempt Φ (Arbiter.settle r) := by
  rcases r with (refusal | fault) | x
  · exact h.attempt.pure _
  · exact h.attempt_throw fault
  · exact h.attempt.pure _

theorem notify (target : Target) (request : Constraint.Request) :
    Attempt Φ (Arbiter.notify target request) :=
  h.attempt.bind h.attempt_get fun a => h.attempt.bind (h.attempt_liftBus (h.update _ _ a.ladder))
    fun _ => h.attempt.bind (h.attempt_set _) fun _ => h.settle _

theorem query (target : Target) (query : Constraint.Query) (clear : Bool) :
    Attempt Φ (Arbiter.read target query clear) :=
  h.attempt.bind h.attempt_get fun _ => h.attempt.bind (h.attempt_set _) fun _ => h.settle _

theorem setWatchdog (enable : Bool) (ticks : Word) :
    Attempt Φ (Arbiter.setWatchdog p enable ticks) :=
  h.attempt.bind (h.attempt_liftBus (h.write .timerValue nofun _)) fun _ =>
    h.attempt.bind (h.attempt_liftBus (h.watchdog enable)) fun _ => h.attempt_modify _

theorem control (command : Command) : Attempt Φ (Arbiter.control p command) := by
  refine h.attempt.bind (h.attempt_liftBus (h.note _)) fun _ => ?_
  cases command with
  | setFlavor flavor => exact h.attempt.bind (h.attempt_modify _) fun _ => h.attempt.pure _
  | setWatchdog enable ticks =>
    exact h.attempt.bind (h.setWatchdog enable ticks) fun _ => h.attempt.pure _
  | queryPll => exact h.attempt.bind (h.attempt_liftBus (h.read _)) fun _ => h.attempt.pure _
  | update target request =>
    refine h.attempt.bind (h.notify target request) fun r => ?_
    cases r with
    | ok => exact h.attempt.pure _
    | error => exact h.attempt.bind (h.attempt_liftBus (h.note _)) fun _ => h.attempt.pure _
  | query target query clear =>
    refine h.attempt.bind (h.query target query clear) fun r => ?_
    cases r with
    | ok => exact h.attempt.pure _
    | error => exact h.attempt.bind (h.attempt_liftBus (h.note _)) fun _ => h.attempt.pure _

theorem perform (op : Operation) : Attempt Φ (op.perform p) := by
  cases op with
  | idleEnter core hint => exact h.attempt.map _ (h.enterCore core hint .idle ∅)
  | suspendEnter core extra => exact h.attempt.map _ (h.enterCore core 0 .suspend extra)
  | leave core => exact h.attempt.map _ (h.leaveCore core)
  | vote resource requested => exact h.attempt.map _ (h.vote resource requested)
  | withdraw resource => exact h.attempt.map _ (h.attempt_modify _)
  | notify target request =>
    refine h.attempt.bind (h.notify target request) fun r => ?_
    cases r with
    | ok => exact h.attempt.pure _
    | error => exact h.attempt.pure _
  | control command => exact h.attempt.map _ (h.control command)

end

end LowPower.Manner

import LowPower.Arbiter.Operation
import LowPower.Proofs.Clock.Observation
import LowPower.Proofs.Constraint.Passage

namespace LowPower

open Bus (attempt attempt_bind attempt_pure attempt_get_bind attempt_modify_bind when)

theorem Ladder.attempt_leave {l : Ladder} {i : Nat} {c : Constraint} {s : Sequencer}
    (map : Register.Map) (session : Session) (hc : l.constraints[i]? = some c)
    (hp : s.phase session.core = .asleep) :
    attempt (l.leave map i session) s = do
      let outcome ← Sequencer.wakeUp map (c.ending session)
      let s := s.woken (c.ending session) outcome
      match c.account session.kind outcome.record with
      | .error fault => return (.error fault, s)
      | .ok c' =>
        Constraint.resume map c' session.kind outcome
        return (.ok ({ l with constraints := l.constraints.set i c' },
          { c.ending session with wake := some outcome }), s) := by
  simp only [Ladder.leave, hc, attempt_bind, Constraint.attempt_leave map c session s hp,
    bind_assoc]
  congr 1
  funext outcome
  cases c.account session.kind outcome.record with
  | error fault => rfl
  | ok c' => simp

namespace Arbiter

def released (core : Nat) (session : Session) (outcome : Wake.Outcome) (a : Arbiter) : Arbiter :=
  { a.setSession core none with sequencer := a.sequencer.woken session outcome }

def setConstraint (i : Nat) (c : Constraint) (a : Arbiter) : Arbiter :=
  { a with ladder := { a.ladder with constraints := a.ladder.constraints.set i c } }

def newSession (p : Platform) (a : Arbiter) (core index : Nat) (kind : Session.Kind)
    (extra : SessionOptions) : Session :=
  { Session.new core index kind (a.power p kind) with options := extra }

def entered (core : Nat) (c : Constraint) (session : Session) (a : Arbiter) : Arbiter :=
  { a.setConstraint session.constraint c.countEntry with
    sequencer := a.sequencer.armed core }.setSession core (some (c.prepare session))

def refreshed (clocks : Clock.Table) (a : Arbiter) : Arbiter :=
  { a with clocks, ladder := a.ladder.check clocks }

@[simp] theorem attempt_onSequencer_bind {α β : Type} (x : Sequencer.Action α)
    (f : α → Action β) (a : Arbiter) :
    attempt (onSequencer x >>= f) a =
      x.run a.sequencer >>= fun r => attempt (f r.1) { a with sequencer := r.2 } := rfl

theorem attempt_close_none {a : Arbiter} {core : Nat} (p : Platform)
    (h : a.session? core = none) : attempt (close p core) a = pure (.ok none, a) := by
  simp [close, h]

theorem attempt_close_some {a : Arbiter} {core : Nat} {session : Session} {c : Constraint}
    (p : Platform) (h : a.session? core = some session)
    (hc : a.ladder.constraints[session.constraint]? = some c)
    (hp : a.sequencer.phase session.core = .asleep) :
    attempt (close p core) a = do
      let outcome ← Sequencer.wakeUp p.map (c.ending session)
      let b := a.released core (c.ending session) outcome
      match c.account session.kind outcome.record with
      | .error fault => return (.error fault, b)
      | .ok c' =>
        Constraint.resume p.map c' session.kind outcome
        return (.ok (some { c.ending session with wake := some outcome }),
          b.setConstraint session.constraint c') := by
  have hl := Ladder.attempt_leave p.map session hc hp
  unfold attempt at hl
  simp only [close, attempt_get_bind, h, attempt_modify_bind, attempt_onSequencer_bind]
  change (do let r ← (a.ladder.leave p.map session.constraint session).run.run a.sequencer; _) = _
  rw [hl, bind_assoc]
  congr 1
  funext outcome
  cases c.account session.kind outcome.record with
  | error fault => rfl
  | ok c' =>
    simp
    rfl

theorem attempt_openSession {a : Arbiter} {core index : Nat} {c : Constraint} (p : Platform)
    (kind : Session.Kind) (extra : SessionOptions)
    (hc : a.ladder.constraints[index]? = some c) (hcore : core < coreCapacity)
    (hp : a.sequencer.phase core = .idle) :
    attempt (openSession p core index kind extra) a =
      (fun _ => (.ok (), a.entered core c (a.newSession p core index kind extra))) <$>
        Constraint.launch p.map a.votes.required c (a.newSession p core index kind extra) := by
  have he := Constraint.run_enter p.map a.votes.required c
    (a.newSession p core index kind extra) a.sequencer hcore hp
  unfold newSession at he
  simp [openSession, Ladder.enter, hc, he]
  rfl

theorem attempt_refresh {p : Platform} (h : p.layout.Valid) (a : Arbiter) :
    attempt (refresh p) a =
      (fun clocks => (.ok (), a.refreshed clocks)) <$> p.layout.observation p.map := by
  simp [refresh, p.layout.run_snapshot h]
  rfl

end Arbiter

end LowPower

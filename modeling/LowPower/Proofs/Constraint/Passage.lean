import LowPower.Constraint.Cycle
import LowPower.Proofs.Bus.Attempt

namespace LowPower

open Bus (when attempt attempt_liftState_bind)

namespace Sequencer

def armed (core : Nat) (s : Sequencer) : Sequencer :=
  (s.setPhase core .preparing).setPhase core .asleep

def recorded (options : SessionOptions) (record : Wake.Record) (h : Wake.History) : Wake.History :=
  match options.category? with
  | some category => h.record category record
  | none => h

def woken (session : Session) (outcome : Wake.Outcome) (s : Sequencer) : Sequencer :=
  let s := s.setPhase session.core .resuming
  let history := recorded session.options outcome.record s.history
  { s with history, lastWake := some outcome }.setPhase session.core .idle

theorem phase_armed (s : Sequencer) {core : Nat} (h : core < coreCapacity) (other : Nat) :
    (s.armed core).phase other = if core = other then .asleep else s.phase other := by
  simp only [armed, phase_setPhase, h, and_true]
  by_cases hc : core = other <;> simp [hc]

theorem phase_woken (s : Sequencer) (session : Session) (outcome : Wake.Outcome)
    (h : session.core < coreCapacity) (other : Nat) :
    (s.woken session outcome).phase other =
      if session.core = other then .idle else s.phase other := by
  rw [woken, phase_setPhase]
  change (if _ then _ else (s.setPhase session.core .resuming).phase other) = _
  simp only [phase_setPhase, h, and_true]
  by_cases hc : session.core = other <;> simp [hc]

theorem run_arm (map : Register.Map) (session : Session) (votes : ResourceSet) (s : Sequencer)
    (hc : session.core < coreCapacity) (hp : s.phase session.core = .idle) :
    (arm map session votes).run s =
      (fun _ => ((), s.armed session.core)) <$> program map session votes := by
  simp [arm, armed, hc, hp]

def noteRecorded (record : Wake.Record) : Option Wake.Category → Bus.Action Unit
  | some category => Bus.note (.recorded category record)
  | none => return ()

def wakeUp (map : Register.Map) (session : Session) :
    Bus.Action Wake.Outcome := do
  let (record, reason) ← captureWake map session
  noteRecorded record session.options.category?
  concludeWake map session.core record reason

theorem run_disarm (map : Register.Map) (session : Session) (s : Sequencer)
    (hp : s.phase session.core = .asleep) :
    (disarm map session).run s =
      (fun outcome => (some outcome, s.woken session outcome)) <$> wakeUp map session := by
  cases hk : session.options.category? with
  | none => simp [disarm, hp, hk, wakeUp, woken, recorded, noteRecorded, concludeWake]
  | some category =>
    simp [disarm, hp, hk, wakeUp, woken, recorded, noteRecorded, concludeWake, recordWake]

theorem exists_decode_wakeUp (map : Register.Map) (session : Session) (device : Device)
    (j : Journal) : ∃ record, (wakeUp map session device j).1.reason = .decode record :=
  ⟨_, rfl⟩

end Sequencer

namespace Constraint

@[simp] theorem core_prepare (c : Constraint) (session : Session) :
    (c.prepare session).core = session.core := rfl

@[simp] theorem kind_prepare (c : Constraint) (session : Session) :
    (c.prepare session).kind = session.kind := rfl

def launch (map : Register.Map) (votes : ResourceSet) (c : Constraint) (session : Session) :
    Bus.Action Unit := do
  announce map .enter (c.entryAllows session.kind)
  when (session.kind = .suspend) do
    Bus.write map.powerDownMailbox powerDownWord
    Bus.emit .prepare
  Bus.note (.entering c.name session.kind)
  Sequencer.program map (c.prepare session) votes

theorem run_enter (map : Register.Map) (votes : ResourceSet) (c : Constraint) (session : Session)
    (s : Sequencer) (hc : session.core < coreCapacity) (hp : s.phase session.core = .idle) :
    (enter map votes c session).run s =
      (fun _ => (c.prepare session, s.armed session.core)) <$> launch map votes c session := by
  have harm := Sequencer.run_arm map (c.prepare session) votes s hc hp
  by_cases hk : session.kind = .suspend
  · simp [enter, launch, hk, harm]
  · simp [enter, launch, hk, harm]

def ending (c : Constraint) (session : Session) : Session :=
  { session with options := session.options ∪ c.traceOptions session.kind }

def resume (map : Register.Map) (c : Constraint) (kind : Session.Kind) (outcome : Wake.Outcome) :
    Bus.Action Unit := do
  when (kind = .suspend) do
    Bus.emit .finish
    Bus.write map.powerDownMailbox 0#32
  announce map .leave c.allows
  redeliver outcome.record c.variant.redeliveries

theorem attempt_leave (map : Register.Map) (c : Constraint) (session : Session) (s : Sequencer)
    (hp : s.phase session.core = .asleep) :
    attempt (leave map c session) s = do
      let outcome ← Sequencer.wakeUp map (c.ending session)
      let s := s.woken (c.ending session) outcome
      match c.account session.kind outcome.record with
      | .error fault => return (.error fault, s)
      | .ok c' =>
        resume map c' session.kind outcome
        return (.ok (c', { c.ending session with wake := some outcome }), s) := by
  have hd := Sequencer.run_disarm map (c.ending session) s hp
  change attempt (liftM (Sequencer.disarm map (c.ending session)) >>= _) s = _
  rw [attempt_liftState_bind, hd, bind_map_left]
  congr 1
  funext outcome
  cases ha : c.account session.kind outcome.record with
  | error fault => simp [ha]
  | ok c' =>
    by_cases hk : session.kind = .suspend
    · rw [hk] at ha
      simp [resume, ending, hk, ha]
    · simp [resume, ending, hk, ha]

theorem account_eq_ok {c c' : Constraint} {kind : Session.Kind} {record : Wake.Record}
    (h : c.account kind record = .ok c') :
    ∃ residency, c' = { c with status.residency := residency } := by
  unfold account at h
  split at h
  · unfold addResidency at h
    split at h
    · cases h
    · exact ⟨_, (Except.ok.inj h).symm⟩
  · exact ⟨c.status.residency, (Except.ok.inj h).symm⟩

theorem account_eq_error {c : Constraint} {kind : Session.Kind} {record : Wake.Record}
    {fault : Fault} (h : c.account kind record = .error fault) : fault = .addOverflow := by
  unfold account at h
  split at h
  · unfold addResidency at h
    split at h
    · exact (Except.error.inj h).symm
    · cases h
  · cases h

end Constraint

end LowPower

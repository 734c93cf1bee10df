import LowPower.Platform.Mt8192
import LowPower.Proofs.Arbiter.Reentry

namespace LowPower

open Bus (Alike Deaf attempt attempt_liftState_bind bind_apply map_apply)

namespace Sequencer

theorem snd_arm (map : Register.Map) (session : Session) (votes : ResourceSet) (s : Sequencer)
    (device : Device) (j : Journal) : ((arm map session votes).run s device j).1.2 =
      if session.core < coreCapacity then s.armed session.core else s := by
  by_cases hc : session.core < coreCapacity
  · by_cases hp : s.phase session.core = .idle
    · rw [run_arm map session votes s hc hp, if_pos hc]
      rfl
    · simp [arm, hc, hp]
      rfl
  · simp [arm, hc]
    rfl

theorem run_disarm_awake (map : Register.Map) (session : Session) (s : Sequencer)
    (hp : s.phase session.core ≠ .asleep) :
    (disarm map session).run s =
      (fun _ => (none, s)) <$> Bus.note (.nothingToUndo session.core (s.phase session.core)) := by
  simp [disarm, hp]

end Sequencer

theorem Constraint.attempt_leave_awake (map : Register.Map) (c : Constraint) (session : Session)
    (s : Sequencer) (hp : s.phase session.core ≠ .asleep) :
    attempt (leave map c session) s = (fun _ => (.ok (c, c.ending session), s)) <$>
      Bus.note (.nothingToUndo session.core (s.phase session.core)) := by
  have hd := Sequencer.run_disarm_awake map (c.ending session) s hp
  change attempt (liftM (Sequencer.disarm map (c.ending session)) >>= _) s = _
  rw [attempt_liftState_bind, hd, bind_map_left]
  rfl

theorem Constraint.snd_enter (map : Register.Map) (votes : ResourceSet) (c : Constraint)
    (session : Session) (s : Sequencer) (device : Device) (j : Journal) :
    ((c.enter map votes session).run s device j).1.2 =
      if session.core < coreCapacity then s.armed session.core else s := by
  by_cases hk : session.kind = .suspend
  · simp only [enter, hk, if_true]
    exact Sequencer.snd_arm map (c.prepare session) votes s device _
  · simp only [enter, hk, if_false]
    exact Sequencer.snd_arm map (c.prepare session) votes s device _

def Constraint.tracings : List SessionOptions := [∅, .traceLowPower, .traceSuspend]

theorem Constraint.traceOptions_mem (c : Constraint) (kind : Session.Kind) :
    c.traceOptions kind ∈ tracings := by
  cases kind with
  | idle =>
    rw [traceOptions]
    split
    · exact .tail _ (.head _)
    · exact .head _
  | suspend => exact .tail _ (.tail _ (.head _))

theorem Sequencer.lt_of_asleep {s : Sequencer} {core : Nat} (hp : s.phase core = .asleep) :
    core < coreCapacity := by
  apply Nat.lt_of_not_le
  intro hle
  rw [phase, Vector.getElem?_eq_none hle] at hp
  cases hp

namespace Ladder

variable {map : Register.Map} {device : Device} {l : Ladder} {s : Sequencer} {j : Journal}
  {i core other : Nat} {session : Session} {c : Constraint}

theorem attempt_leave_awake (map : Register.Map) (l : Ladder) (i : Nat) (session : Session)
    (hp : s.phase session.core ≠ .asleep) :
    ∃ notice, ∃ extra ∈ Constraint.tracings, attempt (l.leave map i session) s =
      (fun _ => (.ok (l, { session with options := session.options ∪ extra }), s)) <$>
        Bus.note notice := by
  cases hc : l.constraints[i]? with
  | none =>
    refine ⟨.leaveUnknown i, ∅, .head _, ?_⟩
    rw [Flags.union_empty, Ladder.leave, hc]
    rfl
  | some c =>
    refine ⟨.nothingToUndo session.core (s.phase session.core), _,
      c.traceOptions_mem session.kind, ?_⟩
    have hset : l.constraints.set i c = l.constraints := by
      obtain ⟨hi, rfl⟩ := List.getElem?_eq_some_iff.mp hc
      exact List.set_getElem_self hi
    simp only [Ladder.leave, hc, Bus.attempt_bind,
      Constraint.attempt_leave_awake map c session s hp, bind_map_left]
    rw [hset]
    rfl

theorem phase_leave_asleep (registered : l.constraints[i]? = some c)
    (hp : s.phase session.core = .asleep) (device : Device) (j : Journal) (other : Nat) :
    (attempt (l.leave map i session) s device j).1.2.phase other =
      if session.core = other then .idle else s.phase other := by
  have hlt : (c.ending session).core < coreCapacity := Sequencer.lt_of_asleep hp
  rw [attempt_leave map session registered hp, bind_apply]
  dsimp only
  cases c.account session.kind (Sequencer.wakeUp map (c.ending session) device j).1.record with
  | error fault => exact Sequencer.phase_woken s (c.ending session) _ hlt other
  | ok c' => exact Sequencer.phase_woken s (c.ending session) _ hlt other

theorem phase_leave_ne_asleep (map : Register.Map) (registered : i < l.length)
    (session : Session) (s : Sequencer) (device : Device) (j : Journal) :
    (attempt (l.leave map i session) s device j).1.2.phase session.core ≠ .asleep := by
  by_cases hp : s.phase session.core = .asleep
  · rw [phase_leave_asleep (List.getElem?_eq_getElem registered) hp, if_pos rfl]
    exact nofun
  · obtain ⟨notice, extra, -, hleave⟩ := attempt_leave_awake map l i session hp
    rw [hleave]
    exact hp

theorem phase_leave_other (h : session.core ≠ other) (i : Nat) (l : Ladder) (s : Sequencer)
    (device : Device) (j : Journal) :
    (attempt (l.leave map i session) s device j).1.2.phase other = s.phase other := by
  by_cases hp : s.phase session.core = .asleep
  · cases hc : l.constraints[i]? with
    | none =>
      rw [Ladder.leave, hc]
      rfl
    | some c => rw [phase_leave_asleep hc hp, if_neg h]
  · obtain ⟨notice, extra, -, hleave⟩ := attempt_leave_awake map l i session hp
    rw [hleave]
    rfl

theorem phase_enter_other (h : session.core ≠ other) (votes : ResourceSet) (i : Nat) (l : Ladder)
    (s : Sequencer) (device : Device) (j : Journal) :
    ((l.enter map votes i session).run s device j).1.2.phase other = s.phase other := by
  rw [Ladder.enter]
  cases l.constraints[i]? with
  | none => rfl
  | some c =>
    change ((c.enter map votes session).run s device j).1.2.phase other = _
    rw [Constraint.snd_enter]
    split
    · next hc => rw [Sequencer.phase_armed s hc, if_neg h]
    · rfl

inductive Act
  | enter (votes : ResourceSet) (i : Nat) (session : Session)
  | leave (i : Nat) (session : Session)
  | update (target : Target) (request : Constraint.Request)
  | check (live : Clock.Table)
  | read (target : Target) (query : Constraint.Query) (clear : Bool)

namespace Act

def enters (core : Nat) : Act → Bool
  | .enter _ _ session => session.core = core
  | _ => false

def leaves (core : Nat) : Act → Bool
  | .leave _ session => session.core = core
  | _ => false

/-- What becomes of the constraints and of the sequencer. A leave which breaks off keeps the
constraints as they were. -/
def perform (map : Register.Map) (l : Ladder) (s : Sequencer) : Act →
    Bus.Action (Ladder × Sequencer)
  | .enter votes i session => (fun r => (r.1.1, r.2)) <$> (l.enter map votes i session).run s
  | .leave i session =>
    (fun r => ((r.1.toOption.map Prod.fst).getD l, r.2)) <$> attempt (l.leave map i session) s
  | .update target request => (fun r => (r.2, s)) <$> l.update target request
  | .check live => return (l.check live, s)
  | .read target query clear => return ((l.read target query clear).2, s)

end Act

def performAll (map : Register.Map) (acts : List Act) (l : Ladder) (s : Sequencer) :
    Bus.Action (Ladder × Sequencer) :=
  acts.foldlM (fun r act => act.perform map r.1 r.2) (l, s)

theorem performAll_cons (map : Register.Map) (act : Act) (acts : List Act) (l : Ladder)
    (s : Sequencer) (device : Device) (j : Journal) :
    performAll map (act :: acts) l s device j =
      let r := act.perform map l s device j
      performAll map acts r.1.1 r.1.2 device r.2 := rfl

theorem deaf_perform (map : Register.Map) (l : Ladder) (s : Sequencer) (act : Act) :
    Deaf (act.perform map l s) := by
  have manner := Manner.deaf map
  cases act with
  | enter votes i session => exact manner.map _ (manner.enterAt votes i session l s)
  | leave i session => exact manner.map _ (manner.leaveAt i session l s)
  | update target request => exact manner.map _ (manner.update target request l)
  | check | read => exact manner.pure _

theorem awake_perform (map : Register.Map) (l : Ladder) (awake : s.phase core ≠ .asleep) {act : Act}
    (unentered : act.enters core = false) (device : Device) (j : Journal) :
    (act.perform map l s device j).1.2.phase core ≠ .asleep := by
  cases act with
  | enter votes i session =>
    have h : session.core ≠ core := of_decide_eq_false unentered
    rw [Act.perform, map_apply]
    exact (phase_enter_other h votes i l s device j).symm ▸ awake
  | leave i session =>
    rw [Act.perform, map_apply]
    by_cases h : session.core = core
    · obtain ⟨notice, extra, -, hleave⟩ := attempt_leave_awake map l i session
        (h.symm ▸ awake)
      rw [hleave]
      exact awake
    · exact (phase_leave_other h i l s device j).symm ▸ awake
  | update | check | read => exact awake

theorem awake_performAll (awake : s.phase core ≠ .asleep) {acts : List Act}
    (unentered : ∀ act ∈ acts, act.enters core = false) (device : Device) (j : Journal) :
    (performAll map acts l s device j).1.2.phase core ≠ .asleep := by
  induction acts generalizing l s j with
  | nil => exact awake
  | cons act acts ih =>
    obtain ⟨head, tail⟩ := List.forall_mem_cons.mp unentered
    exact ih (awake_perform map l awake head device j) tail _

theorem perform_leave_awake (map : Register.Map) (l : Ladder) (awake : s.phase core ≠ .asleep)
    {act : Act}
    (leaves : act.leaves core = true) (device : Device) (j : Journal) :
    ∃ notice, act.perform map l s device j =
      ((l, s), { j with notices := notice :: j.notices }) := by
  cases act with
  | leave i session =>
    have h : session.core = core := of_decide_eq_true leaves
    obtain ⟨notice, extra, -, hleave⟩ := attempt_leave_awake map l i session
      (h.symm ▸ awake)
    refine ⟨notice, ?_⟩
    rw [Act.perform, map_apply, hleave]
    rfl
  | _ => cases leaves

theorem performAll_filter (awake : s.phase core ≠ .asleep) {acts : List Act}
    (unentered : ∀ act ∈ acts, act.enters core = false) {device : Device} {i j : Journal}
    (same : i.events = j.events) :
    Alike (performAll map acts l s device i)
      (performAll map (acts.filter fun act => !act.leaves core) l s device j) := by
  induction acts generalizing l s i j with
  | nil => exact ⟨rfl, same⟩
  | cons act acts ih =>
    obtain ⟨head, tail⟩ := List.forall_mem_cons.mp unentered
    rw [performAll_cons, List.filter_cons]
    cases leaves : act.leaves core with
    | true =>
      -- The leave adds a report, and all that follows is deaf to reports.
      obtain ⟨notice, hact⟩ := perform_leave_awake map l awake leaves device i
      rw [hact]
      exact ih awake tail same
    | false =>
      obtain ⟨result, events⟩ := deaf_perform map l s act device i j same
      have awake := awake_perform map l awake head device i
      rw [result] at awake
      rw [Bool.not_false, if_pos rfl, performAll_cons]
      dsimp only
      rw [result] at *
      exact ih awake tail events

/-- Once a core has left a constraint, and until it enters again, every leave of the core has no
effect but a report, and the session it is given only learns whether its wake is traced. Such leaves
can as well be left out. No leave at all changes the phase of another core. -/
theorem leaves_once (map : Register.Map) (device : Device) (l : Ladder) (s : Sequencer)
    (j : Journal) {i : Nat} (registered : i < l.length) (session : Session) {acts : List Act}
    (unentered : ∀ act ∈ acts, act.enters session.core = false) :
    (∀ l' s' k, performAll map (.leave i session :: acts) l s device j = ((l', s'), k) →
      ∀ n (again : Session), again.core = session.core →
        ∃ notice, ∃ extra ∈ Constraint.tracings, attempt (l'.leave map n again) s' device k =
          ((.ok (l', { again with options := again.options ∪ extra }), s'),
            { k with notices := notice :: k.notices })) ∧
    Alike (performAll map (.leave i session :: acts) l s device j)
      (performAll map (.leave i session :: acts.filter fun act => !act.leaves session.core) l s
        device j) ∧
    ∀ (n other : Nat) (any : Session) (l' : Ladder) (s' : Sequencer) (k : Journal),
      any.core ≠ other →
        (attempt (l'.leave map n any) s' device k).1.2.phase other = s'.phase other := by
  have awake := phase_leave_ne_asleep map registered session s device j
  refine ⟨?_, ?_, fun n other any l' s' k h => phase_leave_other h n l' s' device k⟩
  · rintro l' s' k done n again hcore
    have still : s'.phase session.core ≠ .asleep := by
      rw [performAll_cons] at done
      have := congrArg (·.1.2.phase session.core) done
      exact this ▸ awake_performAll awake unentered device _
    obtain ⟨notice, extra, hextra, hleave⟩ :=
      attempt_leave_awake map l' n again (hcore.symm ▸ still)
    exact ⟨notice, extra, hextra, congrFun₂ hleave device k⟩
  · rw [performAll_cons, performAll_cons]
    exact performAll_filter awake unentered rfl

theorem leaves_once_reassigned : ∃ (l : Ladder) (s : Sequencer) (session : Session)
    (device : Device) (reassign : Act), s.phase session.core = .asleep ∧ 0 < l.length ∧
      (∀ act ∈ [reassign, .leave 0 session], act.enters session.core = false) ∧
      let twice := performAll Mt8192.map [.leave 0 session, reassign, .leave 0 session] l s device
        .empty
      .raise ⟨.spi, 1⟩ ∈ twice.2.events ∧ .raise ⟨.spi, 2⟩ ∉ twice.2.events := by
  let l : Ladder := ⟨[.new (.bus26m [⟨⟨.spi, 1⟩, 1#32, true⟩]) .empty], Mt8192.layout.shape, true⟩
  let s : Sequencer := Sequencer.new.setPhase 0 .asleep
  let session : Session := .new 0 0 .idle Mt8192.platform.idle
  let device : Device := .memory fun _ => 1#32
  let reassign : Act := .update .all (.redeliver [⟨⟨.spi, 2⟩, 1#32, true⟩])
  have registered : 0 < l.length := by decide
  have unentered : ∀ act ∈ [reassign, .leave 0 session], act.enters session.core = false := by
    decide
  obtain ⟨-, alike, -⟩ := leaves_once Mt8192.map device l s .empty registered session unentered
  have kept : [reassign, .leave 0 session].filter (fun act => !act.leaves session.core) =
      [reassign] := rfl
  rw [kept] at alike
  refine ⟨l, s, session, device, reassign, by decide, registered, unentered, ?_⟩
  dsimp only
  rw [alike.events]
  decide +kernel

end Ladder

end LowPower

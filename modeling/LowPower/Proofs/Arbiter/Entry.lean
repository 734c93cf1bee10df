import LowPower.Proofs.Arbiter.Coherence
import LowPower.Proofs.Ladder.Selection

namespace LowPower

open Bus (Silent attempt attempt_bind attempt_get_bind attempt_liftBus_bind when when_pos
  bind_apply)

theorem Constraint.silent_reportBlocked (cs : List Constraint) :
    Silent Notice.Expected (reportBlocked cs) := by
  induction cs with
  | nil => exact .pure ()
  | cons c cs ih =>
    rw [reportBlocked]
    split
    · exact .bind (.note trivial) fun _ => ih
    · exact .bind (.pure ()) fun _ => ih

namespace Arbiter

def arrive (p : Platform) (core start : Nat) (kind : Session.Kind) (extra : SessionOptions) :
    Action Depth := do
  refresh p
  match ← choose start kind with
  | none =>
    Bus.note (.noneEligible core kind)
    return .baseline
  | some index =>
    openSession p core index kind extra
    return .constraint index

def reportChoice (start : Nat) (kind : Session.Kind) (a : Arbiter) : Bus.Action Unit := do
  when (kind = .suspend) do Constraint.reportBlocked a.ladder.constraints
  Bus.note (.selected (a.ladder.select? start a.votes.required) start a.votes.required kind)

theorem silent_reportChoice (start : Nat) (kind : Session.Kind) (a : Arbiter) :
    Silent Notice.Expected (reportChoice start kind a) :=
  .bind (.when fun _ => Constraint.silent_reportBlocked _) fun _ => .note trivial

theorem attempt_choose (start : Nat) (kind : Session.Kind) (a : Arbiter) :
    attempt (choose start kind) a =
      (fun _ => (.ok (a.ladder.select? start a.votes.required), a)) <$>
        reportChoice start kind a := by
  by_cases hk : kind = .suspend
  · simp [choose, reportChoice, hk, Ladder.choose]
  · simp [choose, reportChoice, hk, Ladder.choose]

theorem attempt_enter {core : Nat} {p : Platform} (start : Nat) (kind : Session.Kind)
    (extra : SessionOptions) (a : Arbiter) (h : core < p.cores) :
    attempt (enter p core start kind extra) a = do
      when ((a.session? core).isSome) do Bus.note (.unwinding core)
      match ← attempt (close p core) a with
      | (.ok _, b) => attempt (arrive p core start kind extra) b
      | (.error fault, b) => return (.error fault, b) := by
  have hc : ¬ p.cores ≤ core := Nat.not_le.mpr h
  rw [enter, if_neg hc, attempt_get_bind]
  cases hs : a.session? core with
  | none =>
    rw [attempt_close_none p hs]
    rfl
  | some session =>
    change attempt (liftM (Bus.note (.unwinding core)) >>= fun _ =>
      close p core >>= fun _ => arrive p core start kind extra) a = _
    rw [attempt_liftBus_bind, when_pos Option.isSome_some]
    congr 1
    funext _
    rw [attempt_bind]
    congr 1
    funext r
    rcases r with ⟨⟨_⟩ | ⟨_⟩, b⟩
    · rfl
    · rfl

variable {p : Platform} {device : Device} {a : Arbiter} {i j : Journal} {core start : Nat}
  {kind : Session.Kind} {clocks : Clock.Table}

theorem attempt_arrive (extra : SessionOptions) (valid : p.layout.Valid)
    (looked : p.layout.observation p.map device j = (clocks, i)) :
    attempt (arrive p core start kind extra) a device j =
      (do
        reportChoice start kind (a.refreshed clocks)
        match (a.refreshed clocks).ladder.select? start a.votes.required with
        | none =>
          Bus.note (.noneEligible core kind)
          return ((.ok .baseline : Except Fault Depth), a.refreshed clocks)
        | some index =>
          attempt (openSession p core index kind extra >>= fun _ =>
            return Depth.constraint index) (a.refreshed clocks)) device i := by
  rw [arrive, attempt_bind, attempt_refresh valid, bind_map_left, bind_apply, looked]
  change attempt (choose start kind >>= _) (a.refreshed clocks) device i = _
  rw [attempt_bind, attempt_choose, bind_map_left]
  change _ = (reportChoice start kind (a.refreshed clocks) >>= fun _ => _) device i
  rw [bind_apply, bind_apply]
  change attempt (match (a.refreshed clocks).ladder.select? start a.votes.required with
    | none => _
    | some index => _) (a.refreshed clocks) device _ = _
  cases (a.refreshed clocks).ladder.select? start a.votes.required with
  | none => rfl
  | some index => rfl

theorem arrive_baseline (core : Nat) (kind : Session.Kind) (extra : SessionOptions)
    (valid : p.layout.Valid) (looked : p.layout.observation p.map device j = (clocks, i))
    (unselected : (a.refreshed clocks).ladder.select? start a.votes.required = none) :
    ∃ notices, (∀ n ∈ notices, n.Expected) ∧
      attempt (arrive p core start kind extra) a device j =
        ((.ok .baseline, a.refreshed clocks), { i with notices := notices ++ i.notices }) := by
  obtain ⟨new, hnew, hexpected⟩ :=
    (silent_reportChoice start kind (a.refreshed clocks)).exists_notices device i
  refine ⟨.noneEligible core kind :: new, ?_, ?_⟩
  · intro n hn
    cases hn with
    | head => exact trivial
    | tail _ hn => exact hexpected n hn
  · rw [attempt_arrive extra valid looked, bind_apply, hnew, unselected]
    rfl

theorem arrive_constraint {index : Nat} (kind : Session.Kind) (extra : SessionOptions)
    (accepted : p.Accepted) (coherent : Coherent p a) (valid : core < p.cores)
    (closed : a.session? core = none)
    (looked : p.layout.observation p.map device j = (clocks, i))
    (selected : (a.refreshed clocks).ladder.select? start a.votes.required = some index) :
    ∃ notices c b k, (∀ n ∈ notices, n.Expected) ∧
      attempt (arrive p core start kind extra) a device j = ((.ok (.constraint index), b), k) ∧
      Does p device (.arm core c
        (c.prepare ((a.refreshed clocks).newSession p core index kind extra)) a.votes.required)
        (a.refreshed clocks) { i with notices := notices ++ i.notices } b k := by
  obtain ⟨new, hnew, hexpected⟩ :=
    (silent_reportChoice start kind (a.refreshed clocks)).exists_notices device i
  have hleast := (Ladder.select?_eq_some_iff start index _ _).mp selected
  obtain ⟨-, c, hc, haccepts⟩ := hleast.1
  have hcore : core < coreCapacity := Nat.lt_of_lt_of_le valid accepted.cores
  let session := (a.refreshed clocks).newSession p core index kind extra
  have harm : Does p device (.arm core c (c.prepare session) (a.refreshed clocks).votes.required)
      (a.refreshed clocks) { i with notices := new ++ i.notices }
      ((a.refreshed clocks).entered core c session)
      (c.launch p.map a.votes.required session device { i with notices := new ++ i.notices }).2 :=
    .arm valid closed hc haccepts rfl
  refine ⟨new, c, _, _, hexpected, ?_, harm⟩
  rw [attempt_arrive extra accepted.layout looked, bind_apply, hnew, selected]
  change attempt (openSession p core index kind extra >>= _) (a.refreshed clocks) device _ = _
  rw [attempt_bind, attempt_openSession p kind extra hc hcore (coherent.idle closed)]
  rfl

end Arbiter

end LowPower

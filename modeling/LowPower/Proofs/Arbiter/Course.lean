import LowPower.Arbiter.Operation
import LowPower.Proofs.Arbiter.Control
import LowPower.Proofs.Arbiter.Entry
import LowPower.Proofs.Wake.Precedence

namespace LowPower

open Bus (Emits Reports attempt attempt_bind attempt_get_bind attempt_liftBus_bind attempt_map
  when bind_apply map_apply)

structure Entry where
  core : Nat
  start : Nat
  kind : Session.Kind
  extra : SessionOptions

def Operation.enters? : Operation → Option Entry
  | .idleEnter core hint => some ⟨core, hint, .idle, ∅⟩
  | .suspendEnter core extra => some ⟨core, 0, .suspend, extra⟩
  | _ => none

namespace Arbiter

inductive Closing (a : Arbiter) (core : Nat) : Option Session → List Deed → Prop
  | idle (closed : a.session? core = none) : Closing a core none []
  | wake {session left : Session} (c : Constraint) {outcome : Wake.Outcome}
      (opened : a.session? core = some session) (woken : left.wake = some outcome)
      (decoded : outcome.reason ≠ .none) :
      Closing a core (some left) [.wake core c session outcome]

variable {p : Platform} {device : Device} {a b : Arbiter} {i j k : Journal} {core start : Nat}

/-- A wake of the core could take longer than the account of the constraint which it leaves has
room for. -/
def Overfull (a : Arbiter) (core : Nat) : Prop :=
  ∃ (session : Session) (c : Constraint) (record : Wake.Record),
    a.session? core = some session ∧ a.ladder.constraints[session.constraint]? = some c ∧
    c.account session.kind record = .error .addOverflow

theorem close_outcome (coherent : Coherent p a) (core : Nat) (device : Device) (j : Journal) :
    (∃ left ds b k, attempt (close p core) a device j = ((.ok left, b), k) ∧
      Closing a core left ds ∧ DoesAll p device ds a j b k) ∨
    (∃ b k, attempt (close p core) a device j = ((.error .addOverflow, b), k)) ∧
      Overfull a core := by
  cases hs : a.session? core with
  | none =>
    rw [attempt_close_none p hs]
    exact .inl ⟨none, [], a, j, rfl, .idle hs, .nil a j⟩
  | some session =>
    obtain ⟨c, hc⟩ := coherent.exists_constraint hs
    rw [attempt_close_some p hs hc (coherent.asleep hs), bind_apply]
    obtain ⟨record, hdecode⟩ :=
      Sequencer.exists_decode_wakeUp p.map (c.ending session) device j
    cases hw : Sequencer.wakeUp p.map (c.ending session) device j with
    | mk outcome i =>
      rw [hw] at hdecode
      change outcome.reason = _ at hdecode
      cases ha : c.account session.kind outcome.record with
      | error fault =>
        obtain rfl := Constraint.account_eq_error ha
        exact .inr ⟨⟨_, i, rfl⟩, session, c, outcome.record, hs, hc, ha⟩
      | ok c' =>
        left
        refine ⟨_, _, _, _, rfl, .wake c hs rfl ?_, (Does.wake hs hc hw ha rfl).all⟩
        rw [hdecode]
        exact Wake.Reason.decode_ne_none record

theorem close_deeds (coherent : Coherent p a) (core : Nat) (device : Device) (j : Journal) :
    (∃ left ds b k, attempt (close p core) a device j = ((.ok left, b), k) ∧
      Closing a core left ds ∧ DoesAll p device ds a j b k) ∨
    (∃ b k, attempt (close p core) a device j = ((.error .addOverflow, b), k)) :=
  (close_outcome coherent core device j).imp_right And.left

theorem Closing.closed {left : Option Session} {ds : List Deed} (h : Closing a core left ds)
    (accepted : p.Accepted) (coherent : Coherent p a) (done : DoesAll p device ds a i b j) :
    b.session? core = none := by
  rw [done.session? accepted coherent]
  cases h with
  | idle closed => exact closed
  | wake => simp [Deed.session?]

inductive Completes (p : Platform) (device : Device) (e : Entry) (a : Arbiter) (j : Journal) :
    Depth → Arbiter → Journal → Prop
  | baseline {left : Option Session} {ds : List Deed} {b : Arbiter} {i k : Journal}
      {clocks : Clock.Table} (notices notices' : List Notice)
      (expected : ∀ n ∈ notices, n.Expected) (expected' : ∀ n ∈ notices', n.Expected)
      (closed : attempt (close p e.core) a device { j with notices := notices ++ j.notices } =
        ((.ok left, b), i))
      (closing : Closing a e.core left ds)
      (done : DoesAll p device ds a { j with notices := notices ++ j.notices } b i)
      (looked : p.layout.observation p.map device i = (clocks, k))
      (unselected : (b.refreshed clocks).ladder.select? e.start b.votes.required = none) :
      Completes p device e a j .baseline (b.refreshed clocks)
        { k with notices := notices' ++ k.notices }
  | constraint {left : Option Session} {ds : List Deed} {b b' : Arbiter} {i k k' : Journal}
      {clocks : Clock.Table} {index : Nat} {c : Constraint} (notices notices' : List Notice)
      (expected : ∀ n ∈ notices, n.Expected) (expected' : ∀ n ∈ notices', n.Expected)
      (closed : attempt (close p e.core) a device { j with notices := notices ++ j.notices } =
        ((.ok left, b), i))
      (closing : Closing a e.core left ds)
      (done : DoesAll p device ds a { j with notices := notices ++ j.notices } b i)
      (looked : p.layout.observation p.map device i = (clocks, k))
      (selected : (b.refreshed clocks).ladder.select? e.start b.votes.required = some index)
      (armed : Does p device (.arm e.core c
        (c.prepare ((b.refreshed clocks).newSession p e.core index e.kind e.extra))
        b.votes.required) (b.refreshed clocks) { k with notices := notices' ++ k.notices } b' k') :
      Completes p device e a j (.constraint index) b' k'

theorem enter_outcome (accepted : p.Accepted) (coherent : Coherent p a) (e : Entry)
    (valid : e.core < p.cores) (device : Device) (j : Journal) :
    (∃ d b k, attempt (enter p e.core e.start e.kind e.extra) a device j = ((.ok d, b), k) ∧
      Completes p device e a j d b k) ∨
    (∃ b k, attempt (enter p e.core e.start e.kind e.extra) a device j =
      ((.error .addOverflow, b), k)) ∧ Overfull a e.core := by
  have hnoted : ∃ notices, (∀ n ∈ notices, n.Expected) ∧
      (when ((a.session? e.core).isSome) do Bus.note (.unwinding e.core)) device j =
        ((), { j with notices := notices ++ j.notices }) := by
    cases (a.session? e.core).isSome with
    | false => exact ⟨[], nofun, rfl⟩
    | true => exact ⟨[.unwinding e.core], by simp [Notice.Expected], rfl⟩
  obtain ⟨notices, expected, hnoted⟩ := hnoted
  rw [attempt_enter e.start e.kind e.extra a valid, bind_apply, hnoted, bind_apply]
  have hclose := close_outcome coherent e.core device { j with notices := notices ++ j.notices }
  rcases hclose with ⟨left, ds, b, i, hclosed, closing, done⟩ | ⟨⟨b, i, hbroken⟩, overfull⟩
  · left
    simp only [hclosed]
    have hcoherent : Coherent p b := done.coherent accepted coherent
    have hfree : b.session? e.core = none := closing.closed accepted coherent done
    cases hlooked : p.layout.observation p.map device i with
    | mk clocks k =>
      cases hselect : (b.refreshed clocks).ladder.select? e.start b.votes.required with
      | none =>
        obtain ⟨notices', expected', harrive⟩ :=
          arrive_baseline e.core e.kind e.extra accepted.layout hlooked hselect
        exact ⟨_, _, _, harrive, .baseline notices notices' expected expected' hclosed closing done
          hlooked hselect⟩
      | some index =>
        obtain ⟨notices', c, b', k', expected', harrive, harm⟩ := arrive_constraint
          e.kind e.extra accepted hcoherent valid hfree hlooked hselect
        exact ⟨_, _, _, harrive, .constraint notices notices' expected expected' hclosed closing
          done hlooked hselect harm⟩
  · right
    simp only [hbroken]
    exact ⟨⟨b, i, rfl⟩, overfull⟩

theorem enter_completes (accepted : p.Accepted) (coherent : Coherent p a) (e : Entry)
    (valid : e.core < p.cores) (device : Device) (j : Journal) :
    (∃ d b k, attempt (enter p e.core e.start e.kind e.extra) a device j = ((.ok d, b), k) ∧
      Completes p device e a j d b k) ∨
    (∃ b k, attempt (enter p e.core e.start e.kind e.extra) a device j =
      ((.error .addOverflow, b), k)) :=
  (enter_outcome accepted coherent e valid device j).imp_right And.left

/-- The parts of which an operation is made in a state, and its answer. -/
inductive Course (p : Platform) (a : Arbiter) : Operation → List Deed → Answer → Prop
  | invalidEntry {op : Operation} {e : Entry} (entry : op.enters? = some e)
      (invalid : p.cores ≤ e.core) : Course p a op [.report] (.depth .baseline)
  | baseline {op : Operation} {e : Entry} {left : Option Session} {ds : List Deed}
      (clocks : Clock.Table) (entry : op.enters? = some e) (valid : e.core < p.cores)
      (closing : Closing a e.core left ds) :
      Course p a op (.report :: (ds ++ [.look clocks, .report])) (.depth .baseline)
  | constraint {op : Operation} {e : Entry} {left : Option Session} {ds : List Deed}
      {session : Session} (clocks : Clock.Table) (c : Constraint) (required : ResourceSet)
      (entry : op.enters? = some e) (valid : e.core < p.cores) (closing : Closing a e.core left ds)
      (core : session.core = e.core) (kind : session.kind = e.kind) :
      Course p a op
        (.report :: (ds ++ [.look clocks, .report, .arm e.core c session required]))
        (.depth (.constraint session.constraint))
  | invalidLeave {core : Nat} (invalid : p.cores ≤ core) :
      Course p a (.leave core) [.report] (.reason .none)
  | leave {core : Nat} {left : Option Session} {ds : List Deed} (valid : core < p.cores)
      (closing : Closing a core left ds) :
      Course p a (.leave core) ds (.reason (((left.bind (·.wake)).map (·.reason)).getD .none))
  | vote (resource : Resource) (requested : Bool) :
      Course p a (.vote resource requested) [.vote resource requested, .report] .none
  | withdraw (resource : Resource) : Course p a (.withdraw resource) [.withdraw resource] .none
  | notify (target : Target) (request : Constraint.Request) (refusal : Option Refusal) :
      Course p a (.notify target request) [.report, .update target request] (.updated refusal)
  | control (command : Command) (reply : Command.Reply) :
      Course p a (.control command) [.report, command.deed, .report] (.reply reply)

theorem step_entry {op : Operation} {e : Entry} (h : op.enters? = some e) (p : Platform)
    (device : Device) (a : Arbiter) (j : Journal) :
    op.step p device a j = ((fun r => (r.1.map Answer.depth, r.2)) <$>
      attempt (enter p e.core e.start e.kind e.extra) a) device j := by
  rw [← attempt_map]
  cases op with
  | idleEnter core hint =>
    cases h
    rfl
  | suspendEnter core extra =>
    cases h
    rfl
  | _ => cases h

theorem attempt_leave (p : Platform) (core : Nat) (a : Arbiter) :
    attempt (leave p core) a =
      if p.cores ≤ core then do
        Bus.note (.invalidLeave core)
        return (.ok .none, a)
      else
        (fun r => (r.1.map fun left => ((left.bind (·.wake)).map (·.reason)).getD .none, r.2)) <$>
          attempt (close p core) a := by
  unfold leave
  split
  · rfl
  · rw [← attempt_map, ← bind_pure_comp]

theorem course_entry {op : Operation} {e : Entry} {answer : Answer} (entry : op.enters? = some e)
    (accepted : p.Accepted) (coherent : Coherent p a)
    (h : op.step p device a j = ((.ok answer, b), k)) :
    ∃ ds, Course p a op ds answer ∧ DoesAll p device ds a j b k := by
  rw [step_entry entry, map_apply] at h
  by_cases valid : e.core < p.cores
  · rcases enter_completes accepted coherent e valid device j with
      ⟨d, b', k', hentered, completes⟩ | ⟨b', k', hbroken⟩
    · rw [hentered] at h
      cases h
      cases completes with
      | @baseline _ _ _ _ _ clocks _ _ expected expected' _ closing done looked _ =>
        exact ⟨_, .baseline clocks entry valid closing, .cons (.report expected)
          (done.append (.cons (.look looked) (.cons (.report expected') (.nil _ _))))⟩
      | @constraint _ _ _ _ _ _ _ clocks index c _ _ expected expected' _ closing done looked _
          armed =>
        exact ⟨_, .constraint clocks c _ entry valid closing rfl rfl, .cons (.report expected)
          (done.append (.cons (.look looked) (.cons (.report expected') armed.all)))⟩
    · rw [hbroken] at h
      cases h
  · have invalid : p.cores ≤ e.core := Nat.not_lt.mp valid
    rw [enter, if_pos invalid] at h
    cases h
    exact ⟨_, .invalidEntry entry invalid,
      (Does.note (.invalidEntry e.kind e.core) trivial a j).all⟩

theorem course_leave {core : Nat} {answer : Answer} (coherent : Coherent p a)
    (h : (Operation.leave core).step p device a j = ((.ok answer, b), k)) :
    ∃ ds, Course p a (.leave core) ds answer ∧ DoesAll p device ds a j b k := by
  change attempt (Answer.reason <$> leave p core) a device j = _ at h
  rw [attempt_map, attempt_leave] at h
  split at h
  · next invalid =>
    cases h
    exact ⟨_, .invalidLeave invalid, (Does.note (.invalidLeave core) trivial a j).all⟩
  · next valid =>
    rcases close_deeds coherent core device j with
      ⟨left, ds, b', k', hclosed, closing, done⟩ | ⟨b', k', hbroken⟩
    · rw [map_apply, map_apply, hclosed] at h
      cases h
      exact ⟨ds, .leave (Nat.not_le.mp valid) closing, done⟩
    · rw [map_apply, map_apply, hbroken] at h
      cases h

theorem course_notify {target : Target} {request : Constraint.Request} {answer : Answer}
    (h : (Operation.notify target request).step p device a j = ((.ok answer, b), k)) :
    ∃ ds, Course p a (.notify target request) ds answer ∧ DoesAll p device ds a j b k := by
  obtain ⟨result, i, hnotify, hreport⟩ := notify_does (p := p) target request a device j
  change attempt (notify target request >>= _) a device j = _ at h
  rw [attempt_bind, bind_apply, hnotify] at h
  rcases result with fault | ⟨refusal | ⟨⟩⟩
  · cases h
  · cases h
    exact ⟨_, .notify target request (some refusal),
      .cons hreport (Does.update target request).all⟩
  · cases h
    exact ⟨_, .notify target request none, .cons hreport (Does.update target request).all⟩

theorem course_control {command : Command} {answer : Answer}
    (h : (Operation.control command).step p device a j = ((.ok answer, b), k)) :
    ∃ ds, Course p a (.control command) ds answer ∧ DoesAll p device ds a j b k := by
  change attempt (Answer.reply <$> control p command) a device j = _ at h
  rw [attempt_map, map_apply] at h
  cases hc : attempt (control p command) a device j with
  | mk r k' =>
    obtain ⟨result, b'⟩ := r
    rw [hc] at h
    cases result with
    | error fault => cases h
    | ok reply =>
      cases h
      exact ⟨_, .control command reply, control_does hc⟩

theorem step_course {op : Operation} {answer : Answer} (accepted : p.Accepted)
    (coherent : Coherent p a) (h : op.step p device a j = ((.ok answer, b), k)) :
    ∃ ds, Course p a op ds answer ∧ DoesAll p device ds a j b k := by
  cases op with
  | idleEnter core hint => exact course_entry rfl accepted coherent h
  | suspendEnter core extra => exact course_entry rfl accepted coherent h
  | leave core => exact course_leave coherent h
  | vote resource requested =>
    cases h
    exact ⟨_, .vote resource requested, .cons (.vote resource requested)
      (Does.note (.voted resource _) trivial _ j).all⟩
  | withdraw resource =>
    cases h
    exact ⟨_, .withdraw resource, (Does.withdraw resource).all⟩
  | notify target request => exact course_notify h
  | control command => exact course_control h

theorem Coherent.step {op : Operation} {answer : Answer} (coherent : Coherent p a)
    (accepted : p.Accepted) (h : op.step p device a j = ((.ok answer, b), k)) : Coherent p b := by
  obtain ⟨ds, -, done⟩ := step_course accepted coherent h
  exact done.coherent accepted coherent

end Arbiter

end LowPower

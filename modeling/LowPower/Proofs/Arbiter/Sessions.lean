import LowPower.Platform.Mt8192
import LowPower.Proofs.Arbiter.Run
import LowPower.Proofs.Sequencer.Report

namespace LowPower

open Bus (map_apply)

namespace Operation

def core? : Operation → Option Nat
  | .idleEnter core _ | .suspendEnter core _ | .leave core => some core
  | _ => none

theorem core?_of_enters? {op : Operation} {e : Entry} (h : op.enters? = some e) :
    op.core? = some e.core := by
  cases op with
  | idleEnter => cases h; rfl
  | suspendEnter => cases h; rfl
  | _ => cases h

end Operation

@[simp] theorem Command.session?_deed (command : Command) (core : Nat) (session : Option Session) :
    command.deed.session? core session = session := by
  cases command <;> rfl

namespace Arbiter

open Operation (core?_of_enters?)

variable {p : Platform} {device : Device} {a b : Arbiter} {i j : Journal} {core other : Nat}
  {op : Operation} {answer : Answer} {left : Option Session} {d : Deed} {ds : List Deed}
  {session : Option Session}

def sessionAfter (ds : List Deed) (core : Nat) (session : Option Session) : Option Session :=
  ds.foldl (fun session d => d.session? core session) session

@[simp] theorem sessionAfter_nil : sessionAfter [] core session = session := rfl

@[simp] theorem sessionAfter_cons :
    sessionAfter (d :: ds) core session = sessionAfter ds core (d.session? core session) := rfl

@[simp] theorem sessionAfter_append (es : List Deed) :
    sessionAfter (ds ++ es) core session = sessionAfter es core (sessionAfter ds core session) :=
  List.foldl_append

theorem Closing.sessionAfter (h : Closing a core left ds) (other : Nat) :
    sessionAfter ds other (a.session? other) = if core = other then none else a.session? other := by
  cases h with
  | idle closed =>
    by_cases hc : core = other
    · rw [if_pos hc, ← hc]
      exact closed
    · rw [if_neg hc]
      rfl
  | wake => rfl

theorem Closing.reason_eq_none_iff (h : Closing a core left ds) :
    ((left.bind (·.wake)).map (·.reason)).getD .none = Wake.Reason.none ↔
      a.session? core = none := by
  cases h with
  | idle closed => simp [closed]
  | wake c opened woken decoded => simp [opened, woken, decoded]

theorem Course.sessionAfter_other (h : Course p a op ds answer) (hop : op.core? ≠ some other) :
    sessionAfter ds other (a.session? other) = a.session? other := by
  have differs : ∀ {e : Entry}, op.enters? = some e → e.core ≠ other := by
    rintro e he rfl
    exact hop (core?_of_enters? he)
  cases h with
  | invalidEntry => rfl
  | baseline _ entry _ closing =>
    simp [Deed.session?, closing.sessionAfter, differs entry]
  | constraint _ _ _ entry _ closing =>
    simp [Deed.session?, closing.sessionAfter, differs entry]
  | invalidLeave => rfl
  | @leave core _ _ _ closing =>
    have : core ≠ other := fun h => hop (congrArg some h)
    simp [closing.sessionAfter, this]
  | vote => rfl
  | withdraw => rfl
  | notify => rfl
  | control command =>
    change sessionAfter [command.deed] other (a.session? other) = _
    simp

theorem Course.sessionAfter_entry {e : Entry} (h : Course p a op ds answer)
    (coherent : Coherent p a) (he : op.enters? = some e) :
    ∃ depth, answer = .depth depth ∧ ∀ index, depth = .constraint index ↔
      ∃ session, sessionAfter ds e.core (a.session? e.core) = some session ∧
        session.constraint = index := by
  cases h with
  | invalidEntry entry invalid =>
    obtain rfl := Option.some.inj (entry.symm.trans he)
    refine ⟨.baseline, rfl, fun index => ⟨nofun, ?_⟩⟩
    rintro ⟨session, hs, -⟩
    cases (coherent.beyond invalid).symm.trans hs
  | baseline clocks entry valid closing =>
    obtain rfl := Option.some.inj (entry.symm.trans he)
    refine ⟨.baseline, rfl, fun index => ⟨nofun, ?_⟩⟩
    rintro ⟨session, hs, -⟩
    simp [Deed.session?, closing.sessionAfter] at hs
  | constraint clocks c required entry valid closing hcore =>
    obtain rfl := Option.some.inj (entry.symm.trans he)
    refine ⟨_, rfl, fun index => ?_⟩
    simp [Deed.session?]
  | _ => cases he

theorem Course.sessionAfter_leave (h : Course p a (.leave core) ds answer)
    (coherent : Coherent p a) :
    sessionAfter ds core (a.session? core) = none ∧
      ∃ reason, answer = .reason reason ∧ (reason = .none ↔ a.session? core = none) := by
  cases h with
  | invalidEntry entry => cases entry
  | baseline _ entry => cases entry
  | constraint _ _ _ entry => cases entry
  | invalidLeave invalid =>
    have hnone : a.session? core = none := coherent.beyond invalid
    exact ⟨hnone, .none, rfl, iff_of_true rfl hnone⟩
  | leave valid closing =>
    refine ⟨?_, _, rfl, closing.reason_eq_none_iff⟩
    rw [closing.sessionAfter, if_pos rfl]

theorem session?_of_entry {e : Entry} (accepted : p.Accepted) (coherent : Coherent p a)
    (entry : op.enters? = some e) (h : op.step p device a i = ((.ok answer, b), j)) :
    (∃ index c u, answer = .depth (.constraint index) ∧
      b.session? e.core =
        some (Constraint.prepare c (newSession p u e.core index e.kind e.extra))) ∨
    answer = .depth .baseline ∧ b.session? e.core = none := by
  by_cases valid : e.core < p.cores
  case neg =>
    have invalid : p.cores ≤ e.core := Nat.not_lt.mp valid
    rw [step_entry entry, map_apply, enter, if_pos invalid] at h
    cases h
    exact .inr ⟨rfl, coherent.beyond invalid⟩
  rw [step_entry entry, map_apply] at h
  rcases enter_completes accepted coherent e valid device i with
    ⟨depth, b', k', hentered, completes⟩ | ⟨b', k', hbroken⟩
  · rw [hentered] at h
    cases h
    cases completes with
    | baseline _ _ _ _ _ closing done =>
      have closed := closing.closed accepted coherent done
      exact .inr ⟨rfl, closed⟩
    | @constraint _ _ u _ _ _ _ clocks index c _ _ _ _ _ _ done looked _ armed =>
      have coherent' := (done.coherent accepted coherent).does accepted (.look looked)
      refine .inl ⟨index, c, u.refreshed clocks, rfl, ?_⟩
      rw [armed.session? accepted coherent', Deed.session?, if_pos rfl]
  · rw [hbroken] at h
    cases h

theorem Does.expected (hd : Does p device d a i b j) (h : ∀ n ∈ i.notices, n.Expected) :
    ∀ n ∈ j.notices, n.Expected := by
  cases hd with
  | report expected => exact fun n hn => (List.mem_append.mp hn).elim (expected n) (h n)
  | look looked => exact (p.layout.reports_observation p.map).all looked h
  | wake _ _ ended _ resumed =>
    have hended := (Sequencer.reports_wakeUp p.map _).all ended h
    exact (Constraint.reports_resume p.map _ _ _).all resumed hended
  | arm _ _ _ _ launched => exact (Constraint.reports_launch p.map _ _ _).all launched h
  | setWatchdog enable ticks timed put =>
    have htimed := (Bus.Reports.write p.map.timerValue ticks).all timed h
    exact (Watchdog.reports_put p.map enable).all put htimed
  | readPll looked => exact (Bus.Reports.read p.map.pllMode).all looked h
  | _ => exact h

/-- What an operation does to sessions and phases. -/
structure Settles (a : Arbiter) (op : Operation) (answer : Answer) (b : Arbiter) : Prop where
  left : ∀ core, op = .leave core → b.session? core = none ∧
    ∃ reason, answer = .reason reason ∧ (reason = .none ↔ a.session? core = none)
  entered : ∀ e, op.enters? = some e → ∃ depth, answer = .depth depth ∧
    ∀ index, depth = .constraint index ↔
      ∃ session, b.session? e.core = some session ∧ session.constraint = index
  kept : ∀ other, op.core? ≠ some other → b.session? other = a.session? other ∧
    b.sequencer.phase other = a.sequencer.phase other

theorem step_settles (accepted : p.Accepted) (coherent : Coherent p a)
    (h : op.step p device a i = ((.ok answer, b), j)) : Settles a op answer b := by
  obtain ⟨ds, course, done⟩ := step_course accepted coherent h
  have hsession : ∀ core, b.session? core = sessionAfter ds core (a.session? core) :=
    done.session? accepted coherent
  have hphase := (done.coherent accepted coherent).phase
  constructor
  · rintro core rfl
    rw [hsession]
    exact course.sessionAfter_leave coherent
  · intro e he
    rw [hsession]
    exact course.sessionAfter_entry coherent he
  · intro other hop
    have hkept : b.session? other = a.session? other :=
      (hsession other).trans (course.sessionAfter_other hop)
    exact ⟨hkept, by rw [hphase, hkept, coherent.phase]⟩

/-- Whatever was done before, exactly the cores with an open session are asleep, and nothing was
reported which should never happen. Each further operation settles as it should. -/
theorem reachable_sessions (reached : Reachable p device a i) :
    Coherent p a ∧
    (∀ core, p.cores ≤ core → a.session? core = none ∧ a.sequencer.phase core = .idle) ∧
    (∀ n ∈ i.notices, n.Expected) ∧
    ∀ op answer b j, Operation.step p device op a i = ((.ok answer, b), j) →
      Settles a op answer b := by
  have coherent := reached.coherent
  refine ⟨coherent, ?_, ?_, ?_⟩
  · intro core hcore
    have hnone : a.session? core = none := coherent.beyond hcore
    exact ⟨hnone, coherent.idle hnone⟩
  · exact reached.invariant (I := fun _ j => ∀ n ∈ j.notices, n.Expected)
      (fun hfresh => hfresh.expected) fun hd _ h => hd.expected h
  · exact fun op answer b j h => step_settles reached.accepted coherent h

theorem reachable_sessions_idling : ∃ a i,
    Reachable Mt8192.platform (.memory fun _ => 0#32) a i ∧
    a.sequencer.phase 0 = .asleep ∧ a.sequencer.phase 9 = .idle := by
  have opens : (replayAll Mt8192.platform (.memory fun _ => 0#32)
      [.notify .all (.setFlags .firmware), .idleEnter 0 0, .idleEnter 9 0]).any
      (fun r => (r.2.1.session? 0).isSome) = true := by
    decide +kernel
  obtain ⟨⟨ops, a, i⟩, hrun, hopen⟩ := (Option.any_eq_true _ _).mp opens
  have reached := reachable_of_replayAll hrun
  obtain ⟨coherent, beyond, -⟩ := reachable_sessions reached
  refine ⟨a, i, reached, ?_, (beyond 9 (by decide)).2⟩
  rw [coherent.phase 0, if_pos hopen]

end Arbiter

end LowPower

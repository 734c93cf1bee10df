import LowPower.Proofs.Arbiter.Accounting
import LowPower.Proofs.Arbiter.Matching
import LowPower.Proofs.Wake.Ring

namespace LowPower

open Wake (Category History Reason)

namespace Sequencer

/-- A history goes on with a wake of which a record is made: the session is undone, and then the
registers are read. -/
def Captures (map : Register.Map) (record : Wake.Record) (before after : Bus.History) : Prop :=
  ∃ options seen r, record = concluded seen r ∧
    ∃ undone ∈ disarming map options seen, ∃ rest : List Bus.Event,
      after = (undone ++ (captured map r ++ rest)).reverse ++ before

theorem Captures.append {map : Register.Map} {record : Wake.Record} {before after : Bus.History}
    (h : Captures map record before after) (es : List Bus.Event) :
    Captures map record before (es.reverse ++ after) := by
  obtain ⟨options, seen, r, hrecord, undone, hundone, rest, rfl⟩ := h
  refine ⟨options, seen, r, hrecord, undone, hundone, rest ++ es, ?_⟩
  simp

end Sequencer

/-- The end of a session, seen from outside. -/
structure Waking where
  entry : Entry
  index : Nat
  traced : Bool
  record : Wake.Record

namespace Waking

def category? (w : Waking) : Option Category :=
  match w.entry.kind with
  | .idle => if w.traced then some .lowPower else none
  | .suspend =>
    some (if w.entry.extra.contains SessionOptions.traceLowPower then .lowPower else .suspend)

def file (w : Waking) (h : History) : History :=
  match w.category? with
  | some category => h.record category w.record
  | none => h

def fileAll (ws : List Waking) (h : History) : History := ws.foldl (fun h w => w.file h) h

def filed (category : Category) (ws : List Waking) : List Wake.Record :=
  (ws.filter (·.category? = some category)).map (·.record)

theorem filed_cons (category : Category) (w : Waking) (ws : List Waking) :
    filed category (w :: ws) =
      if w.category? = some category then w.record :: filed category ws else filed category ws := by
  by_cases h : w.category? = some category
  · simp [filed, h]
  · simp [filed, h]

theorem ring_fileAll (ws : List Waking) (h : History) (category : Category) :
    (fileAll ws h).ring category = (h.ring category).pushAll (filed category ws) := by
  induction ws generalizing h with
  | nil => rfl
  | cons w ws ih =>
    refine (ih (w.file h)).trans ?_
    rw [filed_cons, file]
    cases hw : w.category? with
    | none => rfl
    | some other =>
      dsimp only
      rw [History.ring_record]
      by_cases heq : other = category
      · rw [if_pos heq, if_pos (congrArg some heq)]
        rfl
      · rw [if_neg heq, if_neg fun h => heq (Option.some.inj h)]

theorem filled_fileAll (ws : List Waking) (category : Category) :
    ((fileAll ws .empty).ring category).Filled (filed category ws) := by
  rw [ring_fileAll]
  have filled := History.filled_empty category
  cases category with
  | lowPower => exact filled.pushAll (by decide) (by decide) _
  | suspend => exact filled.pushAll (by decide) (by decide) _

structure Faithful (map : Register.Map) (w : Waking) (op : Operation) (answer : Answer)
    (i j : Journal) : Prop where
  constraint : w.record.constraint = BitVec.ofNat 32 w.index
  core : w.record.core = BitVec.ofNat 32 w.entry.core
  reason : w.record.reason = BitVec.ofNat 32 (Reason.decode w.record).code
  captures : Sequencer.Captures map w.record i.events j.events
  returned : ∀ core, op = .leave core → answer = .reason (Reason.decode w.record)

end Waking

theorem Arbiter.Began.category?_ending {e : Entry} {index : Nat} {session : Session}
    (began : Began e index session) (c : Constraint) (record : Wake.Record) :
    (c.ending session).options.category? = Waking.category?
      ⟨e, index, c.status.flags.contains ConstraintFlags.traceIdle, record⟩ := by
  have lowPower := began.lowPower
  have suspend := began.suspend
  change (session.options ∪ c.traceOptions session.kind).category? = _
  rw [began.kind, Waking.category?]
  cases hk : e.kind with
  | idle =>
    have idle := began.idle hk
    rw [idle] at lowPower suspend
    dsimp only [Constraint.traceOptions]
    split
    · rw [SessionOptions.category?, if_pos (Flags.contains_union_right _ _)]
    · rw [SessionOptions.category?, Flags.contains_union_of_disjoint _ (by decide), lowPower,
        Flags.contains_union_of_disjoint _ (by decide), suspend]
      rfl
  | suspend =>
    dsimp only [Constraint.traceOptions]
    rw [SessionOptions.category?, Flags.contains_union_of_disjoint _ (by decide), lowPower,
      Flags.contains_union_right, if_pos rfl]
    split
    · rfl
    · rfl

namespace Arbiter

variable {p : Platform} {device : Device} {a b : Arbiter} {i j k : Journal} {core : Nat}
  {left : Option Session} {d : Deed} {ds es : List Deed} {op : Operation} {answer : Answer}
  {ops earlier : List (Operation × Answer)} {w : Waking}

def Deed.Quiet : Deed → Prop
  | .wake .. => False
  | _ => True

theorem Deed.Keeps.quiet {n : Nat} (h : d.Keeps n) : d.Quiet := by
  cases d with
  | wake => exact h
  | _ => exact trivial

theorem Does.quiet (hd : Does p device d a i b j) (h : d.Quiet) :
    b.sequencer.history = a.sequencer.history ∧ b.sequencer.lastWake = a.sequencer.lastWake := by
  cases hd with
  | wake => exact h.elim
  | _ => exact ⟨rfl, rfl⟩

theorem DoesAll.quiet (h : DoesAll p device ds a i b j) (hquiet : ∀ d ∈ ds, d.Quiet) :
    b.sequencer.history = a.sequencer.history ∧ b.sequencer.lastWake = a.sequencer.lastWake := by
  induction h with
  | nil => exact ⟨rfl, rfl⟩
  | cons head _ ih =>
    obtain ⟨hd, hds⟩ := List.forall_mem_cons.mp hquiet
    obtain ⟨history, lastWake⟩ := head.quiet hd
    obtain ⟨history', lastWake'⟩ := ih hds
    exact ⟨history'.trans history, lastWake'.trans lastWake⟩

theorem Course.quiet (h : Course p a op ds answer) (hcore : op.core? = none) :
    ∀ d ∈ ds, d.Quiet := by
  have enters {e : Entry} (entry : op.enters? = some e) : False := by
    rw [Operation.core?_of_enters? entry] at hcore
    cases hcore
  cases h with
  | vote | withdraw | notify => simp [Deed.Quiet]
  | control command => cases command <;> simp [Command.deed, Deed.Quiet]
  | invalidEntry entry => exact (enters entry).elim
  | baseline _ entry => exact (enters entry).elim
  | constraint _ _ _ entry => exact (enters entry).elim
  | invalidLeave | leave => cases hcore

/-- The wake of an operation, if it ends the session which an entry among the earlier operations
opened. -/
def waking? (earlier : List (Operation × Answer)) (a : Arbiter) (op : Operation) (b : Arbiter) :
    Option Waking :=
  match op.core?.bind (opened? · earlier), b.sequencer.lastWake with
  | some (entry, index), some outcome => some {
      entry, index
      traced := (a.ladder.observe (·.status.flags.contains ConstraintFlags.traceIdle) index).getD
        false
      record := outcome.record }
  | _, _ => none

def wakings (p : Platform) (device : Device) (earlier : List (Operation × Answer)) :
    List (Operation × Answer) → Arbiter → Journal → List Waking
  | [], _, _ => []
  | (op, answer) :: ops, a, j =>
    let after := op.step p device a j
    (waking? earlier a op after.1.2).toList ++
      wakings p device (earlier ++ [(op, answer)]) ops after.1.2 after.2

structure Traced (map : Register.Map) (earlier : List (Operation × Answer)) (a : Arbiter)
    (i : Journal) (op : Operation) (answer : Answer) (b : Arbiter) (j : Journal) : Prop where
  wakes : (waking? earlier a op b).isSome = (a.ended? op).isSome
  files : b.sequencer.history = Waking.fileAll (waking? earlier a op b).toList a.sequencer.history
  faithful : ∀ w, waking? earlier a op b = some w → w.Faithful map op answer i j

theorem Traced.of_quiet {map : Register.Map} (unended : a.ended? op = none)
    (none : waking? earlier a op b = none)
    (history : b.sequencer.history = a.sequencer.history) :
    Traced map earlier a i op answer b j := by
  refine ⟨by rw [none, unended]; rfl, by rw [none]; exact history, fun w hw => ?_⟩
  rw [none] at hw
  cases hw

theorem Does.wakes {c : Constraint} {session : Session} {outcome : Wake.Outcome}
    (hd : Does p device (.wake core c session outcome) a i b j) :
    a.ladder.constraints[session.constraint]? = some c ∧
    b.sequencer.lastWake = some outcome ∧
    b.sequencer.history =
      Sequencer.recorded (c.ending session).options outcome.record a.sequencer.history ∧
    outcome.reason = Reason.decode outcome.record ∧
    outcome.record.reason = BitVec.ofNat 32 (Reason.decode outcome.record).code ∧
    outcome.record.constraint = BitVec.ofNat 32 session.constraint ∧
    outcome.record.core = BitVec.ofNat 32 session.core ∧
    Sequencer.Captures p.map outcome.record i.events j.events := by
  cases hd with
  | wake _ registered ended _ resumed =>
    obtain ⟨es, ⟨hreason, hes⟩, hended⟩ :=
      (Sequencer.follows_wakeUp_sighting p.map _).events ended
    obtain ⟨fs, -, hresumed⟩ := (Constraint.follows_resume p.map _ _ _).events resumed
    obtain ⟨_, ⟨seen, r, hrecord, hconstraint, hcore, hsighted⟩, reads, -, rfl⟩ :=
      Language.mem_mul.mp hes
    obtain ⟨undone, hundone, _, hrest, rfl⟩ := Language.mem_mul.mp hsighted
    obtain ⟨_, rfl, marks, -, rfl⟩ := Language.mem_mul.mp hrest
    have constraint : outcome.record.constraint = r.constraint := by
      rw [hrecord]
      cases seen <;> rfl
    have core : outcome.record.core = r.core := by
      rw [hrecord]
      cases seen <;> rfl
    refine ⟨registered, rfl, rfl, hreason, by rw [hrecord]; rfl, constraint.trans hconstraint,
      core.trans hcore, _, seen, r, hrecord, undone, hundone, marks ++ (reads ++ fs), ?_⟩
    rw [hresumed, hended]
    simp

theorem Matched.waking?_eq_none (matched : Matched earlier a) (hcore : op.core? = some core)
    (closed : a.session? core = none) : waking? earlier a op b = none := by
  have hmatched := matched core
  rw [closed] at hmatched
  rw [waking?, hcore, Option.bind_some]
  generalize opened? core earlier = opened at hmatched
  cases hmatched
  rfl

theorem Matched.waking?_eq_some {c : Constraint} {session : Session} {outcome : Wake.Outcome}
    (matched : Matched earlier a) (hcore : op.core? = some core)
    (opened : a.session? core = some session)
    (registered : a.ladder.constraints[session.constraint]? = some c)
    (last : b.sequencer.lastWake = some outcome) :
    ∃ e, e.core = core ∧ Began e session.constraint session ∧
      waking? earlier a op b = some ⟨e, session.constraint,
        c.status.flags.contains ConstraintFlags.traceIdle, outcome.record⟩ := by
  have hmatched := matched core
  rw [opened] at hmatched
  generalize hopened : opened? core earlier = began at hmatched
  cases hmatched with
  | @some o _ hbegan =>
  obtain ⟨e, index⟩ := o
  obtain ⟨hentered, began⟩ := hbegan
  obtain rfl : session.constraint = index := began.constraint
  have traced : a.ladder.observe (·.status.flags.contains ConstraintFlags.traceIdle)
      session.constraint = some (c.status.flags.contains ConstraintFlags.traceIdle) := by
    rw [Ladder.observe, registered, Option.map_some]
  refine ⟨e, hentered, began, ?_⟩
  rw [waking?, hcore, Option.bind_some, hopened, last]
  simp only [traced, Option.getD_some]

theorem Closing.traced (h : Closing a core left ds) (matched : Matched earlier a)
    (done : DoesAll p device (ds ++ es) a i b j) (hquiet : ∀ d ∈ es, d.Quiet)
    (hcore : op.core? = some core)
    (returned : op = .leave core →
      answer = .reason (((left.bind (·.wake)).map (·.reason)).getD .none)) :
    Traced p.map earlier a i op answer b j := by
  obtain ⟨u, k, hclosing, hrest⟩ := done.exists_of_append
  obtain ⟨history, lastWake⟩ := hrest.quiet hquiet
  cases h with
  | idle closed =>
    cases hclosing
    exact .of_quiet (by rw [ended?, hcore]; exact closed) (matched.waking?_eq_none hcore closed)
      history
  | @wake session left c outcome opened woken =>
    cases hclosing with
    | cons head tail =>
      cases tail
      obtain ⟨registered, hlast, hhistory, hreason, hcode, hconstraint, hrecordCore, captures⟩ :=
        head.wakes
      obtain ⟨e, rfl, began, hwaking⟩ :=
        matched.waking?_eq_some hcore opened registered (lastWake.trans hlast)
      obtain ⟨gs, -, hevents⟩ := hrest.events
      constructor
      · rw [hwaking, ended?, hcore, Option.bind_some, opened]
        rfl
      · rw [hwaking, history, hhistory, Sequencer.recorded, began.category?_ending]
        rfl
      · intro w hw
        rw [hwaking] at hw
        cases hw
        refine ⟨hconstraint, by rw [hrecordCore, began.core], hcode, hevents ▸ captures.append gs,
          ?_⟩
        rintro _ rfl
        cases hcore
        rw [returned rfl, Option.bind_some, woken, Option.map_some, Option.getD_some, hreason]

theorem step_traced (accepted : p.Accepted) (coherent : Coherent p a)
    (matched : Matched earlier a) (h : op.step p device a i = ((.ok answer, b), j)) :
    Traced p.map earlier a i op answer b j := by
  obtain ⟨ds, course, done⟩ := step_course accepted coherent h
  cases hcore : op.core? with
  | some core =>
    obtain ⟨left, cs, es, k, closing, done, hevents, hkeeps, returned⟩ :=
      course.exists_closing coherent done hcore 0
    have traced := closing.traced matched done (fun d hd => (hkeeps d hd).quiet) hcore returned
    refine ⟨traced.wakes, traced.files, fun w hw => ?_⟩
    obtain ⟨constraint, core, reason, captures, returned⟩ := traced.faithful w hw
    exact ⟨constraint, core, reason, hevents ▸ captures, returned⟩
  | none =>
    refine .of_quiet (by rw [ended?, hcore]; rfl) (by rw [waking?, hcore]; rfl) ?_
    exact (done.quiet (course.quiet hcore)).1

theorem Steps.traced (accepted : p.Accepted) (coherent : Coherent p a)
    (matched : Matched earlier a) (h : Steps p device a i ops b j) :
    b.sequencer.history = Waking.fileAll (wakings p device earlier ops a i) a.sequencer.history ∧
    ∀ w ∈ wakings p device earlier ops a i,
      w.record.reason = BitVec.ofNat 32 (Reason.decode w.record).code := by
  induction h generalizing earlier with
  | refl => exact ⟨rfl, List.forall_mem_nil _⟩
  | step head _ ih =>
    have traced := step_traced accepted coherent matched head
    obtain ⟨history, decoded⟩ :=
      ih (coherent.step accepted head) (matched.step accepted coherent head)
    rw [wakings, head]
    constructor
    · rw [history, traced.files, Waking.fileAll, Waking.fileAll, Waking.fileAll, List.foldl_append]
    · refine List.forall_mem_append.mpr ⟨fun w hw => ?_, decoded⟩
      exact (traced.faithful w (Option.mem_toList.mp hw)).reason

/-- Over any run from the start, the history is what filing its wakes one by one gives. Each ring
counts those which are filed in it, and whatever it holds is one of them and is decoded to the
reason which is stored with it. Each further operation which ends a session has one more wake. -/
theorem wakes_are_traced (started : Started p device a i) (steps : Steps p device a i ops b j) :
    b.sequencer.history = Waking.fileAll (wakings p device [] ops a i) .empty ∧
    (∀ category, (b.sequencer.history.ring category).written =
      BitVec.ofNat 32 ((wakings p device [] ops a i).countP (·.category? = some category))) ∧
    (∀ w ∈ wakings p device [] ops a i,
      w.record.reason = BitVec.ofNat 32 (Reason.decode w.record).code) ∧
    (∀ category, ∀ r ∈ (b.sequencer.history.ring category).held,
      (∃ w ∈ wakings p device [] ops a i, w.category? = some category ∧ w.record = r) ∧
        r.reason = BitVec.ofNat 32 (Reason.decode r).code) ∧
    ∀ op answer c k, Operation.step p device op b j = ((.ok answer, c), k) →
      Traced p.map ops b j op answer c k := by
  have accepted := started.fresh.accepted
  have coherent := Reachable.coherent ⟨_, _, _, started, steps⟩
  obtain ⟨l, rfl, -⟩ := started.fresh.state
  have matched := (matched_initial l).steps accepted (.initial l) steps
  obtain ⟨filed, decoded⟩ := steps.traced accepted (.initial l) (matched_initial l)
  have history : b.sequencer.history =
      Waking.fileAll (wakings p device [] ops (initial l) i) .empty := filed
  have filled := Waking.filled_fileAll (wakings p device [] ops (initial l) i)
  rw [← history] at filled
  refine ⟨history, fun category => ?_, decoded, fun category r hr => ?_,
    fun op answer c k h => step_traced accepted coherent matched h⟩
  · rw [(filled category).written, Waking.filed, List.length_map, List.countP_eq_length_filter]
  · obtain ⟨w, hw, rfl⟩ := List.mem_map.mp ((filled category).mem_of_mem_held hr)
    obtain ⟨hmem, hcategory⟩ := List.mem_filter.mp hw
    exact ⟨⟨w, hmem, of_decide_eq_true hcategory, rfl⟩, decoded w hmem⟩

theorem wakes_are_traced_both_rings : ∃ a i ops b j,
    Started Mt8192.platform (ticking 7#32) a i ∧
    Steps Mt8192.platform (ticking 7#32) a i ops b j ∧
    BitVec.ofNat 32 ((wakings Mt8192.platform (ticking 7#32) [] ops a i).countP
      (·.category? = some .lowPower)) = 3#32 ∧
    BitVec.ofNat 32 ((wakings Mt8192.platform (ticking 7#32) [] ops a i).countP
      (·.category? = some .suspend)) = 1#32 ∧
    b.sequencer.history.lowPower.held.map (·.core) = [0#32, 0#32, 1#32] ∧
    ∀ r ∈ b.sequencer.history.lowPower.held,
      r.reason = BitVec.ofNat 32 (Reason.decode r).code := by
  have traces : (replayAll Mt8192.platform (ticking 7#32)
      [.notify .all (.setFlags (.firmware ∪ .traceIdle)), .idleEnter 0 0, .idleEnter 0 0, .leave 0,
        .suspendEnter 0 ∅, .leave 0, .suspendEnter 1 .traceLowPower, .leave 1,
        .notify .all (.clearFlags .traceIdle), .idleEnter 0 0, .leave 0]).any (fun r =>
        r.2.1.sequencer.history.lowPower.written = 3#32 &&
        r.2.1.sequencer.history.suspend.written = 1#32 &&
        r.2.1.sequencer.history.lowPower.held.map (·.core) = [0#32, 0#32, 1#32]) = true := by
    decide +kernel
  obtain ⟨⟨ops, b, j⟩, hrun, h⟩ := (Option.any_eq_true _ _).mp traces
  simp only [Bool.and_eq_true, decide_eq_true_eq] at h
  obtain ⟨⟨lowPower, suspend⟩, cores⟩ := h
  obtain ⟨a, i, started, steps⟩ := run_of_replayAll hrun
  obtain ⟨-, written, -, held, -⟩ := wakes_are_traced started steps
  exact ⟨a, i, ops, b, j, started, steps, (written .lowPower).symm.trans lowPower,
    (written .suspend).symm.trans suspend, cores, fun r hr => (held .lowPower r hr).2⟩

end Arbiter

end LowPower

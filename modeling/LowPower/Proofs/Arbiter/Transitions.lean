import LowPower.Proofs.Arbiter.Script
import LowPower.Proofs.Constraint.Signal
import LowPower.Proofs.Hardware.Passages

namespace LowPower

open Bus (Event Script)
open Bus.Script (Shows only)

def Passage.signals : Passage → List Signal
  | .opened session _ => Signal.entering session.kind
  | .closed session => Signal.leaving session.kind

def Signal.count (map : Register.Map) (s : Signal) (h : Bus.History) : Nat :=
  (h.filterMap (of? map)).count s

theorem Signal.count_append (map : Register.Map) (s : Signal) (es : List Event) (h : Bus.History) :
    count map s (es.reverse ++ h) = (es.filterMap (of? map)).count s + count map s h := by
  rw [count, List.filterMap_append, List.count_append, List.filterMap_reverse, List.count_reverse,
    count]

namespace Arbiter

variable {p : Platform} {device : Device} {a b : Arbiter} {i j : Journal} {d : Deed}
  {ds : List Deed} {op : Operation} {answer : Answer} {core : Nat} {map : Register.Map}

def openCount (φ : Session → Bool) (a : Arbiter) : Nat := a.sessions.countP (·.any φ)

theorem openCount_initial (φ : Session → Bool) (l : Ladder) : openCount φ (initial l) = 0 := by
  simp [openCount, initial]

theorem openCount_setSession (φ : Session → Bool) (a : Arbiter) (h : core < coreCapacity)
    (session : Option Session) :
    openCount φ (a.setSession core session) + (if (a.session? core).any φ then 1 else 0) =
      openCount φ a + if session.any φ then 1 else 0 := by
  have hle : (if a.sessions[core].any φ then 1 else 0) ≤ a.sessions.countP (·.any φ) :=
    Vector.boole_getElem_le_countP h
  have hget : a.session? core = a.sessions[core] := by simp [session?, h]
  have hset : (a.setSession core session).sessions = a.sessions.set core session h := by
    refine Vector.ext fun i hi => ?_
    rw [Vector.getElem_set]
    exact Vector.getElem_setIfInBounds hi
  rw [openCount, hset, Vector.countP_set h, hget, openCount]
  omega

section

variable (distinct : map.Distinct)
include distinct

theorem Deed.shows_signals (d : Deed) :
    Shows (Signal.of? map) (d.script map) (d.passage?.toList.flatMap Passage.signals) := by
  have aside := d.script_le_of_isAside map
  cases d with
  | wake core c session outcome =>
    change Shows _ _ (Signal.leaving session.kind ++ [])
    rw [List.append_nil]
    exact (Signal.shows_leaving distinct session.kind).mono
      (Constraint.waking_mul_resuming_le _ c _ _)
  | arm core c session votes =>
    change Shows _ _ (Signal.entering session.kind ++ [])
    rw [List.append_nil]
    exact (Signal.shows_entering distinct session.kind).mono (Constraint.launching_le _ c _)
  | _ => exact Signal.shows_within distinct _ (aside trivial) (by decide)

theorem shows_signals (ds : List Deed) :
    Shows (Signal.of? map) (scriptOf map ds)
      ((ds.filterMap Deed.passage?).flatMap Passage.signals) := by
  rw [List.filterMap_eq_flatMap_toList, List.flatMap_assoc]
  exact shows_scriptOf (Deed.shows_signals distinct) ds

end

/-- One signal is told when a session of some kind begins, and the other one when it ends. -/
structure Marks (began ended : Signal) (φ : Session → Bool) : Prop where
  opened : ∀ session votes,
    (Passage.opened session votes).signals.count began = (if φ session then 1 else 0) ∧
    (Passage.opened session votes).signals.count ended = 0
  closed : ∀ session, (Passage.closed session).signals.count began = 0 ∧
    (Passage.closed session).signals.count ended = if φ session then 1 else 0

theorem Marks.of_kind {began ended : Signal} {φ : Session.Kind → Bool}
    (opened : ∀ kind, (Signal.entering kind).count began = (if φ kind then 1 else 0) ∧
      (Signal.entering kind).count ended = 0)
    (closed : ∀ kind, (Signal.leaving kind).count began = 0 ∧
      (Signal.leaving kind).count ended = if φ kind then 1 else 0) :
    Marks began ended (φ ·.kind) :=
  ⟨fun session _ => opened session.kind, fun session => closed session.kind⟩

theorem marks_announced : Marks (.announced .enter) (.announced .leave) fun _ => true :=
  .of_kind (φ := fun _ => true) (by rintro (_ | _) <;> decide) (by rintro (_ | _) <;> decide)

theorem marks_prepared : Marks .prepared .finished (·.kind = .suspend) :=
  .of_kind (φ := (· = .suspend)) (by rintro (_ | _) <;> decide) (by rintro (_ | _) <;> decide)

/-- What is told of beginnings is told as often of ends, but for the sessions still open. -/
def Balanced (map : Register.Map) (began ended : Signal) (φ : Session → Bool) (a : Arbiter)
    (h : Bus.History) : Prop :=
  Signal.count map began h = Signal.count map ended h + openCount φ a

theorem Does.signals (distinct : p.map.Distinct) (hd : Does p device d a i b j) (s : Signal) :
    Signal.count p.map s j.events =
      (d.passage?.toList.flatMap Passage.signals).count s + Signal.count p.map s i.events := by
  obtain ⟨es, hes, hevents⟩ := hd.events
  rw [hevents, Signal.count_append, Deed.shows_signals distinct d es hes]

theorem Does.openCount (accepted : p.Accepted) (coherent : Coherent p a)
    (hd : Does p device d a i b j) (φ : Session → Bool) :
    openCount φ b + (d.passage?.toList.countP fun q => !q.isOpening && φ q.session) =
      openCount φ a + d.passage?.toList.countP fun q => q.isOpening && φ q.session := by
  cases hd with
  | @wake _ _ _ _ core c _ session outcome opened =>
    have hlt := Nat.lt_of_lt_of_le (coherent.confined _ _ opened) accepted.cores
    have hcount := openCount_setSession φ a hlt none
    rw [opened] at hcount
    change Arbiter.openCount φ (a.setSession core none) + _ = _
    simpa [Deed.passage?, List.countP_cons] using hcount
  | @arm _ _ _ core index kind extra c valid free =>
    have hlt := Nat.lt_of_lt_of_le valid accepted.cores
    have hcount := openCount_setSession φ a hlt (c.prepare (a.newSession p core index kind extra))
    rw [free] at hcount
    change Arbiter.openCount φ (a.setSession core (some _)) + _ = _
    simpa [Deed.passage?, List.countP_cons] using hcount
  | _ => rfl

theorem Balanced.does {began ended : Signal} {φ : Session → Bool} (marks : Marks began ended φ)
    (distinct : p.map.Distinct) (accepted : p.Accepted) (coherent : Coherent p a)
    (hd : Does p device d a i b j) (h : Balanced p.map began ended φ a i.events) :
    Balanced p.map began ended φ b j.events := by
  have hopen := hd.openCount accepted coherent φ
  rw [Balanced, hd.signals distinct, hd.signals distinct]
  rw [Balanced] at h
  generalize d.passage? = passage at hopen
  rcases passage with _ | ⟨session, votes⟩ | session
  · change Arbiter.openCount φ b + 0 = Arbiter.openCount φ a + 0 at hopen
    change 0 + _ = 0 + _ + _
    omega
  · obtain ⟨hbegan, hended⟩ := marks.opened session votes
    have hopen : Arbiter.openCount φ b = Arbiter.openCount φ a + if φ session then 1 else 0 := by
      simpa [List.countP_cons] using hopen
    simp only [Option.toList_some, List.flatMap_singleton, hbegan, hended]
    omega
  · obtain ⟨hbegan, hended⟩ := marks.closed session
    have hopen : Arbiter.openCount φ b + (if φ session then 1 else 0) = Arbiter.openCount φ a := by
      simpa [List.countP_cons] using hopen
    simp only [Option.toList_some, List.flatMap_singleton, hbegan, hended]
    omega

theorem Reachable.balanced {began ended : Signal} {φ : Session → Bool}
    (reached : Reachable p device a i) (distinct : p.map.Distinct) (marks : Marks began ended φ) :
    Balanced p.map began ended φ a i.events := by
  refine reached.invariant (I := fun a i => Balanced p.map began ended φ a i.events) ?_ ?_
  · intro a i fresh
    obtain ⟨l, rfl, -⟩ := fresh.state
    rw [Balanced, fresh.events, openCount_initial]
    rfl
  · exact fun hd coherent h => h.does marks distinct reached.accepted coherent hd

/-- What an operation tells, and in which order it announces and programs. -/
structure Ordered (p : Platform) (a : Arbiter) (op : Operation) (answer : Answer) (b : Arbiter)
    (es : List Event) : Prop where
  signals : es.filterMap (Signal.of? p.map) = (passages a op b).flatMap Passage.signals
  armed : ∀ e index, op.enters? = some e → answer = .depth (.constraint index) →
    es ∈ closing p.map (a.session? e.core) *
        (only Event.IsRead * Constraint.entering p.map e.kind) ∧
      es.filterMap (Event.writtenTo? p.map.kick) = [1#32, 0#32]
  declined : ∀ e, op.enters? = some e → answer = .depth .baseline →
    es ∈ closing p.map (a.session? e.core) * only Event.IsRead
  left : ∀ core, op = .leave core → es ∈ closing p.map (a.session? core)

theorem Course.script_armed {e : Entry} {index : Nat}
    (h : Course p a op ds (.depth (.constraint index))) (entry : op.enters? = some e)
    (map : Register.Map) :
    scriptOf map ds ≤ closing map (a.session? e.core) *
      (only Event.IsRead * Constraint.entering map e.kind) := by
  cases h with
  | @constraint _ _ _ _ session clocks c required entry' valid closes core kind =>
    cases entry.symm.trans entry'
    have arming : Constraint.launching map required c session ≤
        Constraint.entering map session.kind := Constraint.launching_le required c session
    rw [kind] at arming
    simp only [scriptOf_cons, scriptOf_append, scriptOf_nil, Deed.script, one_mul, mul_one]
    exact mul_le_mul' (closes.script_le map) (mul_le_mul' le_rfl arming)

theorem Course.script_declined {e : Entry} (h : Course p a op ds (.depth .baseline))
    (coherent : Coherent p a) (entry : op.enters? = some e) (map : Register.Map) :
    scriptOf map ds ≤ closing map (a.session? e.core) * only Event.IsRead := by
  cases h with
  | invalidEntry entry' invalid =>
    cases entry.symm.trans entry'
    rw [coherent.beyond invalid, scriptOf_cons, scriptOf_nil]
    exact mul_le_mul' le_rfl Bus.Script.one_le_only
  | baseline clocks entry' valid closes =>
    cases entry.symm.trans entry'
    simp only [scriptOf_cons, scriptOf_append, scriptOf_nil, Deed.script, one_mul, mul_one]
    exact mul_le_mul' (closes.script_le map) le_rfl

theorem Course.script_left (h : Course p a (.leave core) ds answer) (coherent : Coherent p a)
    (map : Register.Map) : scriptOf map ds ≤ closing map (a.session? core) := by
  cases h with
  | invalidLeave invalid =>
    rw [coherent.beyond invalid, scriptOf_cons, scriptOf_nil, mul_one]
    exact le_rfl
  | leave valid closes => exact closes.script_le map
  | invalidEntry entry => cases entry
  | baseline _ entry => cases entry
  | constraint _ _ _ entry => cases entry

theorem shows_armed (distinct : map.Distinct) (session : Option Session) (kind : Session.Kind) :
    Shows (Event.writtenTo? map.kick)
      (closing map session * (only Event.IsRead * Constraint.entering map kind)) [1#32, 0#32] :=
  (shows_closing (r := .kick) distinct (by decide) session).mul
    ((Shows.reads _).mul (Constraint.shows_kick distinct kind))

theorem Course.ordered (h : Course p a op ds answer) (distinct : p.map.Distinct)
    (accepted : p.Accepted) (coherent : Coherent p a) (done : DoesAll p device ds a i b j)
    {es : List Event} (hes : es ∈ scriptOf p.map ds) : Ordered p a op answer b es where
  signals := by
    rw [shows_signals distinct ds es hes, h.passages accepted coherent done]
  armed := by
    rintro e index entry rfl
    have armed := h.script_armed entry p.map hes
    exact ⟨armed, shows_armed distinct _ _ es armed⟩
  declined := by
    rintro e entry rfl
    exact h.script_declined coherent entry p.map hes
  left := by
    rintro core rfl
    exact h.script_left coherent p.map hes

/-- Whatever was done before, each announced entry is answered by the end of its session, and so
is each preparation of a suspend, but for the sessions which are still open. Each further
operation tells just what begins and ends, in the right order. -/
theorem transitions_ordered (distinct : p.map.Distinct) (reached : Reachable p device a i) :
    Signal.count p.map (.announced .enter) i.events =
        Signal.count p.map (.announced .leave) i.events + openCount (fun _ => true) a ∧
      Signal.count p.map .prepared i.events =
        Signal.count p.map .finished i.events + openCount (·.kind = .suspend) a ∧
      ∀ op answer b j, Operation.step p device op a i = ((.ok answer, b), j) →
        ∃ es, j.events = es.reverse ++ i.events ∧ Ordered p a op answer b es := by
  refine ⟨reached.balanced distinct marks_announced, reached.balanced distinct marks_prepared, ?_⟩
  intro op answer b j h
  obtain ⟨ds, course, done⟩ := step_course reached.accepted reached.coherent h
  obtain ⟨es, hes, hevents⟩ := done.events
  exact ⟨es, hevents, course.ordered distinct reached.accepted reached.coherent done hes⟩

theorem transitions_ordered_two_cores : ∃ (a : Arbiter) (i : Journal),
    Reachable Mt8192.platform (.memory fun _ => 0#32) a i ∧
    Signal.count Mt8192.map (.announced .enter) i.events =
      Signal.count Mt8192.map (.announced .leave) i.events + 1 ∧
    Signal.count Mt8192.map .prepared i.events = Signal.count Mt8192.map .finished i.events := by
  have replayed : (replayAll Mt8192.platform (.memory fun _ => 0#32)
      [.notify .all (.setFlags .firmware), .idleEnter 0 0, .suspendEnter 1 ∅, .leave 1]).any
      (fun r => openCount (fun _ => true) r.2.1 = 1 && openCount (·.kind = .suspend) r.2.1 = 0) =
        true := by
    decide +kernel
  obtain ⟨⟨ops, a, i⟩, hrun, h⟩ := (Option.any_eq_true _ _).mp replayed
  simp only [Bool.and_eq_true, decide_eq_true_eq] at h
  obtain ⟨hopen, hsuspended⟩ := h
  have reached := reachable_of_replayAll hrun
  obtain ⟨announced, prepared, -⟩ := transitions_ordered Mt8192.map_distinct reached
  rw [hopen] at announced
  rw [hsuspended] at prepared
  exact ⟨a, i, reached, announced, prepared⟩

end Arbiter

end LowPower

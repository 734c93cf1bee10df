import LowPower.Proofs.Arbiter.Reaction
import LowPower.Proofs.Arbiter.Tracing
import LowPower.Proofs.Constraint.Redelivery

namespace LowPower

open Bus (Event)
open Bus.Script (Shows)

def Target.assignments (n : Nat) (target : Target) (request : Constraint.Request) :
    List (List Redelivery) :=
  if target.includes n then request.assignments else []

def Operation.assignments (n : Nat) : Operation → List (List Redelivery)
  | .notify target request => target.assignments n request
  | .control (.update target request) => target.assignments n request
  | _ => []

theorem Target.assignments_eq (n : Nat) (target : Target) (request : Constraint.Request) :
    target.assignments n request = (target.requests n request).flatMap (·.assignments) := by
  rw [assignments, requests]
  split
  · exact (List.flatMap_singleton ..).symm
  · rfl

theorem Operation.assignments_eq (n : Nat) (op : Operation) :
    op.assignments n = (op.requests n).flatMap (·.assignments) := by
  cases op with
  | notify target request => exact target.assignments_eq n request
  | control command =>
    cases command with
    | update target request => exact target.assignments_eq n request
    | _ => rfl
  | _ => rfl

/-- The interrupts which a wake has to raise again after some operations: those of the constraint
it leaves whose edge was lost. -/
def Waking.redelivered (p : Platform) (earlier : List (Operation × Answer)) (w : Waking) :
    List Interrupt :=
  Redelivery.lost w.record (((p.constraints[w.index]?).map fun c =>
    c.variant.assigned (earlier.flatMap (·.1.assignments w.index))).getD [])

namespace Arbiter

variable {p : Platform} {device : Device} {a b c : Arbiter} {i j k : Journal} {core : Nat}
  {left : Option Session} {d : Deed} {ds es : List Deed} {op : Operation} {answer : Answer}
  {ops earlier : List (Operation × Answer)} {map : Register.Map}

def Deed.raised : Deed → List Interrupt
  | .wake _ c _ outcome => Redelivery.lost outcome.record c.variant.redeliveries
  | _ => []

def Deed.assignments (n : Nat) : Deed → List (List Redelivery)
  | .update target request => target.assignments n request
  | _ => []

theorem Deed.Quiet.raised (h : d.Quiet) : d.raised = [] := by
  cases d with
  | wake => exact h.elim
  | _ => rfl

theorem Deed.shows_raised (d : Deed) : Shows Event.raised? (d.script map) d.raised := by
  have aside := d.script_le_of_isAside map
  cases d with
  | wake core c session outcome =>
    exact (Constraint.shows_raised_within _ (Constraint.waking_le_within _ outcome)).mul
      (Constraint.shows_raised_resuming c session.kind outcome)
  | arm core c session votes => exact Constraint.shows_raised_launching votes c session
  | _ => exact Constraint.shows_raised_within _ (aside trivial)

theorem DoesAll.raised (h : DoesAll p device ds a i b j) :
    Bus.raised j.events = Bus.raised i.events ++ ds.flatMap Deed.raised :=
  h.shown Deed.shows_raised

theorem flatMap_raised_of_quiet (h : ∀ d ∈ ds, d.Quiet) : ds.flatMap Deed.raised = [] :=
  List.flatMap_eq_nil_iff.mpr fun d hd => (h d hd).raised

theorem Deed.assignments_eq (n : Nat) (d : Deed) :
    d.assignments n = (d.requests n).flatMap (·.assignments) := by
  cases d with
  | update target request => exact target.assignments_eq n request
  | _ => rfl

theorem DoesAll.variant (h : DoesAll p device ds a i b j) (n : Nat) :
    b.ladder.observe (·.variant) n = (a.ladder.observe (·.variant) n).map
      ((ds.flatMap (·.assignments n)).foldl Constraint.Variant.reassign) := by
  rw [h.observe_react (Constraint.reacts_variant _), funext (Deed.assignments_eq n),
    ← List.flatMap_assoc]
  congr 1
  funext v
  exact List.foldl_flatMap.symm

theorem Course.assignments (h : Course p a op ds answer) (n : Nat) :
    ds.flatMap (·.assignments n) = op.assignments n := by
  rw [op.assignments_eq, ← h.requests, List.flatMap_assoc, funext (Deed.assignments_eq n)]

/-- Each constraint has the interrupts which were assigned to it last, or those which it had from
the start. -/
def Assigned (p : Platform) (earlier : List (Operation × Answer)) (a : Arbiter) : Prop :=
  ∀ n, a.ladder.observe (·.variant) n = (p.constraints[n]?).map fun c =>
    (earlier.flatMap (·.1.assignments n)).foldl Constraint.Variant.reassign c.variant

theorem Fresh.assigned (h : Fresh p a i) : Assigned p [] a := by
  obtain ⟨l, rfl, constraints, -⟩ := h.state
  intro n
  change (l.constraints[n]?).map _ = _
  rw [constraints, List.getElem?_map, Option.map_map]
  rfl

theorem Assigned.step (h : Assigned p earlier a) (accepted : p.Accepted) (coherent : Coherent p a)
    (head : op.step p device a i = ((.ok answer, b), j)) :
    Assigned p (earlier ++ [(op, answer)]) b := by
  obtain ⟨ds, course, done⟩ := step_course accepted coherent head
  intro n
  rw [done.variant, course.assignments, h n, Option.map_map, List.flatMap_append,
    List.flatMap_singleton]
  congr 1
  funext c
  exact (List.foldl_append ..).symm

theorem Assigned.steps (h : Assigned p earlier a) (accepted : p.Accepted)
    (coherent : Coherent p a) (steps : Steps p device a i ops b j) :
    Assigned p (earlier ++ ops) b := by
  induction steps generalizing earlier with
  | refl => rwa [List.append_nil]
  | step head _ ih =>
    rw [List.append_cons]
    exact ih (h.step accepted coherent head) (coherent.step accepted head)

def redeliveries (p : Platform) (device : Device) (earlier : List (Operation × Answer)) :
    List (Operation × Answer) → Arbiter → Journal → List Interrupt
  | [], _, _ => []
  | (op, answer) :: ops, a, j =>
    let after := op.step p device a j
    (waking? earlier a op after.1.2).toList.flatMap (·.redelivered p earlier) ++
      redeliveries p device (earlier ++ [(op, answer)]) ops after.1.2 after.2

structure Redelivers (p : Platform) (earlier : List (Operation × Answer)) (a : Arbiter)
    (i : Journal) (op : Operation) (b : Arbiter) (j : Journal) : Prop where
  wakes : (waking? earlier a op b).isSome = (a.ended? op).isSome
  captures : ∀ w, waking? earlier a op b = some w →
    Sequencer.Captures p.map w.record i.events j.events
  raises : Bus.raised j.events = Bus.raised i.events ++
    (waking? earlier a op b).toList.flatMap (·.redelivered p earlier)

theorem Assigned.redelivered (h : Assigned p earlier a) (w : Waking) {c : Constraint}
    (registered : a.ladder.constraints[w.index]? = some c) :
    w.redelivered p earlier = Redelivery.lost w.record c.variant.redeliveries := by
  have hvariant := h w.index
  rw [Ladder.observe, registered] at hvariant
  obtain ⟨initial, hinitial, hfold⟩ := Option.map_eq_some_iff.mp hvariant.symm
  rw [Waking.redelivered, hinitial, Option.map_some, Option.getD_some,
    ← Constraint.Variant.redeliveries_foldl, hfold]

theorem Closing.raised (h : Closing a core left ds) (matched : Matched earlier a)
    (assigned : Assigned p earlier a) (done : DoesAll p device (ds ++ es) a i b j)
    (hquiet : ∀ d ∈ es, d.Quiet) (hcore : op.core? = some core) :
    ds.flatMap Deed.raised =
      (waking? earlier a op b).toList.flatMap (·.redelivered p earlier) := by
  obtain ⟨u, k, hclosing, hrest⟩ := done.exists_of_append
  obtain ⟨-, lastWake⟩ := hrest.quiet hquiet
  cases h with
  | idle closed =>
    rw [matched.waking?_eq_none hcore closed]
    rfl
  | @wake session _ c outcome opened =>
    cases hclosing with
    | cons head tail =>
      cases tail
      obtain ⟨registered, hlast, -⟩ := head.wakes
      obtain ⟨e, -, -, hwaking⟩ :=
        matched.waking?_eq_some hcore opened registered (lastWake.trans hlast)
      rw [hwaking, Option.toList_some, List.flatMap_singleton, List.flatMap_singleton]
      exact (assigned.redelivered ⟨e, session.constraint, _, outcome.record⟩ registered).symm

theorem step_redelivers (accepted : p.Accepted) (coherent : Coherent p a)
    (matched : Matched earlier a) (assigned : Assigned p earlier a)
    (h : op.step p device a i = ((.ok answer, b), j)) : Redelivers p earlier a i op b j := by
  have traced := step_traced accepted coherent matched h
  refine ⟨traced.wakes, fun w hw => (traced.faithful w hw).captures, ?_⟩
  obtain ⟨ds, course, done⟩ := step_course accepted coherent h
  cases hcore : op.core? with
  | some core =>
    obtain ⟨left, cs, es, k, closing, done, hevents, hkeeps, -⟩ :=
      course.exists_closing coherent done hcore 0
    have quiet : ∀ d ∈ es, d.Quiet := fun d hd => (hkeeps d hd).quiet
    rw [done.raised, hevents, List.flatMap_append, flatMap_raised_of_quiet quiet, List.append_nil,
      closing.raised matched assigned done quiet hcore]
  | none =>
    have unwoken : waking? earlier a op b = none := by rw [waking?, hcore]; rfl
    rw [done.raised, flatMap_raised_of_quiet (course.quiet hcore), unwoken]
    rfl

theorem Steps.raised (accepted : p.Accepted) (coherent : Coherent p a)
    (matched : Matched earlier a) (assigned : Assigned p earlier a)
    (h : Steps p device a i ops b j) :
    Bus.raised j.events = Bus.raised i.events ++ redeliveries p device earlier ops a i := by
  induction h generalizing earlier with
  | refl => exact (List.append_nil _).symm
  | step head _ ih =>
    have redelivers := step_redelivers accepted coherent matched assigned head
    rw [ih (coherent.step accepted head) (matched.step accepted coherent head)
      (assigned.step accepted coherent head), redelivers.raises, redeliveries, head,
      List.append_assoc]

/-- Over any run from the start, the interrupts which are raised are those which each wake has to
raise again, wake by wake. This holds of each further operation. -/
theorem interrupts_redelivered_once (started : Started p device a i)
    (steps : Steps p device a i ops b j) :
    Bus.raised j.events = redeliveries p device [] ops a i ∧
    ∀ op answer c k, Operation.step p device op b j = ((.ok answer, c), k) →
      Redelivers p ops b j op c k := by
  have fresh := started.fresh
  have coherent := Reachable.coherent ⟨_, _, _, started, steps⟩
  have assigned := fresh.assigned
  obtain ⟨l, rfl, -⟩ := fresh.state
  have accepted := fresh.accepted
  have matched := matched_initial l
  constructor
  · rw [steps.raised accepted (.initial l) matched assigned, Bus.raised, fresh.events]
    rfl
  · exact fun op answer c k h => step_redelivers accepted coherent
      (matched.steps accepted (.initial l) steps) (assigned.steps accepted (.initial l) steps) h

def wokenBySource2 : Device := fun _ r => if r = Mt8192.map.wakeStatus then 4#32 else 0#32

theorem interrupts_redelivered_once_while_asleep : ∃ a i ops b j,
    Started Mt8192.platform wokenBySource2 a i ∧ Steps Mt8192.platform wokenBySource2 a i ops b j ∧
    redeliveries Mt8192.platform wokenBySource2 [] ops a i =
      [⟨.spi, 3⟩, ⟨.spi, 5⟩, ⟨.spi, 3⟩, ⟨.spi, 5⟩] := by
  have raises : (replayAll Mt8192.platform wokenBySource2
      [.notify .all (.setFlags .firmware),
        .notify (.index 0) (.redeliver [⟨⟨.spi, 1⟩, 4#32, false⟩]),
        .idleEnter 0 0, .suspendEnter 1 ∅,
        .notify .all (.redeliver [⟨⟨.spi, 3⟩, 4#32, false⟩, ⟨⟨.spi, 4⟩, 1#32, false⟩,
          ⟨⟨.spi, 5⟩, 6#32, false⟩]),
        .leave 0, .leave 0, .suspendEnter 1 ∅]).any (fun r => Bus.raised r.2.2.events =
          [⟨.spi, 3⟩, ⟨.spi, 5⟩, ⟨.spi, 3⟩, ⟨.spi, 5⟩]) = true := by
    decide +kernel
  obtain ⟨⟨ops, b, j⟩, hrun, h⟩ := (Option.any_eq_true _ _).mp raises
  obtain ⟨a, i, started, steps⟩ := run_of_replayAll hrun
  exact ⟨a, i, ops, b, j, started, steps,
    (interrupts_redelivered_once started steps).1.symm.trans (of_decide_eq_true h)⟩

end Arbiter

end LowPower

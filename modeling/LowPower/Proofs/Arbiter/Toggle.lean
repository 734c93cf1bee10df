import LowPower.Proofs.Arbiter.Accounting
import LowPower.Proofs.Arbiter.Footprint
import LowPower.Proofs.Arbiter.Selection
import LowPower.Proofs.Ladder.Firmware

/-!
The firmware is ready for all constraints or for none. Every operation is done under one lock, so
what several threads ask for is one run, in some order, and here any order is allowed.
-/

namespace LowPower

open Bus (Untouched attempt map_apply)

open Constraint (Gist gist)

/-- The firmware gets ready for all constraints or for none, or a core goes through an idle
cycle. -/
def Operation.toggles : Operation → Bool
  | .idleEnter .. | .leave _ => true
  | .notify .all (.setFlags flags) | .notify .all (.clearFlags flags) => flags = .firmware
  | _ => false

namespace Arbiter

def ready (a : Arbiter) : Arbiter :=
  { a with ladder := a.ladder.ready }

inductive Takes (places : Set Nat) : Depth → Prop
  | least {index : Nat} (least : IsLeast places index) : Takes places (.constraint index)
  | baseline (empty : places = ∅) : Takes places .baseline

theorem Takes.unique {places : Set Nat} {d d' : Depth} (h : Takes places d)
    (h' : Takes places d') : d = d' := by
  cases h with
  | least least =>
    cases h' with
    | least least' => exact congrArg Depth.constraint (least.unique least')
    | baseline empty => exact absurd least.1 (by rw [empty]; exact id)
  | baseline empty =>
    cases h' with
    | least least' => exact absurd least'.1 (by rw [empty]; exact id)
    | baseline => rfl

theorem exists_takes (places : Set Nat) : ∃ d, Takes places d := by
  classical
  by_cases h : ∃ k, k ∈ places
  · exact ⟨_, .least (Nat.isLeast_find h)⟩
  · exact ⟨_, .baseline (Set.eq_empty_iff_forall_notMem.mpr (not_exists.mp h))⟩

/-- As `a`, but for what no selection depends on, and for the firmware which is ready for all
constraints or for none. -/
structure Toggled (a : Arbiter) (on : Bool) (b : Arbiter) : Prop where
  votes : b.votes = a.votes
  gists : ∀ n, b.ladder.observe gist n = (a.ladder.observe gist n).map (Gist.putFirmware on)

variable {p : Platform} {device : Device} {a b c : Arbiter} {i j k : Journal} {d : Deed}
  {ds : List Deed} {op : Operation} {answer : Answer} {ops : List (Operation × Answer)}
  {on : Bool} {clocks : Clock.Table} {start : Nat}

namespace Toggled

theorem uniform (h : Toggled a on b) :
    ∀ c ∈ b.ladder.constraints, c.status.flags.contains ConstraintFlags.firmware = on := by
  intro c hc
  obtain ⟨n, hn⟩ := List.mem_iff_getElem?.mp hc
  have := h.gists n
  rw [Ladder.observe, hn, Option.map_some, eq_comm, Option.map_eq_some_iff] at this
  obtain ⟨g, -, hg⟩ := this
  exact (congrArg Gist.firmware hg).symm

theorem of_unready (h : ∀ c ∈ a.ladder.constraints,
    c.status.flags.contains ConstraintFlags.firmware = false) : Toggled a false a := by
  refine ⟨rfl, fun n => ?_⟩
  rw [Ladder.observe, Option.map_map]
  cases hc : a.ladder.constraints[n]? with
  | none => rfl
  | some c =>
    have unready := h c (List.mem_of_getElem? hc)
    refine congrArg some ?_
    change c.gist = { c.gist with firmware := false }
    rw [← unready]
    rfl

theorem put {on' : Bool} (h : Toggled a on b) (hvotes : c.votes = b.votes)
    (hgists : ∀ n, c.ladder.observe gist n =
      (b.ladder.observe gist n).map (Gist.putFirmware on')) : Toggled a on' c := by
  refine ⟨hvotes.trans h.votes, fun n => ?_⟩
  rw [hgists, h.gists, Option.map_map]
  rfl

theorem ready (h : Toggled a on b) : Toggled a true b.ready :=
  h.put rfl fun n => Ladder.observe_map Constraint.gist_setFirmware n b.ladder

theorem enterable_eq (h : Toggled a on b) (clocks : Clock.Table) (start : Nat) :
    b.ladder.enterable clocks b.votes start =
      if on then a.ready.ladder.enterable clocks a.votes start else ∅ := by
  cases on with
  | true =>
    rw [h.votes]
    exact Ladder.enterable_of_ready h.gists
  | false => exact Ladder.enterable_of_unready h.gists

end Toggled

def Deed.Internal : Deed → Prop
  | .report | .look _ | .wake .. | .arm .. => True
  | _ => False

theorem Toggled.does (h : Toggled a on b) (hd : Does p device d b i c j) (internal : d.Internal) :
    Toggled a on c := by
  have of_eq (hvotes : c.votes = b.votes)
      (hgist : ∀ n, c.ladder.observe gist n = b.ladder.observe gist n) : Toggled a on c :=
    ⟨hvotes.trans h.votes, fun n => (hgist n).trans (h.gists n)⟩
  cases hd with
  | report => exact h
  | look => exact of_eq rfl fun n => Ladder.observe_check fun _ => rfl
  | wake _ registered _ accounted =>
    obtain ⟨residency, rfl⟩ := Constraint.account_eq_ok accounted
    exact of_eq rfl fun n => Ladder.observe_set_of_eq registered rfl
  | arm _ _ registered =>
    exact of_eq rfl fun n => Ladder.observe_set_of_eq registered rfl
  | _ => exact internal.elim

theorem Toggled.doesAll (h : Toggled a on b) (done : DoesAll p device ds b i c j)
    (internal : ∀ d ∈ ds, d.Internal) : Toggled a on c := by
  induction done with
  | nil => exact h
  | cons head _ ih =>
    obtain ⟨hd, hds⟩ := List.forall_mem_cons.mp internal
    exact ih (h.does head hd) hds

theorem Closing.internal {core : Nat} {left : Option Session} (h : Closing a core left ds) :
    ∀ d ∈ ds, d.Internal := by
  cases h with
  | idle => exact List.forall_mem_nil _
  | wake => exact List.forall_mem_singleton.mpr trivial

theorem Course.internal (h : Course p a op ds answer) (cycles : op.core?.isSome = true) :
    ∀ d ∈ ds, d.Internal := by
  cases h with
  | invalidEntry | invalidLeave => exact List.forall_mem_singleton.mpr trivial
  | baseline _ _ _ closing =>
    refine List.forall_mem_cons.mpr ⟨trivial, List.forall_mem_append.mpr ⟨closing.internal, ?_⟩⟩
    simp [Deed.Internal]
  | constraint _ _ _ _ _ closing =>
    refine List.forall_mem_cons.mpr ⟨trivial, List.forall_mem_append.mpr ⟨closing.internal, ?_⟩⟩
    simp [Deed.Internal]
  | leave _ closing => exact closing.internal
  | _ => cases cycles

theorem DoesAll.updated_all {request : Constraint.Request} {f : Constraint → Constraint}
    (done : DoesAll p device [.report, .update .all request] a i b j)
    (applied : ∀ c, Constraint.apply a.ladder.shape c request = .ok (f c)) :
    b = { a with ladder := { a.ladder with constraints := a.ladder.constraints.map f } } := by
  cases done with
  | cons reported rest =>
  cases rest with
  | cons updated nothing =>
  cases reported
  cases updated
  cases nothing
  rw [Ladder.apply_all_eq_ok applied]

theorem Toggled.update {request : Constraint.Request} {f : Constraint → Constraint} {on' : Bool}
    (h : Toggled a on b) (applied : ∀ c, Constraint.apply b.ladder.shape c request = .ok (f c))
    (hf : ∀ c, (f c).gist = c.gist.putFirmware on')
    (done : DoesAll p device [.report, .update .all request] b i c j) : Toggled a on' c := by
  obtain rfl := done.updated_all applied
  exact h.put rfl fun n => Ladder.observe_map hf n b.ladder

theorem Toggled.step (h : Toggled a on b) (toggles : op.toggles = true) (accepted : p.Accepted)
    (coherent : Coherent p b) (head : op.step p device b i = ((.ok answer, c), j)) :
    ∃ on', Toggled a on' c := by
  obtain ⟨ds, course, done⟩ := step_course accepted coherent head
  unfold Operation.toggles at toggles
  split at toggles
  · exact ⟨on, h.doesAll done (course.internal rfl)⟩
  · exact ⟨on, h.doesAll done (course.internal rfl)⟩
  · obtain rfl := of_decide_eq_true toggles
    obtain rfl := course.deeds_notify
    exact ⟨true, h.update (fun _ => rfl) Constraint.gist_setFirmware done⟩
  · obtain rfl := of_decide_eq_true toggles
    obtain rfl := course.deeds_notify
    exact ⟨false, h.update (fun _ => rfl) Constraint.gist_clearFirmware done⟩
  · cases toggles

/-- The registers which tell what is running give the same until they are written, and nothing is
written to them. -/
structure Steady (p : Platform) (device : Device) : Prop where
  steady : ∀ x ∈ p.layout.registers p.map, device.SteadyAt x
  apart : ∀ x ∈ p.layout.registers p.map, ∀ r ∈ Register.written, p.map.at r ≠ x

def Sees (p : Platform) (device : Device) (clocks : Clock.Table) : Prop :=
  ∀ j : Journal, Untouched (p.layout.registers p.map) j.events →
    (p.layout.observation p.map device j).1 = clocks

theorem Completes.takes {e : Entry} {depth : Depth} (h : Completes p device e a j depth b k)
    (steady : Steady p device) (sees : Sees p device clocks)
    (untouched : Untouched (p.layout.registers p.map) j.events) :
    Takes (a.ladder.enterable clocks a.votes e.start) depth := by
  cases h with
  | @baseline left ds u l m seen notices _ _ _ _ closing done looked unselected =>
    have same := sees l (done.untouched steady.apart untouched)
    rw [looked] at same
    obtain rfl : seen = clocks := same
    have empty := (Ladder.select?_check_eq_none_iff seen u.votes e.start u.ladder).mp unselected
    rw [closing.enterable done] at empty
    exact .baseline empty
  | @constraint left ds u b' l m k' seen index c notices _ _ _ _ closing done looked selected =>
    have same := sees l (done.untouched steady.apart untouched)
    rw [looked] at same
    obtain rfl : seen = clocks := same
    have least := (Ladder.select?_check_eq_some_iff seen u.votes e.start index u.ladder).mp selected
    rw [closing.enterable done] at least
    exact .least least

theorem step_idleEnter (p : Platform) (device : Device) (core hint : Nat) (a : Arbiter)
    (j : Journal) : (Operation.idleEnter core hint).step p device a j =
      ((fun r => (r.1.map Answer.depth, r.2)) <$> attempt (enter p core hint .idle ∅) a) device j :=
  step_entry (show (Operation.idleEnter core hint).enters? = some ⟨core, hint, .idle, ∅⟩ from rfl)
    p device a j

theorem step_idleEnter_invalid {core hint : Nat} (invalid : p.cores ≤ core)
    (h : (Operation.idleEnter core hint).step p device a j = ((.ok answer, b), k)) :
    answer = .depth .baseline := by
  rw [step_idleEnter, enter, if_pos invalid] at h
  cases h
  rfl

theorem step_idleEnter_takes {core hint : Nat} (steady : Steady p device)
    (sees : Sees p device clocks) (accepted : p.Accepted) (coherent : Coherent p a)
    (untouched : Untouched (p.layout.registers p.map) j.events) (valid : core < p.cores)
    (h : (Operation.idleEnter core hint).step p device a j = ((.ok answer, b), k)) :
    ∃ depth, answer = .depth depth ∧ Takes (a.ladder.enterable clocks a.votes hint) depth := by
  rw [step_idleEnter, map_apply] at h
  rcases enter_completes accepted coherent ⟨core, hint, .idle, ∅⟩ valid device j with
    ⟨depth, b', k', hentered, completes⟩ | ⟨b', k', hbroken⟩
  · rw [hentered] at h
    cases h
    exact ⟨depth, rfl, completes.takes steady sees untouched⟩
  · rw [hbroken] at h
    cases h

theorem Coherent.ready (h : Coherent p a) : Coherent p a.ready :=
  h.of_eq rfl rfl (List.length_map _)

theorem exists_step_idleEnter {core : Nat} (accepted : p.Accepted) (coherent : Coherent p a)
    (valid : core < p.cores) (closed : a.session? core = none) (hint : Nat) (device : Device)
    (j : Journal) :
    ∃ answer b k, (Operation.idleEnter core hint).step p device a j = ((.ok answer, b), k) := by
  rw [step_idleEnter, map_apply]
  rcases enter_outcome accepted coherent ⟨core, hint, .idle, ∅⟩ valid device j with
    ⟨depth, b, k, hentered, -⟩ | ⟨-, session, c, record, opened, -⟩
  · rw [hentered]
    exact ⟨_, _, _, rfl⟩
  · cases closed.symm.trans opened

structure Toggling (p : Platform) (a : Arbiter) (b : Arbiter) (j : Journal) : Prop where
  coherent : Coherent p b
  untouched : Untouched (p.layout.registers p.map) j.events
  toggled : ∃ on, Toggled a on b

theorem Toggling.step (h : Toggling p a b i) (steady : Steady p device) (accepted : p.Accepted)
    (toggles : op.toggles = true) (head : op.step p device b i = ((.ok answer, c), j)) :
    Toggling p a c j := by
  obtain ⟨on, toggled⟩ := h.toggled
  obtain ⟨ds, -, done⟩ := step_course accepted h.coherent head
  exact ⟨done.coherent accepted h.coherent, done.untouched steady.apart h.untouched,
    toggled.step toggles accepted h.coherent head⟩

theorem Toggling.steps (h : Toggling p a b i) (steady : Steady p device) (accepted : p.Accepted)
    (toggles : ∀ o ∈ ops, o.1.toggles = true) (steps : Steps p device b i ops c j) :
    Toggling p a c j := by
  induction steps with
  | refl => exact h
  | step head _ ih =>
    obtain ⟨hop, hops⟩ := List.forall_mem_cons.mp toggles
    exact ih (h.step steady accepted hop head) hops

theorem Toggled.answer_eq (h : Toggled a on b) (steady : Steady p device)
    (sees : Sees p device clocks) (accepted : p.Accepted) (coherent : Coherent p b)
    (untouched : Untouched (p.layout.registers p.map) i.events) {core hint : Nat} {depth : Depth}
    (takes : Takes (a.ready.ladder.enterable clocks a.votes hint) depth) (valid : core < p.cores)
    (head : (Operation.idleEnter core hint).step p device b i = ((.ok answer, c), j)) :
    answer = .depth (if on then depth else .baseline) := by
  obtain ⟨taken, rfl, htaken⟩ :=
    step_idleEnter_takes steady sees accepted coherent untouched valid head
  rw [h.enterable_eq] at htaken
  cases on with
  | true => exact congrArg Answer.depth (htaken.unique takes)
  | false => exact congrArg Answer.depth (htaken.unique (.baseline rfl))

theorem Toggling.answers_eq (h : Toggling p a b i) (steady : Steady p device)
    (sees : Sees p device clocks) (accepted : p.Accepted) {depth : Nat → Depth}
    (takes : ∀ hint, Takes (a.ready.ladder.enterable clocks a.votes hint) (depth hint))
    (toggles : ∀ o ∈ ops, o.1.toggles = true) (steps : Steps p device b i ops c j) :
    ∀ core hint answer, (.idleEnter core hint, answer) ∈ ops →
      answer = .depth .baseline ∨ answer = .depth (depth hint) := by
  induction steps with
  | refl => exact nofun
  | @step _ _ _ _ _ _ _ op _ head _ ih =>
    obtain ⟨hop, hops⟩ := List.forall_mem_cons.mp toggles
    intro core hint answer hmem
    rcases List.mem_cons.mp hmem with heq | hmem
    · cases heq
      obtain ⟨on, toggled⟩ := h.toggled
      by_cases valid : core < p.cores
      · have answered := toggled.answer_eq steady sees accepted h.coherent h.untouched
          (takes hint) valid head
        cases on with
        | true => exact .inr answered
        | false => exact .inl answered
      · exact .inl (step_idleEnter_invalid (Nat.not_lt.mp valid) head)
    · exact ih (h.step steady accepted hop head) hops core hint answer hmem

/-- Let the firmware be ready for no constraint of a new arbiter, and the clocks stay as they are.
However cores go through idle cycles while the firmware of all constraints gets ready and unready,
it is always ready for all or for none, and an entry gives the depth it would give if it were
ready for all, or the baseline while it is ready for none. -/
theorem toggles_all_or_nothing (steady : Steady p device) (started : Started p device a i)
    (unready : ∀ c ∈ a.ladder.constraints,
      c.status.flags.contains ConstraintFlags.firmware = false) :
    ∃ depth : Nat → Depth,
      (∀ core < p.cores, ∀ hint, ∃ b j, (Operation.idleEnter core hint).step p device a.ready i =
        ((.ok (.depth (depth hint)), b), j)) ∧
      ∀ ops b j, Steps p device a i ops b j → (∀ o ∈ ops, o.1.toggles = true) →
        (∀ core hint answer, (.idleEnter core hint, answer) ∈ ops →
          answer = .depth .baseline ∨ answer = .depth (depth hint)) ∧
        (∃ on, (∀ c ∈ b.ladder.constraints,
            c.status.flags.contains ConstraintFlags.firmware = on) ∧
          ∀ core < p.cores, ∀ hint answer c k,
            (Operation.idleEnter core hint).step p device b j = ((.ok answer, c), k) →
            answer = .depth (if on then depth hint else .baseline)) ∧
        ∀ core < p.cores, ∀ hint answer c k,
          (Operation.idleEnter core hint).step p device b.ready j = ((.ok answer, c), k) →
          answer = .depth (depth hint) := by
  obtain ⟨accepted, ⟨l, rfl, -⟩, events, -⟩ := started.fresh
  obtain ⟨clocks, constant⟩ := Clock.Layout.constant_observation steady.steady
  have sees : Sees p device clocks := fun j untouched => (constant j untouched).1
  have fresh : Toggling p (initial l) (initial l) i :=
    ⟨.initial l, by rw [events]; exact nofun, false, .of_unready unready⟩
  choose depth takes using fun hint =>
    exists_takes ((initial l).ready.ladder.enterable clocks (initial l).votes hint)
  -- What is given with the firmware ready is compared in every state, the first one included.
  have ready {b : Arbiter} {j : Journal} (h : Toggling p (initial l) b j) {core : Nat}
      (valid : core < p.cores) (hint : Nat) {answer : Answer} {c : Arbiter} {k : Journal}
      (head : (Operation.idleEnter core hint).step p device b.ready j = ((.ok answer, c), k)) :
      answer = .depth (depth hint) := by
    obtain ⟨on, toggled⟩ := h.toggled
    exact toggled.ready.answer_eq steady sees accepted h.coherent.ready h.untouched (takes hint)
      valid head
  refine ⟨depth, fun core valid hint => ?_, fun ops b j steps toggles => ?_⟩
  · obtain ⟨answer, b, j, head⟩ := exists_step_idleEnter accepted fresh.coherent.ready valid
      (session?_initial l core) hint device i
    obtain rfl := ready fresh valid hint head
    exact ⟨b, j, head⟩
  · have after := fresh.steps steady accepted toggles steps
    obtain ⟨on, toggled⟩ := after.toggled
    refine ⟨fresh.answers_eq steady sees accepted takes toggles steps, ⟨on, toggled.uniform, ?_⟩,
      fun core valid hint answer c k head => ready after valid hint head⟩
    exact fun core valid hint answer c k head => toggled.answer_eq steady sees accepted
      after.coherent after.untouched (takes hint) valid head

theorem Steady.of_memory {initial : Address → Word}
    (apart : ∀ x ∈ p.layout.registers p.map, ∀ r ∈ Register.written, p.map.at r ≠ x) :
    Steady p (.memory initial) :=
  ⟨fun x _ => Device.steadyAt_memory initial x, apart⟩

theorem toggles_all_or_nothing_two_cores : ∃ a i ops b j,
    Started Mt8192.platform (.memory fun _ => 0#32) a i ∧
    Steps Mt8192.platform (.memory fun _ => 0#32) a i ops b j ∧
    (∀ o ∈ ops, o.1.toggles = true) ∧
    ∃ depth : Nat → Depth, depth 0 = .constraint 0 ∧
      (∀ core hint answer, (.idleEnter core hint, answer) ∈ ops →
        answer = .depth .baseline ∨ answer = .depth (depth hint)) ∧
      ∃ on, ∀ c ∈ b.ladder.constraints,
        c.status.flags.contains ConstraintFlags.firmware = on := by
  have toggled : (replayAll Mt8192.platform (.memory fun _ => 0#32)
      [.idleEnter 0 0, .notify .all (.setFlags .firmware), .idleEnter 1 2, .idleEnter 0 0,
        .notify .all (.clearFlags .firmware), .idleEnter 0 0, .leave 1]).any (fun r =>
        r.1.all (fun o => o.1.toggles) &&
        r.1.contains (.idleEnter 0 0, .depth (.constraint 0))) = true := by
    decide +kernel
  obtain ⟨⟨ops, b, j⟩, hrun, h⟩ := (Option.any_eq_true _ _).mp toggled
  obtain ⟨a, i, started, steps⟩ := run_of_replayAll hrun
  simp only [Bool.and_eq_true, List.all_eq_true, List.contains_iff_mem] at h
  obtain ⟨toggles, deepest⟩ := h
  have unready : ∀ c ∈ a.ladder.constraints,
      c.status.flags.contains ConstraintFlags.firmware = false := by
    obtain ⟨l, rfl, hconstraints, -⟩ := started.fresh.state
    change ∀ c ∈ l.constraints, _
    rw [hconstraints]
    decide
  have steady : Steady Mt8192.platform (.memory fun _ => 0#32) := .of_memory (by decide +kernel)
  obtain ⟨depth, -, hruns⟩ := toggles_all_or_nothing steady started unready
  obtain ⟨answers, ⟨on, uniform, -⟩, -⟩ := hruns ops b j steps toggles
  refine ⟨a, i, ops, b, j, started, steps, toggles, depth, ?_, answers, on, uniform⟩
  rcases answers 0 0 _ deepest with h | h
  · cases h
  · exact (Answer.depth.inj h).symm

end Arbiter

end LowPower

import LowPower.Proofs.Arbiter.Toggle

namespace LowPower

open Bus (attempt bind_apply)

namespace Constraint

structure Setup where
  keeps : ResourceSet
  flags : ConstraintFlags
  forbidden : Clock.Table

def setup (c : Constraint) : Setup where
  keeps := c.keeps
  flags := c.status.flags
  forbidden := c.forbidden

def Setup.ready (s : Setup) : Setup := { s with flags := s.flags ∪ .firmware }

theorem setup_setFirmware (c : Constraint) :
    (c.setFlags (c.status.flags ∪ .firmware)).setup = c.setup.ready := rfl

theorem Setup.ready_ready (s : Setup) : s.ready.ready = s.ready :=
  congrArg (Setup.mk s.keeps · s.forbidden)
    (Flags.union_eq_of_contains (Flags.contains_union_right _ _))

theorem enterable_of_setup_eq {clocks : Clock.Table} {votes : Votes} (c d : Constraint)
    (h : c.setup = d.setup) (enterable : c.Enterable clocks votes) : d.Enterable clocks votes := by
  have keeps : c.keeps = d.keeps := congrArg Setup.keeps h
  have flags : c.status.flags = d.status.flags := congrArg Setup.flags h
  have forbidden : c.forbidden = d.forbidden := congrArg Setup.forbidden h
  obtain ⟨software, firmware, unblocked, kept⟩ := enterable
  rw [flags] at software firmware unblocked
  rw [forbidden] at unblocked
  rw [keeps] at kept
  exact ⟨software, firmware, unblocked, kept⟩

def Request.adjusts : Request → Bool
  | .clearResidency | .redeliver _ => false
  | .setFlags _ | .clearFlags _ | .editForbidden .. | .flightMode _ | .storageClockOff _ => true

theorem setup_apply {shape : Clock.Shape} {request : Request} (kept : request.adjusts = false)
    {c c' : Constraint} (h : c.apply shape request = .ok c') : c'.setup = c.setup := by
  cases request with
  | clearResidency =>
    cases h
    rfl
  | redeliver interrupts =>
    cases h
    split
    · next hvariant => simp only [setup, keeps, hvariant, Variant.keeps]
    · rfl
  | _ => cases kept

theorem account_of_uncounted {c : Constraint} {record : Wake.Record} (kind : Session.Kind)
    (h : c.status.flags.contains ConstraintFlags.residency = false) :
    c.account kind record = .ok c := by
  rw [account, if_neg]
  rintro ⟨-, counted⟩
  exact Bool.false_ne_true (h.symm.trans counted)

end Constraint

def Operation.adjusts : Operation → Bool
  | .notify _ request | .control (.update _ request) => request.adjusts
  | _ => false

namespace Arbiter

open Constraint (Setup setup)

variable {p : Platform} {device : Device} {a b : Arbiter} {i j : Journal} {d : Deed}
  {ds : List Deed} {op : Operation} {answer : Answer} {ops : List (Operation × Answer)}
  {core n : Nat}

def Deed.Settled : Deed → Prop
  | .update _ request => request.adjusts = false
  | _ => True

theorem Does.observe_setup (hd : Does p device d a i b j) (settled : d.Settled) :
    b.ladder.observe setup n = a.ladder.observe setup n := by
  cases hd with
  | look => exact Ladder.observe_check fun _ => rfl
  | wake _ registered _ accounted =>
    obtain ⟨residency, rfl⟩ := Constraint.account_eq_ok accounted
    exact Ladder.observe_set_of_eq registered rfl
  | arm _ _ registered => exact Ladder.observe_set_of_eq registered rfl
  | update => exact Ladder.observe_apply fun _ _ => Constraint.setup_apply settled
  | read => exact Ladder.observe_read fun _ _ _ => rfl
  | _ => rfl

theorem DoesAll.observe_setup (h : DoesAll p device ds a i b j) (settled : ∀ d ∈ ds, d.Settled) :
    b.ladder.observe setup n = a.ladder.observe setup n := by
  induction h with
  | nil => rfl
  | cons head _ ih =>
    obtain ⟨hd, hds⟩ := List.forall_mem_cons.mp settled
    exact (ih hds).trans (head.observe_setup hd)

theorem Deed.Internal.settled (h : d.Internal) : d.Settled := by
  cases d with
  | update => exact h.elim
  | _ => exact trivial

theorem Course.settled (h : Course p a op ds answer) (kept : op.adjusts = false) :
    ∀ d ∈ ds, d.Settled := by
  cases hcore : op.core?.isSome with
  | true => exact fun d hd => (h.internal hcore d hd).settled
  | false =>
    cases h with
    | vote | withdraw => simp [Deed.Settled]
    | notify target request =>
      exact List.forall_mem_cons.mpr ⟨trivial, List.forall_mem_singleton.mpr kept⟩
    | control command =>
      refine List.forall_mem_cons.mpr ⟨trivial, List.forall_mem_cons.mpr ⟨?_,
        List.forall_mem_singleton.mpr trivial⟩⟩
      cases command with
      | update => exact kept
      | _ => exact trivial
    | invalidEntry entry =>
      rw [Operation.core?_of_enters? entry] at hcore
      cases hcore
    | baseline _ entry =>
      rw [Operation.core?_of_enters? entry] at hcore
      cases hcore
    | constraint _ _ _ entry =>
      rw [Operation.core?_of_enters? entry] at hcore
      cases hcore
    | invalidLeave | leave => cases hcore

theorem step_settled (accepted : p.Accepted) (coherent : Coherent p a) (kept : op.adjusts = false)
    (h : op.step p device a i = ((.ok answer, b), j)) :
    b.ladder.observe setup n = a.ladder.observe setup n := by
  obtain ⟨ds, course, done⟩ := step_course accepted coherent h
  exact done.observe_setup (course.settled kept)

theorem step_setFirmware
    (h : (Operation.notify .all (.setFlags .firmware)).step p device a i = ((.ok answer, b), j)) :
    b.ladder.observe setup n = (a.ladder.observe setup n).map Setup.ready := by
  obtain ⟨ds, course, done⟩ := course_notify h
  obtain rfl := course.deeds_notify
  obtain rfl := done.updated_all (f := fun c => c.setFlags (c.status.flags ∪ .firmware)) fun _ => rfl
  exact Ladder.observe_map Constraint.setup_setFirmware n a.ladder

theorem Steps.observe_setup (accepted : p.Accepted) (coherent : Coherent p a)
    (h : Steps p device a i ops b j) (kept : ∀ o ∈ ops, o.1.adjusts = true →
      o.1 = .notify .all (.setFlags .firmware)) :
    b.ladder.observe setup n =
      if .notify .all (.setFlags .firmware) ∈ ops.map (·.1) then
        (a.ladder.observe setup n).map Setup.ready
      else a.ladder.observe setup n := by
  induction h with
  | refl => rfl
  | @step a _ _ _ _ _ ops op answer head _ ih =>
    obtain ⟨hop, hops⟩ := List.forall_mem_cons.mp kept
    rw [ih (coherent.step accepted head) hops, List.map_cons]
    by_cases hset : .notify .all (.setFlags .firmware) = op
    · subst hset
      have idempotent : Setup.ready ∘ Setup.ready = Setup.ready := funext Setup.ready_ready
      rw [if_pos List.mem_cons_self, step_setFirmware head, Option.map_map, idempotent, ite_self]
    · rw [step_settled accepted coherent (Bool.eq_false_iff.mpr fun h => hset (hop h).symm) head]
      simp only [List.mem_cons, hset, false_or]

theorem not_overfull (h : ∀ c ∈ a.ladder.constraints,
    c.status.flags.contains ConstraintFlags.residency = false) : ¬ Overfull a core := by
  rintro ⟨session, c, record, -, registered, broken⟩
  rw [Constraint.account_of_uncounted _ (h c (List.mem_of_getElem? registered))] at broken
  cases broken

theorem enter_takes (accepted : p.Accepted) (coherent : Coherent p a) (valid : core < p.cores)
    (settles : ¬ Overfull a core) (device : Device) (j : Journal) :
    ∃ clocks, ∀ start kind extra, ∃ depth b k,
      attempt (enter p core start kind extra) a device j = ((.ok depth, b), k) ∧
        Takes (a.ladder.enterable clocks a.votes start) depth := by
  -- The session is left and the clocks are looked at before the start is used for anything.
  rcases close_outcome coherent core device
      ((Bus.when ((a.session? core).isSome) do Bus.note (.unwinding core)) device j).2 with
    ⟨left, ds, b, i, hclosed, closing, done⟩ | ⟨-, overfull⟩
  · cases hlooked : p.layout.observation p.map device i with
    | mk clocks k =>
      refine ⟨clocks, fun start kind extra => ?_⟩
      rw [attempt_enter start kind extra a valid, bind_apply, bind_apply]
      simp only [hclosed]
      cases hselect : (b.refreshed clocks).ladder.select? start b.votes.required with
      | none =>
        obtain ⟨_, -, harrive⟩ :=
          arrive_baseline core kind extra accepted.layout hlooked hselect
        have hempty := (Ladder.select?_check_eq_none_iff clocks b.votes start b.ladder).mp hselect
        rw [closing.enterable done] at hempty
        exact ⟨_, _, _, harrive, .baseline hempty⟩
      | some index =>
        obtain ⟨_, _, _, _, -, harrive, -⟩ := arrive_constraint kind extra accepted
          (done.coherent accepted coherent) valid (closing.closed accepted coherent done) hlooked
          hselect
        have hleast :=
          (Ladder.select?_check_eq_some_iff clocks b.votes start index b.ladder).mp hselect
        rw [closing.enterable done] at hleast
        exact ⟨_, _, _, harrive, .least hleast⟩
  · exact absurd overfull settles

end Arbiter

end LowPower

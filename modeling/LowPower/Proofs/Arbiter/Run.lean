import LowPower.Proofs.Arbiter.Course
import LowPower.Proofs.Ladder.Completion

namespace LowPower

open Bus (Silent)

namespace Ladder

theorem run_addAll_cons (l : Ladder) (c : Constraint) (cs : List Constraint) :
    (l.addAll (c :: cs)).run = Bus.note (.registered c.init.name l.length) >>= fun _ =>
      if l.length < capacity then
        (addAll { l with constraints := l.constraints ++ [c.init] } cs).run
      else pure (.error .tooManyConstraints) := by
  rw [addAll]
  by_cases h : l.length < capacity
  · simp only [h, if_true]
    rfl
  · simp only [h, if_false]
    rfl

theorem silent_addAll (l : Ladder) (cs : List Constraint) :
    Silent Notice.Expected (l.addAll cs).run := by
  induction cs generalizing l with
  | nil => exact .pure _
  | cons c cs ih =>
    rw [run_addAll_cons]
    apply Silent.bind (.note trivial)
    intro _
    split
    · exact ih _
    · exact .pure _

theorem addAll_eq_ok {l m : Ladder} {cs : List Constraint} {device : Device} {i j : Journal}
    (h : (l.addAll cs).run device i = (.ok m, j)) (hl : l.length ≤ capacity) :
    m.constraints = l.constraints ++ cs.map Constraint.init ∧ m.shape = l.shape ∧
      m.length ≤ capacity := by
  induction cs generalizing l i with
  | nil =>
    cases h
    exact ⟨(List.append_nil _).symm, rfl, hl⟩
  | cons c cs ih =>
    rw [run_addAll_cons, Bus.bind_apply] at h
    split at h
    · next hlt =>
      have hle : (l.constraints ++ [c.init]).length ≤ capacity := by
        rw [List.length_append]
        exact hlt
      obtain ⟨hm, hshape, hmle⟩ := ih h hle
      refine ⟨?_, hshape, hmle⟩
      rw [hm, List.map_cons, List.append_assoc, List.singleton_append]
    · cases h

end Ladder

namespace Arbiter

variable {p : Platform} {device : Device} {a b : Arbiter} {i j : Journal}
  {ops : List (Operation × Answer)}

structure Fresh (p : Platform) (a : Arbiter) (j : Journal) : Prop where
  accepted : p.Accepted
  state : ∃ l : Ladder, a = initial l ∧ l.constraints = p.constraints.map Constraint.init ∧
    l.shape = p.layout.shape
  events : j.events = []
  expected : ∀ n ∈ j.notices, n.Expected

theorem run_start (p : Platform) :
    (start p).run =
      match validate p with
      | .error fault => pure (.error fault)
      | .ok _ => do
        match ← (Ladder.addAll ⟨[], p.layout.shape, true⟩ p.constraints).run with
        | .error fault => return .error fault
        | .ok l =>
          Bus.note (.ready l.length)
          return .ok (initial l) := by
  unfold start
  cases validate p with
  | error fault => rfl
  | ok _ =>
    change ExceptT.run (Ladder.addAll _ p.constraints >>= _) = _
    rw [ExceptT.run_bind]
    congr 1
    funext r
    cases r with
    | error fault => rfl
    | ok l => rfl

theorem Started.fresh (h : Started p device a j) : Fresh p a j := by
  change (start p).run device .empty = (.ok a, j) at h
  rw [run_start] at h
  cases hv : validate p with
  | error fault =>
    rw [hv] at h
    cases h
  | ok _ =>
    rw [hv] at h
    obtain ⟨hcores, hlayout⟩ := validate_eq_ok_iff.mp hv
    dsimp only at h
    rw [Bus.bind_apply] at h
    cases hl : (Ladder.addAll ⟨[], p.layout.shape, true⟩ p.constraints).run device .empty with
    | mk r k =>
      rw [hl] at h
      cases r with
      | error fault => cases h
      | ok l =>
        cases h
        obtain ⟨hconstraints, hshape, hcapacity⟩ := Ladder.addAll_eq_ok hl (Nat.zero_le _)
        obtain ⟨new, hnew, hexpected⟩ :=
          (Ladder.silent_addAll ⟨[], p.layout.shape, true⟩ p.constraints).exists_notices device
            .empty
        obtain rfl : k = _ := (congrArg Prod.snd hl).symm.trans hnew
        rw [Ladder.length, hconstraints] at hcapacity
        refine ⟨⟨hcores, hlayout, by simpa using hcapacity⟩, ⟨l, rfl, hconstraints, hshape⟩, rfl,
          ?_⟩
        intro n hn
        cases hn with
        | head => exact trivial
        | tail _ hn =>
          rcases List.mem_append.mp hn with hn | hn
          · exact hexpected n hn
          · cases hn

theorem Steps.invariant {I : Arbiter → Journal → Prop} (accepted : p.Accepted)
    (keeps : ∀ {d a i b j}, Does p device d a i b j → Coherent p a → I a i → I b j)
    (h : Steps p device a i ops b j) (coherent : Coherent p a) (holds : I a i) :
    Coherent p b ∧ I b j := by
  induction h with
  | refl => exact ⟨coherent, holds⟩
  | step head _ ih =>
    obtain ⟨ds, -, done⟩ := step_course accepted coherent head
    have hall := done.invariant
      (I := fun a i => Coherent p a ∧ I a i)
      (fun hd hinv => ⟨hinv.1.does accepted hd, keeps hd hinv.1 hinv.2⟩) ⟨coherent, holds⟩
    exact ih hall.1 hall.2

theorem Does.shape {d : Deed} (hd : Does p device d a i b j) :
    b.ladder.shape = a.ladder.shape := by
  cases hd with
  | update => exact Ladder.shape_apply _ _ _
  | read => exact Ladder.shape_read _ _ _ _
  | _ => rfl

theorem Does.length {d : Deed} (hd : Does p device d a i b j) :
    b.ladder.length = a.ladder.length := by
  cases hd with
  | look => exact Ladder.length_check _ _
  | wake | arm => exact length_setConstraint _ _ _
  | update => exact Ladder.length_apply _ _ _
  | read => exact Ladder.length_read _ _ _ _
  | _ => rfl

structure Sized (p : Platform) (a : Arbiter) : Prop where
  shape : a.ladder.shape = p.layout.shape
  length : a.ladder.length ≤ Ladder.capacity

theorem Sized.does {d : Deed} (hd : Does p device d a i b j) (h : Sized p a) : Sized p b :=
  ⟨hd.shape.trans h.shape, hd.length ▸ h.length⟩

namespace Reachable

theorem invariant {I : Arbiter → Journal → Prop}
    (fresh : ∀ {a j}, Fresh p a j → I a j)
    (keeps : ∀ {d a i b j}, Does p device d a i b j → Coherent p a → I a i → I b j)
    (h : Reachable p device a j) : I a j := by
  obtain ⟨b, i, ops, started, steps⟩ := h
  have hfresh := started.fresh
  obtain ⟨l, hb, -⟩ := hfresh.state
  exact (steps.invariant hfresh.accepted keeps (hb ▸ Coherent.initial l) (fresh hfresh)).2

theorem accepted (h : Reachable p device a j) : p.Accepted := by
  obtain ⟨b, i, ops, started, -⟩ := h
  exact started.fresh.accepted

theorem coherent (h : Reachable p device a j) : Coherent p a := by
  refine invariant (I := fun a _ => Coherent p a) ?_ ?_ h
  · intro a j hfresh
    obtain ⟨l, rfl, -⟩ := hfresh.state
    exact .initial l
  · exact fun hd coherent _ => coherent.does h.accepted hd

theorem sized (h : Reachable p device a j) : Sized p a := by
  refine invariant (I := fun a _ => Sized p a) ?_ (fun hd _ => Sized.does hd) h
  intro a j fresh
  obtain ⟨l, rfl, hconstraints, hshape⟩ := fresh.state
  refine ⟨hshape, ?_⟩
  change l.constraints.length ≤ _
  rw [hconstraints, List.length_map]
  exact fresh.accepted.constraints

end Reachable

def replay (p : Platform) (device : Device) :
    List Operation → Arbiter → Journal → Option (List (Operation × Answer) × Arbiter × Journal)
  | [], a, j => some ([], a, j)
  | op :: asked, a, j =>
    match op.step p device a j with
    | ((.ok answer, b), k) =>
      (replay p device asked b k).map fun (done, c, l) => ((op, answer) :: done, c, l)
    | ((.error _, _), _) => none

theorem steps_of_replay {asked : List Operation}
    (h : replay p device asked a i = some (ops, b, j)) : Steps p device a i ops b j := by
  induction asked generalizing a i ops with
  | nil =>
    cases h
    exact .refl _ _
  | cons op asked ih =>
    rw [replay] at h
    split at h
    · next answer c k hstep =>
      obtain ⟨⟨done, d, l⟩, hrest, hd⟩ := Option.map_eq_some_iff.mp h
      cases hd
      exact .step hstep (ih hrest)
    · cases h

def replayAll (p : Platform) (device : Device) (asked : List Operation) :
    Option (List (Operation × Answer) × Arbiter × Journal) :=
  match (start p).run device .empty with
  | (.ok a, j) => replay p device asked a j
  | (.error _, _) => none

theorem run_of_replayAll {asked : List Operation}
    (h : replayAll p device asked = some (ops, b, j)) :
    ∃ a i, Started p device a i ∧ Steps p device a i ops b j := by
  unfold replayAll at h
  split at h
  · next a i hstart => exact ⟨a, i, hstart, steps_of_replay h⟩
  · cases h

theorem reachable_of_replayAll {asked : List Operation}
    (h : replayAll p device asked = some (ops, b, j)) : Reachable p device b j := by
  obtain ⟨a, i, started, steps⟩ := run_of_replayAll h
  exact ⟨a, i, ops, started, steps⟩

end Arbiter

end LowPower

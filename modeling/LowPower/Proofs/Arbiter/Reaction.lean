import LowPower.Proofs.Arbiter.Run
import LowPower.Proofs.Ladder.Reaction

namespace LowPower

def Operation.requests (n : Nat) : Operation → List Constraint.Request
  | .notify target request | .control (.update target request) => target.requests n request
  | _ => []

theorem Operation.requests_of_enters? {op : Operation} {e : Entry} (h : op.enters? = some e)
    (n : Nat) : op.requests n = [] := by
  cases op with
  | idleEnter | suspendEnter => rfl
  | _ => cases h

namespace Arbiter

variable {γ : Type} {f : Constraint → γ} {react : γ → Constraint.Request → γ} {p : Platform}
  {device : Device} {a b : Arbiter} {i j : Journal} {core : Nat} {left : Option Session} {d : Deed}
  {ds : List Deed} {op : Operation} {answer : Answer} {ops : List (Operation × Answer)}

def Deed.requests (n : Nat) : Deed → List Constraint.Request
  | .update target request => target.requests n request
  | _ => []

theorem DoesAll.shape (h : DoesAll p device ds a i b j) : b.ladder.shape = a.ladder.shape := by
  induction h with
  | nil => rfl
  | cons head _ ih => exact ih.trans head.shape

theorem Does.observe_react (hd : Does p device d a i b j)
    (reacts : Constraint.Reacts a.ladder.shape f react) (n : Nat) :
    b.ladder.observe f n = (a.ladder.observe f n).map ((d.requests n).foldl react) := by
  have kept (x : Option γ) : x.map (([] : List Constraint.Request).foldl react) = x :=
    Option.map_id_apply ..
  cases hd with
  | look => exact (Ladder.observe_check (reacts.check _)).trans (kept _).symm
  | wake _ registered _ accounted =>
    obtain ⟨residency, rfl⟩ := Constraint.account_eq_ok accounted
    refine Eq.trans ?_ (kept _).symm
    exact Ladder.observe_set_of_eq registered (reacts.residency _ _)
  | arm _ _ registered =>
    refine Eq.trans ?_ (kept _).symm
    exact Ladder.observe_set_of_eq registered (reacts.entry _)
  | update target request => exact Ladder.observe_react reacts target request n
  | read =>
    refine Eq.trans ?_ (kept _).symm
    exact Ladder.observe_read fun c _ _ => reacts.residency _ c
  | _ => exact (kept _).symm

theorem DoesAll.observe_react (h : DoesAll p device ds a i b j)
    (reacts : Constraint.Reacts a.ladder.shape f react) (n : Nat) :
    b.ladder.observe f n =
      (a.ladder.observe f n).map ((ds.flatMap (·.requests n)).foldl react) := by
  induction h with
  | nil => exact (Option.map_id_apply ..).symm
  | cons head _ ih =>
    rw [ih (head.shape ▸ reacts), head.observe_react reacts, Option.map_map, List.flatMap_cons]
    congr 1
    funext x
    exact List.foldl_append.symm

theorem Closing.requests (h : Closing a core left ds) (n : Nat) :
    ds.flatMap (·.requests n) = [] := by
  cases h with
  | idle => rfl
  | wake => rfl

theorem Course.requests (h : Course p a op ds answer) (n : Nat) :
    ds.flatMap (·.requests n) = op.requests n := by
  cases h with
  | invalidEntry entry => exact (Operation.requests_of_enters? entry n).symm
  | baseline clocks entry valid closing =>
    rw [Operation.requests_of_enters? entry, List.flatMap_cons, List.flatMap_append,
      closing.requests]
    rfl
  | constraint clocks c required entry valid closing =>
    rw [Operation.requests_of_enters? entry, List.flatMap_cons, List.flatMap_append,
      closing.requests]
    rfl
  | leave valid closing => exact closing.requests n
  | notify target request => exact List.append_nil _
  | control command =>
    cases command with
    | update target request => exact List.append_nil _
    | _ => rfl
  | _ => rfl

theorem step_shape (accepted : p.Accepted) (coherent : Coherent p a)
    (h : op.step p device a i = ((.ok answer, b), j)) : b.ladder.shape = a.ladder.shape := by
  obtain ⟨ds, -, done⟩ := step_course accepted coherent h
  exact done.shape

theorem step_observe_react (accepted : p.Accepted) (coherent : Coherent p a)
    (h : op.step p device a i = ((.ok answer, b), j))
    (reacts : Constraint.Reacts a.ladder.shape f react) (n : Nat) :
    b.ladder.observe f n = (a.ladder.observe f n).map ((op.requests n).foldl react) := by
  obtain ⟨ds, course, done⟩ := step_course accepted coherent h
  rw [done.observe_react reacts, course.requests]

/-- What changes on request alone is what the requests of the run make of it, one by one. -/
theorem Steps.observe_react (accepted : p.Accepted) (coherent : Coherent p a)
    (h : Steps p device a i ops b j) (reacts : Constraint.Reacts a.ladder.shape f react)
    (n : Nat) : b.ladder.observe f n =
      (a.ladder.observe f n).map ((ops.flatMap (·.1.requests n)).foldl react) := by
  induction h with
  | refl => exact (Option.map_id_apply ..).symm
  | step head _ ih =>
    have shape := step_shape accepted coherent head
    rw [ih (coherent.step accepted head) (shape ▸ reacts),
      step_observe_react accepted coherent head reacts, Option.map_map, List.flatMap_cons]
    congr 1
    funext x
    exact List.foldl_append.symm

end Arbiter

end LowPower

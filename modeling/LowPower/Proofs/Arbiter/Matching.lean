import LowPower.Proofs.Arbiter.Sessions
import LowPower.Proofs.Flags

namespace LowPower

namespace Constraint

variable {flag : SessionOptions}

theorem options_untraced (c : Constraint) (kind : Session.Kind)
    (h : flag = .traceLowPower ∨ flag = .traceSuspend) : c.options kind ∩ flag = ∅ := by
  cases kind with
  | idle =>
    rw [options]
    split
    all_goals
      generalize c.variant = variant
      rcases h with rfl | rfl <;> cases variant <;> rw [Variant.options] <;> decide
  | suspend =>
    rw [options]
    generalize c.variant = variant
    rcases h with rfl | rfl <;> cases variant <;> rw [Variant.options] <;> decide

theorem contains_options_prepare (c : Constraint) (session : Session)
    (h : flag = .traceLowPower ∨ flag = .traceSuspend) :
    (c.prepare session).options.contains flag = session.options.contains flag :=
  Flags.contains_union_of_disjoint _ (c.options_untraced session.kind h)

end Constraint

def Operation.took? (op : Operation) : Answer → Option (Entry × Nat)
  | .depth (.constraint index) => op.enters?.map (·, index)
  | _ => none

theorem Operation.idle_extra {op : Operation} {e : Entry} (h : op.enters? = some e)
    (idle : e.kind = .idle) : e.extra = ∅ := by
  cases op with
  | idleEnter => cases h; rfl
  | suspendEnter => cases h; cases idle
  | _ => cases h

namespace Arbiter

variable {p : Platform} {device : Device} {a b : Arbiter} {i j : Journal} {core : Nat}
  {op : Operation} {answer : Answer} {ops earlier : List (Operation × Answer)}

/-- The entry which the latest operation on a core was, if it took a constraint, and the place of
that constraint. -/
def opened? (core : Nat) (ops : List (Operation × Answer)) : Option (Entry × Nat) :=
  (ops.reverse.find? fun o => o.1.core? = some core).bind fun o => o.1.took? o.2

theorem opened?_append (core : Nat) (ops : List (Operation × Answer)) (op : Operation)
    (answer : Answer) : opened? core (ops ++ [(op, answer)]) =
      if op.core? = some core then op.took? answer else opened? core ops := by
  rw [opened?, List.reverse_append, List.reverse_singleton, List.singleton_append, List.find?_cons]
  by_cases h : op.core? = some core
  · simp [h]
  · simp [h, opened?]

structure Began (e : Entry) (index : Nat) (session : Session) : Prop where
  core : session.core = e.core
  constraint : session.constraint = index
  kind : session.kind = e.kind
  idle : e.kind = .idle → e.extra = ∅
  lowPower : session.options.contains SessionOptions.traceLowPower =
    e.extra.contains SessionOptions.traceLowPower
  suspend : session.options.contains SessionOptions.traceSuspend =
    e.extra.contains SessionOptions.traceSuspend

theorem began_prepare {e : Entry} (entry : op.enters? = some e) (index : Nat) (c : Constraint)
    (a : Arbiter) : Began e index (c.prepare (newSession p a e.core index e.kind e.extra)) where
  core := rfl
  constraint := rfl
  kind := rfl
  idle := Operation.idle_extra entry
  lowPower := c.contains_options_prepare _ (.inl rfl)
  suspend := c.contains_options_prepare _ (.inr rfl)

/-- The open sessions are those which the latest operations on their cores opened. -/
def Matched (ops : List (Operation × Answer)) (a : Arbiter) : Prop :=
  ∀ core, Option.Rel (fun o session => o.1.core = core ∧ Began o.1 o.2 session) (opened? core ops)
    (a.session? core)

theorem matched_initial (l : Ladder) : Matched [] (initial l) := fun core => by
  rw [session?_initial]
  exact .none

theorem Matched.step (h : Matched ops a) (accepted : p.Accepted) (coherent : Coherent p a)
    (head : op.step p device a i = ((.ok answer, b), j)) :
    Matched (ops ++ [(op, answer)]) b := by
  intro core
  have settles := step_settles accepted coherent head
  rw [opened?_append]
  by_cases hop : op.core? = some core
  case neg =>
    rw [if_neg hop, (settles.kept core hop).1]
    exact h core
  rw [if_pos hop]
  have entered {e : Entry} (entry : op.enters? = some e) :
      Option.Rel (fun o session => o.1.core = core ∧ Began o.1 o.2 session) (op.took? answer)
        (b.session? core) := by
    obtain rfl : e.core = core :=
      Option.some.inj ((Operation.core?_of_enters? entry).symm.trans hop)
    rcases session?_of_entry accepted coherent entry head with
      ⟨index, c, u, rfl, hopened⟩ | ⟨rfl, hclosed⟩
    · rw [hopened, Operation.took?, entry]
      exact .some ⟨rfl, began_prepare entry index c u⟩
    · rw [hclosed]
      exact .none
  cases op with
  | idleEnter => exact entered rfl
  | suspendEnter => exact entered rfl
  | leave other =>
    cases hop
    obtain ⟨hclosed, reason, rfl, -⟩ := settles.left core rfl
    rw [hclosed]
    exact .none
  | _ => cases hop

theorem Matched.steps (h : Matched earlier a) (accepted : p.Accepted) (coherent : Coherent p a)
    (steps : Steps p device a i ops b j) : Matched (earlier ++ ops) b := by
  induction steps generalizing earlier with
  | refl => rwa [List.append_nil]
  | step head _ ih =>
    rw [List.append_cons]
    exact ih (h.step accepted coherent head) (coherent.step accepted head)

end Arbiter

end LowPower

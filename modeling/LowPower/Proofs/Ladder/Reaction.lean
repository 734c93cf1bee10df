import LowPower.Proofs.Ladder.Update

namespace LowPower

def Target.requests (n : Nat) (target : Target) (request : Constraint.Request) :
    List Constraint.Request :=
  if target.includes n then [request] else []

namespace Constraint

variable {γ : Type} {shape : Clock.Shape}

theorem apply_uniform (shape : Clock.Shape) (request : Request) :
    (∀ c : Constraint, c.apply shape request = .ok (c.afterApply shape request)) ∨
    ∃ failure, ∀ c : Constraint, c.apply shape request = .error failure := by
  cases request with
  | editForbidden entry value on =>
    simp only [apply]
    rcases Clock.Table.edit_uniform shape entry value on with done | refused | ⟨fault, broken⟩
    · left
      intro c
      obtain ⟨forbidden, edited⟩ := done c.forbidden
      simp only [afterApply, apply, edited]
      rfl
    · exact .inr ⟨_, fun c => by rw [refused]⟩
    · exact .inr ⟨_, fun c => by rw [broken]⟩
  | _ => exact .inl fun _ => rfl

structure Reacts (shape : Clock.Shape) (f : Constraint → γ) (react : γ → Request → γ) : Prop where
  check : ∀ live c, f (check live c) = f c
  residency : ∀ ticks c, f { c with status.residency := ticks } = f c
  entry : ∀ c, f c.countEntry = f c
  apply : ∀ request c, f (c.afterApply shape request) = react (f c) request

end Constraint

namespace Ladder

variable {γ : Type} {f : Constraint → γ} {react : γ → Constraint.Request → γ} {l : Ladder}

theorem snd_apply (target : Target) (request : Constraint.Request) (l : Ladder) :
    (l.apply target request).2 = l.mapWhere target.includes (·.afterApply l.shape request) := by
  rcases Constraint.apply_uniform l.shape request with accepts | ⟨failure, refuses⟩
  · by_cases present : ∀ i, target = .index i → i < l.length
    · rw [apply_eq_ok target accepts present]
    · simp only [not_forall, exists_prop, Nat.not_lt] at present
      obtain ⟨i, rfl, hi⟩ := present
      have absent (n : Nat) (hn : n < l.length) : decide (i = n) = false :=
        decide_eq_false fun h => Nat.not_lt.mpr hi (h ▸ hn)
      rw [apply_index_eq_refused request (List.getElem?_eq_none hi)]
      exact ((mapWhere_congr absent).trans mapWhere_false).symm
  · have kept : (·.afterApply l.shape request) = (id : Constraint → Constraint) := by
      funext c
      rw [Constraint.afterApply, refuses]
      rfl
    rw [kept, mapWhere_id]
    cases target with
    | all =>
      obtain ⟨constraints, shape, registered⟩ := l
      cases constraints with
      | nil => rfl
      | cons c cs => simp only [apply, applyAll, refuses]
    | index i =>
      simp only [apply, refuses]
      split <;> rfl

theorem observe_react (reacts : Constraint.Reacts l.shape f react) (target : Target)
    (request : Constraint.Request) (n : Nat) : (l.apply target request).2.observe f n =
      (l.observe f n).map ((target.requests n request).foldl react) := by
  rw [snd_apply, observe, getElem?_mapWhere, observe, Option.map_map, Option.map_map]
  congr 1
  funext c
  by_cases included : target.includes n = true
  · simp only [Function.comp_apply, Target.requests, if_pos included]
    exact reacts.apply request c
  · simp only [Function.comp_apply, Target.requests, if_neg included]
    rfl

end Ladder

end LowPower

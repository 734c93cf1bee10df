import LowPower.Proofs.Bus.Attempt

/-!
Properties of actions which one action after another has if each of them has it. They carry over
to actions on a state, and to those which may break off.
-/

namespace LowPower

open Bus (Action attempt attempt_bind)

/-- A property of computations which is kept when they follow on each other. -/
structure Habit (m : Type → Type) [Monad m] (Φ : ∀ {α : Type}, m α → Prop) : Prop where
  pure {α : Type} (a : α) : Φ (pure a : m α)
  bind {α β : Type} {x : m α} {f : α → m β} (hx : Φ x) (hf : ∀ a, Φ (f a)) : Φ (x >>= f)

namespace Habit

variable {m : Type → Type} [Monad m] {Φ : ∀ {α : Type}, m α → Prop} {α β σ : Type}

theorem ite (_ : Habit m Φ) {c : Prop} [Decidable c] {x y : m α} (hx : Φ x) (hy : Φ y) :
    Φ (if c then x else y) := by
  split
  · exact hx
  · exact hy

theorem map [LawfulMonad m] (h : Habit m Φ) {x : m α} (g : α → β) (hx : Φ x) : Φ (g <$> x) := by
  rw [← bind_pure_comp]
  exact h.bind hx fun a => h.pure (g a)

theorem mapM [LawfulMonad m] (h : Habit m Φ) {f : α → m β} (hf : ∀ a, Φ (f a)) (as : List α) :
    Φ (as.mapM f) := by
  induction as with
  | nil => exact h.pure []
  | cons a as ih =>
    rw [List.mapM_cons]
    exact h.bind (hf a) fun _ => h.bind ih fun _ => h.pure _

section

variable {Φ : ∀ {α : Type}, Action α → Prop}

abbrev State (Φ : ∀ {α : Type}, Action α → Prop) (x : StateT σ Action α) : Prop :=
  ∀ s, Φ (x.run s)

abbrev Attempt (Φ : ∀ {α : Type}, Action α → Prop) (x : ExceptT Fault (StateT σ Action) α) :
    Prop :=
  ∀ s, Φ (attempt x s)

variable (h : Habit Action Φ)
include h

theorem when {c : Prop} [Decidable c] {x : Action Unit} (hx : Φ x) : Φ (Bus.when c x) :=
  h.ite hx (h.pure ())

theorem state : Habit (StateT σ Action) (State Φ) where
  pure _ _ := h.pure _
  bind hx hf s := h.bind (hx s) fun r => hf r.1 r.2

theorem attempt : Habit (ExceptT Fault (StateT σ Action)) (Attempt Φ) where
  pure _ _ := h.pure _
  bind hx hf s := by
    rw [attempt_bind]
    refine h.bind (hx s) ?_
    rintro ⟨fault | a, t⟩
    · exact h.pure _
    · exact hf a t

theorem state_lift {x : Action α} (hx : Φ x) : State Φ (liftM x : StateT σ Action α) := by
  intro s
  change Φ (x >>= fun a => Pure.pure (a, s))
  exact h.bind hx fun _ => h.pure _

theorem state_get : State Φ (get : StateT σ Action σ) := fun _ => h.pure _

theorem state_modify (g : σ → σ) : State Φ (modify g : StateT σ Action Unit) := fun _ => h.pure _

theorem attempt_lift {x : StateT σ Action α} (hx : State Φ x) :
    Attempt Φ (liftM x : ExceptT Fault (StateT σ Action) α) := by
  intro s
  change Φ (x.run s >>= fun r => Pure.pure ((Except.ok r.1 : Except Fault α), r.2))
  exact h.bind (hx s) fun _ => h.pure _

theorem attempt_liftBus {x : Action α} (hx : Φ x) :
    Attempt Φ (liftM x : ExceptT Fault (StateT σ Action) α) := by
  intro s
  change Φ (x >>= fun a => Pure.pure ((Except.ok a : Except Fault α), s))
  exact h.bind hx fun _ => h.pure _

theorem attempt_liftExcept (r : Except Fault α) :
    Attempt Φ (liftExcept r : ExceptT Fault (StateT σ Action) α) := by
  intro s
  cases r with
  | ok a => exact h.pure _
  | error fault => exact h.pure _

theorem attempt_throw (fault : Fault) :
    Attempt Φ (throw fault : ExceptT Fault (StateT σ Action) α) := fun _ => h.pure _

theorem attempt_get : Attempt Φ (get : ExceptT Fault (StateT σ Action) σ) := fun _ => h.pure _

theorem attempt_set (s : σ) : Attempt Φ (set s : ExceptT Fault (StateT σ Action) PUnit) :=
  fun _ => h.pure _

theorem attempt_modify (g : σ → σ) : Attempt Φ (modify g : ExceptT Fault (StateT σ Action) Unit) :=
  fun _ => h.pure _

end

end Habit

namespace Bus

variable {α : Type}

/-- Two outcomes are the same but for what was reported. -/
structure Alike (r s : α × Journal) : Prop where
  result : r.1 = s.1
  events : r.2.events = s.2.events

def Deaf (x : Action α) : Prop :=
  ∀ device i j, i.events = j.events → Alike (x device i) (x device j)

namespace Deaf

theorem habit : Habit Action Deaf where
  pure _ _ _ _ h := ⟨rfl, h⟩
  bind hx hf device i j h := by
    obtain ⟨hresult, hevents⟩ := hx device i j h
    rw [bind_apply, bind_apply, hresult]
    exact hf _ device _ _ hevents

theorem note (n : Notice) : Deaf (note n) := fun _ _ _ h => ⟨rfl, h⟩

theorem emit (e : Event) : Deaf (emit e) := fun _ _ _ h => ⟨rfl, congrArg (e :: ·) h⟩

theorem read (a : Address) : Deaf (read a) := by
  rintro device ⟨es, ms⟩ ⟨_, ns⟩ rfl
  exact ⟨rfl, rfl⟩

end Deaf

end Bus

end LowPower

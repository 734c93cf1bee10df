import LowPower.Fault
import LowPower.Proofs.Bus.Emission

namespace LowPower.Bus

variable {α β σ : Type}

def attempt (x : ExceptT Fault (StateT σ Action) α) (s : σ) : Action (Except Fault α × σ) :=
  x.run.run s

@[simp] theorem attempt_pure (a : α) (s : σ) :
    attempt (pure a : ExceptT Fault (StateT σ Action) α) s = pure (.ok a, s) := rfl

@[simp] theorem attempt_throw (fault : Fault) (s : σ) :
    attempt (throw fault : ExceptT Fault (StateT σ Action) α) s = pure (.error fault, s) := rfl

theorem attempt_bind (x : ExceptT Fault (StateT σ Action) α)
    (f : α → ExceptT Fault (StateT σ Action) β) (s : σ) :
    attempt (x >>= f) s = attempt x s >>= fun
      | (.ok a, t) => attempt (f a) t
      | (.error fault, t) => pure (.error fault, t) := by
  funext device j
  change _ = (match (x.run.run s device j).1 with
    | (.ok a, t) => attempt (f a) t
    | (.error fault, t) => pure (.error fault, t)) device (x.run.run s device j).2
  rw [attempt, ExceptT.run_bind, StateT.run_bind, bind_apply]
  rcases (x.run.run s device j).1 with ⟨⟨_⟩ | ⟨_⟩, t⟩
  · rfl
  · rfl

theorem attempt_map (f : α → β) (x : ExceptT Fault (StateT σ Action) α) (s : σ) :
    attempt (f <$> x) s = (fun r => (r.1.map f, r.2)) <$> attempt x s := by
  rw [← bind_pure_comp, attempt_bind, ← bind_pure_comp]
  congr 1
  funext r
  rcases r with ⟨⟨_⟩ | ⟨_⟩, t⟩
  · rfl
  · rfl

@[simp] theorem attempt_liftState_bind (x : StateT σ Action α)
    (f : α → ExceptT Fault (StateT σ Action) β) (s : σ) :
    attempt ((liftM x : ExceptT Fault (StateT σ Action) α) >>= f) s =
      x.run s >>= fun r => attempt (f r.1) r.2 := rfl

@[simp] theorem attempt_liftBus_bind (x : Action α)
    (f : α → ExceptT Fault (StateT σ Action) β) (s : σ) :
    attempt ((liftM x : ExceptT Fault (StateT σ Action) α) >>= f) s =
      x >>= fun a => attempt (f a) s := rfl

@[simp] theorem attempt_map_liftBus (g : α → β) (x : Action α) (s : σ) :
    attempt (g <$> (liftM x : ExceptT Fault (StateT σ Action) α)) s =
      (fun a => (.ok (g a), s)) <$> x := rfl

@[simp] theorem attempt_get_bind (f : σ → ExceptT Fault (StateT σ Action) β) (s : σ) :
    attempt (get >>= f) s = attempt (f s) s := rfl

@[simp] theorem attempt_set_bind (t : σ) (f : PUnit → ExceptT Fault (StateT σ Action) β) (s : σ) :
    attempt (set t >>= f) s = attempt (f ⟨⟩) t := rfl

@[simp] theorem attempt_modify_bind (g : σ → σ)
    (f : PUnit → ExceptT Fault (StateT σ Action) β) (s : σ) :
    attempt (modify g >>= f) s = attempt (f ⟨⟩) (g s) := rfl

@[simp] theorem attempt_liftExcept_bind (x : Except Fault α)
    (f : α → ExceptT Fault (StateT σ Action) β) (s : σ) :
    attempt (liftExcept x >>= f) s =
      match x with
      | .ok a => attempt (f a) s
      | .error fault => pure (.error fault, s) := by
  cases x with
  | ok a => rfl
  | error fault => rfl

end LowPower.Bus

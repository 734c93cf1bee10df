import LowPower.Proofs.Bus.Emission

namespace LowPower

open Bus (Event)

/-- As long as nothing is done but reading, the registers have the given contents. -/
def Device.Holds (device : Device) (contents : Address → Word) (h : Bus.History) : Prop :=
  ∀ reads : List Event, (∀ e ∈ reads, e.IsRead) → ∀ a, device (reads ++ h) a = contents a

theorem Device.holds_memory (initial : Address → Word) (h : Bus.History) :
    (Device.memory initial).Holds (Device.memory initial h) h := by
  intro reads hreads a
  induction reads with
  | nil => rfl
  | cons e reads ih =>
    have rest := ih fun e he => hreads e (List.mem_cons_of_mem _ he)
    cases e with
    | read => exact rest
    | _ => exact (hreads _ List.mem_cons_self).elim

namespace Bus

variable {α β : Type} {contents : Address → Word}

def sights (contents : Address → Word) (visited : List Address) : History :=
  (visited.map fun a => .read a (contents a)).reverse

@[simp] theorem sights_append (visited visited' : List Address) :
    sights contents (visited ++ visited') =
      sights contents visited' ++ sights contents visited := by
  simp [sights]

theorem isRead_of_mem_sights {visited : List Address} :
    ∀ e ∈ sights contents visited, e.IsRead := by
  intro e he
  obtain ⟨a, -, rfl⟩ := List.mem_map.mp (List.mem_reverse.mp he)
  exact trivial

/-- With the given contents of the registers, an action does nothing but visit some of them, and
has the given result. -/
def Looks (contents : Address → Word) (x : Action α) (visited : List Address) (a : α) : Prop :=
  ∀ device j, device.Holds contents j.events →
    (x device j).1 = a ∧ (x device j).2.events = sights contents visited ++ j.events

namespace Looks

theorem pure (a : α) : Looks contents (Pure.pure a : Action α) [] a := fun _ _ _ => ⟨rfl, rfl⟩

theorem read (a : Address) : Looks contents (read a) [a] (contents a) := by
  intro device j holds
  have value : device j.events a = contents a := holds [] nofun a
  exact ⟨value, congrArg (Event.read a · :: j.events) value⟩

theorem bind {x : Action α} {f : α → Action β} {visited visited' : List Address} {a : α} {b : β}
    (hx : Looks contents x visited a) (hf : Looks contents (f a) visited' b) :
    Looks contents (x >>= f) (visited ++ visited') b := by
  intro device j holds
  obtain ⟨result, events⟩ := hx device j holds
  have holds' : device.Holds contents (x device j).2.events := by
    intro reads hreads c
    rw [events, ← List.append_assoc]
    exact holds _ (fun e he => (List.mem_append.mp he).elim (hreads e) (isRead_of_mem_sights e)) c
  obtain ⟨result', events'⟩ := hf device _ holds'
  rw [bind_apply, result]
  exact ⟨result', by rw [events', events, sights_append, List.append_assoc]⟩

theorem result {x : Action α} {visited : List Address} {a : α} (hx : Looks contents x visited a)
    (g : α → β) : Looks contents (do return g (← x)) visited (g a) := by
  intro device j holds
  obtain ⟨result, events⟩ := hx device j holds
  exact ⟨congrArg g result, events⟩

theorem mapM {f : α → Action β} {visits : α → List Address} {g : α → β}
    (hf : ∀ a, Looks contents (f a) (visits a) (g a)) (as : List α) :
    Looks contents (as.mapM f) (as.flatMap visits) (as.map g) := by
  induction as with
  | nil => exact pure []
  | cons a as ih =>
    rw [List.mapM_cons, List.flatMap_cons]
    exact bind (hf a) (result ih (g a :: ·))

end Looks

end Bus

end LowPower

import LowPower.Proofs.Clock.Observation

namespace LowPower

def Device.SteadyAt (device : Device) (x : Address) : Prop :=
  ∀ h : Bus.History, (∀ w, .write x w ∉ h) → device h x = device [] x

theorem Device.steadyAt_memory (initial : Address → Word) (x : Address) :
    (Device.memory initial).SteadyAt x := by
  have unwritten (h : Bus.History) (hx : ∀ w, .write x w ∉ h) : Bus.written? x h = none := by
    induction h with
    | nil => rfl
    | cons e h ih =>
      have hrest := ih fun w hw => hx w (List.mem_cons_of_mem _ hw)
      cases e with
      | write y w =>
        rw [Bus.written?_write, if_neg]
        · exact hrest
        · rintro rfl
          exact hx w List.mem_cons_self
      | _ => exact hrest
  intro h hx
  rw [memory, memory, unwritten h hx, unwritten [] nofun]

namespace Bus

variable {α β : Type} {device : Device} {xs : List Address}

def Untouched (xs : List Address) (h : History) : Prop := ∀ x ∈ xs, ∀ w, .write x w ∉ h

/-- The result is the same in every history in which the registers were not written, and they are
not written by the action. -/
def Constant (device : Device) (xs : List Address) (x : Action α) : Prop :=
  ∃ a, ∀ j : Journal, Untouched xs j.events →
    (x device j).1 = a ∧ Untouched xs (x device j).2.events

namespace Constant

theorem pure (a : α) : Constant device xs (Pure.pure a : Action α) := ⟨a, fun _ h => ⟨rfl, h⟩⟩

theorem note (n : Notice) : Constant device xs (Bus.note n) := ⟨(), fun _ h => ⟨rfl, h⟩⟩

theorem read {x : Address} (steady : device.SteadyAt x) (hx : x ∈ xs) :
    Constant device xs (Bus.read x) := by
  refine ⟨device [] x, fun j h => ⟨steady j.events (h x hx), fun y hy w hw => ?_⟩⟩
  cases hw with
  | tail _ hw => exact h y hy w hw

theorem bind {x : Action α} {f : α → Action β} (hx : Constant device xs x)
    (hf : ∀ a, Constant device xs (f a)) : Constant device xs (x >>= f) := by
  obtain ⟨a, hx⟩ := hx
  obtain ⟨b, hf⟩ := hf a
  refine ⟨b, fun j h => ?_⟩
  obtain ⟨ha, untouched⟩ := hx j h
  rw [bind_apply, ha]
  exact hf _ untouched

theorem mapM {f : α → Action β} {as : List α} (hf : ∀ a ∈ as, Constant device xs (f a)) :
    Constant device xs (as.mapM f) := by
  induction as with
  | nil => exact pure []
  | cons a as ih =>
    rw [List.mapM_cons]
    exact .bind (hf a List.mem_cons_self) fun _ =>
      .bind (ih fun b hb => hf b (List.mem_cons_of_mem _ hb)) fun _ => pure _

end Constant

end Bus

namespace Clock

open Bus (Constant)

variable {device : Device} {xs : List Address} {map : Register.Map}

def Domain.registers (d : Domain) : List Address := d.gate :: d.mux.toList.map (·.register)

def Layout.registers (map : Register.Map) (l : Layout) : List Address :=
  map.powerStatus :: map.powerStatus2nd ::
    (l.domains.flatMap Domain.registers ++ l.plls.map (·.register))

theorem Domain.constant_observe (steady : ∀ x ∈ xs, device.SteadyAt x) {d : Domain}
    (h : d.registers ⊆ xs) (status : Word) : Constant device xs (d.observe status) := by
  have hread (x : Address) (hx : x ∈ d.registers) : Constant device xs (Bus.read x) :=
    .read (steady x (h hx)) (h hx)
  unfold observe
  split
  · have gate := hread d.gate List.mem_cons_self
    cases hm : d.mux with
    | none => exact .bind gate fun _ => .pure _
    | some m =>
      have hmux : m.register ∈ d.registers := by simp [registers, hm]
      refine .bind (.bind (hread _ hmux) fun _ => .pure _) fun parked => ?_
      split
      · exact .pure _
      · exact .bind gate fun _ => .pure _
  · exact .pure _

theorem Probe.constant_survey (steady : ∀ x ∈ xs, device.SteadyAt x) {ps : List Probe}
    (h : ps.map (·.register) ⊆ xs) (bits : Word) (i : Nat) :
    Constant device xs (survey bits i ps) := by
  induction ps generalizing bits i with
  | nil => exact .pure _
  | cons p ps ih =>
    obtain ⟨hp, hps⟩ := List.cons_subset.mp h
    exact .bind (.read (steady _ hp) hp) fun _ => ih hps _ _

theorem Layout.constant_observation {l : Layout}
    (steady : ∀ x ∈ l.registers map, device.SteadyAt x) :
    Constant device (l.registers map) (l.observation map) := by
  have hpower : map.powerStatus ∈ l.registers map := List.mem_cons_self
  have hpower2nd : map.powerStatus2nd ∈ l.registers map :=
    List.mem_cons_of_mem _ List.mem_cons_self
  have hdomain : ∀ d ∈ l.domains.take domainCapacity, d.registers ⊆ l.registers map := by
    intro d hd x hx
    have := List.mem_flatMap.mpr ⟨d, List.mem_of_mem_take hd, hx⟩
    simp [registers, this]
  have hplls : l.plls.map (·.register) ⊆ l.registers map := by
    intro x hx
    simp [registers, List.mem_append_right _ hx]
  have domains : Constant device (l.registers map)
      (Domain.observeAll map (l.domains.take domainCapacity)) :=
    .bind (.read (steady _ hpower) hpower) fun _ =>
      .bind (.read (steady _ hpower2nd) hpower2nd) fun _ =>
      .mapM fun d hd => Domain.constant_observe steady (hdomain d hd) _
  exact .bind domains fun _ => .bind (Probe.constant_survey steady hplls _ _) fun _ =>
    .bind (.note _) fun _ => .pure _

end Clock

end LowPower

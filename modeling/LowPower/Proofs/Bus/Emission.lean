import LowPower.Bus

namespace LowPower.Bus

variable {α β γ : Type}

def when (c : Prop) [Decidable c] (x : Action Unit) : Action Unit := if c then x else pure ()

@[simp] theorem when_pos {c : Prop} [Decidable c] (h : c) (x : Action Unit) :
    when c x = x := if_pos h

@[simp] theorem when_neg {c : Prop} [Decidable c] (h : ¬ c) (x : Action Unit) :
    when c x = pure () := if_neg h

theorem ite_bind_eq_when_bind (c : Prop) [Decidable c] (x : Action Unit)
    (k : Unit → Action β) : (if c then x >>= k else k ()) = when c x >>= k := by
  by_cases h : c
  · simp [h]
  · simp [h]

theorem bind_apply (x : Action α) (f : α → Action β) (device : Device) (j : Journal) :
    (x >>= f) device j = f (x device j).1 device (x device j).2 := rfl

theorem map_apply (f : α → β) (x : Action α) (device : Device) (j : Journal) :
    (f <$> x) device j = (f (x device j).1, (x device j).2) := rfl

def Event.IsRead : Event → Prop
  | .read .. => True
  | _ => False

def Adds (list : Journal → List γ) (φ : γ → Prop) (x : Action α) : Prop :=
  ∀ device j, ∃ new, list (x device j).2 = new ++ list j ∧ ∀ e ∈ new, φ e

abbrev Emits (φ : Event → Prop) (x : Action α) : Prop := Adds Journal.events φ x

abbrev Reports (φ : Notice → Prop) (x : Action α) : Prop := Adds Journal.notices φ x

namespace Adds

variable {list : Journal → List γ} {φ : γ → Prop} {x : Action α} {f : α → Action β}

theorem of_eq (h : ∀ device j, list (x device j).2 = list j) : Adds list φ x :=
  fun device j => ⟨[], h device j, by simp⟩

theorem pure (a : α) : Adds list φ (Pure.pure a : Action α) := of_eq fun _ _ => rfl

theorem bind (hx : Adds list φ x) (hf : ∀ a, Adds list φ (f a)) : Adds list φ (x >>= f) := by
  intro device j
  obtain ⟨es, hes, hφ⟩ := hx device j
  obtain ⟨es', hes', hφ'⟩ := hf (x device j).1 device (x device j).2
  refine ⟨es' ++ es, ?_, ?_⟩
  · rw [bind_apply, hes', hes, List.append_assoc]
  · intro e he
    rcases List.mem_append.mp he with he | he
    · exact hφ' e he
    · exact hφ e he

theorem when {c : Prop} [Decidable c] {x : Action Unit} (h : c → Adds list φ x) :
    Adds list φ (when c x) := by
  by_cases hc : c
  · simpa [hc] using h hc
  · simpa [hc] using pure ()

theorem all (hx : Adds list φ x) {device : Device} {i j : Journal} {a : α}
    (hdone : x device i = (a, j)) (h : ∀ e ∈ list i, φ e) : ∀ e ∈ list j, φ e := by
  obtain ⟨new, hnew, hφ⟩ := hx device i
  rw [hdone] at hnew
  rw [hnew]
  exact fun e he => (List.mem_append.mp he).elim (hφ e) (h e)

end Adds

namespace Emits

variable {φ : Event → Prop}

theorem note (n : Notice) : Emits φ (note n) := .of_eq fun _ _ => rfl

theorem emit {e : Event} (h : φ e) : Emits φ (emit e) := fun _ _ => ⟨[e], rfl, by simpa using h⟩

theorem write {a : Address} {w : Word} (h : φ (.write a w)) : Emits φ (write a w) := emit h

theorem read {a : Address} (h : ∀ w, φ (.read a w)) : Emits φ (read a) := by
  intro device j
  exact ⟨[.read a (device j.events a)], rfl, by simpa using h _⟩

end Emits

namespace Reports

variable {φ : Notice → Prop}

theorem note {n : Notice} (h : φ n) : Reports φ (note n) := fun _ _ => ⟨[n], rfl, by simpa using h⟩

theorem emit (e : Event) : Reports φ (emit e) := .of_eq fun _ _ => rfl

theorem write (a : Address) (w : Word) : Reports φ (write a w) := emit _

theorem read (a : Address) : Reports φ (read a) := .of_eq fun _ _ => rfl

end Reports

structure Silent (φ : Notice → Prop) (x : Action α) : Prop where
  emits : Emits (fun _ => False) x
  reports : Reports φ x

namespace Silent

variable {φ : Notice → Prop} {x : Action α} {f : α → Action β}

theorem pure (a : α) : Silent φ (Pure.pure a : Action α) := ⟨.pure a, .pure a⟩

theorem bind (hx : Silent φ x) (hf : ∀ a, Silent φ (f a)) : Silent φ (x >>= f) :=
  ⟨.bind hx.emits fun a => (hf a).emits, .bind hx.reports fun a => (hf a).reports⟩

theorem when {c : Prop} [Decidable c] {x : Action Unit} (h : c → Silent φ x) :
    Silent φ (when c x) :=
  ⟨.when fun hc => (h hc).emits, .when fun hc => (h hc).reports⟩

theorem note {n : Notice} (h : φ n) : Silent φ (note n) := ⟨.note n, .note h⟩

theorem noteAll {ns : List Notice} (h : ∀ n ∈ ns, φ n) : Silent φ (noteAll ns) := by
  induction ns with
  | nil => exact pure ()
  | cons n ns ih =>
    apply bind (note (h n List.mem_cons_self))
    intro _
    exact ih fun m hm => h m (List.mem_cons_of_mem n hm)

theorem exists_notices (h : Silent φ x) (device : Device) (j : Journal) :
    ∃ new, (x device j).2 = { j with notices := new ++ j.notices } ∧ ∀ n ∈ new, φ n := by
  obtain ⟨es, hes, hnone⟩ := h.emits device j
  obtain ⟨new, hnew, hφ⟩ := h.reports device j
  have hnil : es = [] := List.eq_nil_iff_forall_not_mem.mpr hnone
  refine ⟨new, ?_, hφ⟩
  rw [← hnew]
  rw [hnil] at hes
  exact congrArg (Journal.mk · (x device j).2.notices) hes

end Silent

structure Passive (x : Action α) : Prop where
  emits : Emits Event.IsRead x
  reports : ∀ φ, Reports φ x

namespace Passive

variable {x : Action α} {f : α → Action β}

theorem pure (a : α) : Passive (Pure.pure a : Action α) := ⟨.pure a, fun _ => .pure a⟩

theorem bind (hx : Passive x) (hf : ∀ a, Passive (f a)) : Passive (x >>= f) :=
  ⟨.bind hx.emits fun a => (hf a).emits, fun φ => .bind (hx.reports φ) fun a => (hf a).reports φ⟩

theorem read (a : Address) : Passive (read a) := ⟨.read fun _ => trivial, fun _ => .read a⟩

end Passive

/-- An action turns what is seen of the history by a function of what was seen before. -/
def Acts (device : Device) (view : History → γ) (x : Action α) (f : γ → γ) : Prop :=
  ∀ j, view (x device j).2.events = f (view j.events)

def Hidden (view : History → γ) (e : Event) : Prop := ∀ h, view (e :: h) = view h

theorem view_append {view : History → γ} {es : List Event} (h : History)
    (hes : ∀ e ∈ es, Hidden view e) : view (es ++ h) = view h := by
  induction es with
  | nil => rfl
  | cons e es ih =>
    rw [List.cons_append, hes e List.mem_cons_self]
    exact ih fun e he => hes e (List.mem_cons_of_mem _ he)

namespace Acts

variable {device : Device} {view : History → γ} {x : Action α} {f g : γ → γ}

theorem pure (a : α) : Acts device view (Pure.pure a : Action α) id := fun _ => rfl

theorem bind {y : α → Action β} (hx : Acts device view x f)
    (hy : ∀ a, Acts device view (y a) g) : Acts device view (x >>= y) (g ∘ f) := by
  intro j
  rw [bind_apply, hy, hx, Function.comp_apply]

theorem done {i j : Journal} {a : α} (hx : Acts device view x f) (h : x device i = (a, j)) :
    view j.events = f (view i.events) := by
  have := hx i
  rwa [h] at this

theorem before {y : α → Action β} (hx : Acts device view x id)
    (hy : ∀ a, Acts device view (y a) g) : Acts device view (x >>= y) g := hx.bind hy

theorem after {y : α → Action β} (hx : Acts device view x f)
    (hy : ∀ a, Acts device view (y a) id) : Acts device view (x >>= y) f := hx.bind hy

theorem congr (hx : Acts device view x f) (h : ∀ v, f v = g v) : Acts device view x g :=
  fun j => (hx j).trans (h _)

theorem note (n : Notice) : Acts device view (note n) id := fun _ => rfl

theorem emit {e : Event} (h : ∀ t, view (e :: t) = f (view t)) : Acts device view (emit e) f :=
  fun j => h j.events

theorem when {c : Prop} [Decidable c] {x : Action Unit} (hx : c → Acts device view x f) :
    Acts device view (when c x) (if c then f else id) := by
  by_cases hc : c
  · simpa [hc] using hx hc
  · simpa [hc] using pure ()

theorem when_id {c : Prop} [Decidable c] {x : Action Unit} (hx : c → Acts device view x id) :
    Acts device view (Bus.when c x) id :=
  (when hx).congr fun _ => by split <;> rfl

theorem of_emits {φ : Event → Prop} (hx : Emits φ x) (h : ∀ e, φ e → Hidden view e) :
    Acts device view x id := by
  intro j
  obtain ⟨es, hes, hφ⟩ := hx device j
  rw [hes, view_append j.events fun e he => h e (hφ e he), id]

end Acts

end LowPower.Bus

import LowPower.Proofs.Bus.Emission
import LowPower.Proofs.Register.Name
import Mathlib.Computability.Language
import Mathlib.Order.CompletePartialOrder

/-!
In which order actions use the bus. A script holds the words of events which an action may go
through, in the order in which they happen, and the script of a sequence of actions is the product
of the scripts of its parts.
-/

namespace LowPower.Bus

variable {α β γ : Type}

def Event.IsWithin (map : Register.Map) (rs : List Register.Name) : Event → Prop
  | .read .. => True
  | .write a _ => ∃ r ∈ rs, a = map.at r
  | _ => False

def Event.IsRaise : Event → Prop
  | .raise _ => True
  | _ => False

def Event.writtenTo? (a : Address) : Event → Option Word
  | .write b x => if b = a then some x else none
  | _ => none

theorem Event.writtenTo?_at {map : Register.Map} (distinct : map.Distinct) (r s : Register.Name)
    (x : Word) :
    (Event.write (map.at s) x).writtenTo? (map.at r) = if s = r then some x else none := by
  simp only [writtenTo?, distinct.at_eq_iff]

theorem Event.writtenTo?_of_isRead {a : Address} {e : Event} (h : e.IsRead) :
    e.writtenTo? a = none := by
  cases e with
  | read => rfl
  | _ => exact h.elim

abbrev Script := Language Event

namespace Script

def only (φ : Event → Prop) : Script := {es | ∀ e ∈ es, φ e}

def within (map : Register.Map) (rs : List Register.Name) : Script := only (Event.IsWithin map rs)

def load (a : Address) : Script := {es | ∃ x, es = [.read a x]}

def store (a : Address) (x : Word) : Script := {[.write a x]}

def given (c : Prop) [Decidable c] (s : Script) : Script := if c then s else 1

def reading (a : Address) (s : Word → Script) : Script := {es | ∃ x, es ∈ {[.read a x]} * s x}

def modify (a : Address) (f : Word → Word) : Script := {es | ∃ x, es = [.read a x, .write a (f x)]}

@[simp] theorem given_pos {c : Prop} [Decidable c] (h : c) (s : Script) : given c s = s := if_pos h

@[simp] theorem given_neg {c : Prop} [Decidable c] (h : ¬ c) (s : Script) : given c s = 1 :=
  if_neg h

section

variable {φ : Event → Prop} {s t : Script}

theorem mem_only {es : List Event} : es ∈ only φ ↔ ∀ e ∈ es, φ e := Iff.rfl

theorem one_le_only : 1 ≤ only φ := by
  intro es hes e he
  rw [(Language.mem_one es).mp hes] at he
  cases he

theorem mul_le_only (hs : s ≤ only φ) (ht : t ≤ only φ) : s * t ≤ only φ := by
  intro es hes e he
  obtain ⟨fs, hfs, gs, hgs, rfl⟩ := Language.mem_mul.mp hes
  rcases List.mem_append.mp he with he | he
  · exact hs hfs e he
  · exact ht hgs e he

theorem given_le_only {c : Prop} [Decidable c] (h : c → s ≤ only φ) : given c s ≤ only φ := by
  by_cases hc : c
  · simpa [hc] using h hc
  · simpa [hc] using one_le_only

theorem single_le_only {es : List Event} (h : ∀ e ∈ es, φ e) : ({es} : Script) ≤ only φ := by
  rintro _ rfl
  exact h

theorem modify_le_only {a : Address} {f : Word → Word} (hread : ∀ x, φ (.read a x))
    (hwrite : ∀ x, φ (.write a x)) : modify a f ≤ only φ := by
  rintro _ ⟨x, rfl⟩
  exact mem_only.mpr (by simp [hread, hwrite])

theorem within_mono {map : Register.Map} {rs rs' : List Register.Name} (h : rs ⊆ rs') :
    within map rs ≤ within map rs' := by
  intro es hes e he
  have := hes e he
  cases e with
  | read => trivial
  | write a x =>
    obtain ⟨r, hr, ha⟩ := this
    exact ⟨r, h hr, ha⟩
  | _ => exact this

theorem store_le_within {map : Register.Map} {rs : List Register.Name} (r : Register.Name)
    (h : r ∈ rs) (x : Word) : store (map.at r) x ≤ within map rs :=
  single_le_only (List.forall_mem_singleton.mpr ⟨r, h, rfl⟩)

theorem modify_le_within {map : Register.Map} {rs : List Register.Name} (r : Register.Name)
    (h : r ∈ rs) (f : Word → Word) : modify (map.at r) f ≤ within map rs :=
  modify_le_only (fun _ => trivial) fun _ => ⟨r, h, rfl⟩

theorem reads_le_within {map : Register.Map} {rs : List Register.Name} :
    only Event.IsRead ≤ within map rs := by
  intro es hes e he
  have := hes e he
  cases e with
  | read => trivial
  | _ => exact this.elim

theorem load_le_only {a : Address} (h : ∀ x, φ (.read a x)) : load a ≤ only φ := by
  rintro _ ⟨x, rfl⟩
  exact List.forall_mem_singleton.mpr (h x)

theorem reading_le_only {a : Address} {s : Word → Script} (hread : ∀ x, φ (.read a x))
    (hs : ∀ x, s x ≤ only φ) : reading a s ≤ only φ := by
  rintro es ⟨x, hes⟩
  exact mul_le_only (single_le_only (List.forall_mem_singleton.mpr (hread x))) (hs x) hes

end

end Script

/-- An action goes through a word of the script for its result. -/
def Follows (x : Action α) (s : α → Script) : Prop :=
  ∀ device j, ∃ es ∈ s (x device j).1, (x device j).2.events = es.reverse ++ j.events

namespace Follows

variable {x : Action α} {f : α → Action β} {s : α → Script}

theorem mono {t : α → Script} (h : Follows x s) (hle : ∀ a, s a ≤ t a) : Follows x t := by
  intro device j
  obtain ⟨es, hes, hevents⟩ := h device j
  exact ⟨es, hle _ hes, hevents⟩

theorem bind {t : α → β → Script} (hx : Follows x s) (hf : ∀ a, Follows (f a) (t a)) :
    Follows (x >>= f) fun b => {es | ∃ a, es ∈ s a * t a b} := by
  intro device j
  obtain ⟨es, hes, hx⟩ := hx device j
  obtain ⟨fs, hfs, hf⟩ := hf (x device j).1 device (x device j).2
  refine ⟨es ++ fs, ⟨(x device j).1, Language.append_mem_mul hes hfs⟩, ?_⟩
  rw [bind_apply, hf, hx, List.reverse_append, List.append_assoc]

theorem seq {s : Script} {t : β → Script} (hx : Follows x fun _ => s)
    (hf : ∀ a, Follows (f a) t) : Follows (x >>= f) fun b => s * t b :=
  (hx.bind hf).mono fun _ _ ⟨_, h⟩ => h

theorem last {s : Script} (hx : Follows x fun _ => s) (hf : ∀ a, Follows (f a) fun _ => 1) :
    Follows (x >>= f) fun _ => s :=
  (hx.seq hf).mono fun _ => (mul_one s).le

theorem after {t : β → Script} (hx : Follows x fun _ => 1) (hf : ∀ a, Follows (f a) t) :
    Follows (x >>= f) t :=
  (hx.seq hf).mono fun b => (one_mul (t b)).le

theorem pure (a : α) : Follows (Pure.pure a : Action α) fun b => {es | b = a ∧ es = []} :=
  fun _ _ => ⟨[], ⟨rfl, rfl⟩, rfl⟩

theorem done (a : α) : Follows (Pure.pure a : Action α) fun _ => 1 :=
  (pure a).mono fun _ _ h => h.2

theorem note (n : Notice) : Follows (note n) fun _ => 1 := fun _ _ => ⟨[], rfl, rfl⟩

theorem emit (e : Event) : Follows (emit e) fun _ => {[e]} := fun _ _ => ⟨[e], rfl, rfl⟩

theorem write (a : Address) (w : Word) : Follows (write a w) fun _ => .store a w := emit _

theorem read (a : Address) : Follows (read a) fun w => {[.read a w]} :=
  fun device j => ⟨[.read a (device j.events a)], rfl, rfl⟩

theorem load (a : Address) : Follows (Bus.read a) fun _ => .load a :=
  (read a).mono fun w _ hes => ⟨w, hes⟩

theorem reading {a : Address} {f : Word → Action β} {t : Word → Script}
    (hf : ∀ x, Follows (f x) fun _ => t x) :
    Follows (Bus.read a >>= f) fun _ => .reading a t :=
  (read a).bind hf

theorem modify (a : Address) (g : Word → Word) :
    Follows (do Bus.write a (g (← Bus.read a))) fun _ => .modify a g := by
  refine ((read a).bind fun w => write a (g w)).mono ?_
  rintro _ es ⟨w, hes⟩
  obtain ⟨_, rfl, _, rfl, rfl⟩ := Language.mem_mul.mp hes
  exact ⟨w, rfl⟩

theorem when {c : Prop} [Decidable c] {x : Action Unit} {s : Script}
    (h : c → Follows x fun _ => s) : Follows (when c x) fun _ => .given c s := by
  by_cases hc : c
  · simpa [hc] using h hc
  · simpa [hc] using done ()

theorem of_emits {φ : Event → Prop} (h : Emits φ x) : Follows x fun _ => .only φ := by
  intro device j
  obtain ⟨new, hnew, hφ⟩ := h device j
  refine ⟨new.reverse, fun e he => hφ e (List.mem_reverse.mp he), ?_⟩
  rw [hnew, List.reverse_reverse]

theorem events {i j : Journal} {device : Device} {a : α} (hx : Follows x s)
    (h : x device i = (a, j)) : ∃ es ∈ s a, j.events = es.reverse ++ i.events := by
  have := hx device i
  rwa [h] at this

end Follows

def shown (f : Event → Option γ) (h : History) : List γ := h.reverse.filterMap f

theorem shown_append (f : Event → Option γ) (es : List Event) (h : History) :
    shown f (es.reverse ++ h) = shown f h ++ es.filterMap f := by
  rw [shown, List.reverse_append, List.reverse_reverse, List.filterMap_append, shown]

def Script.Shows (f : Event → Option γ) (s : Script) (shown : List γ) : Prop :=
  ∀ es ∈ s, es.filterMap f = shown

namespace Script.Shows

variable {f : Event → Option γ} {s t : Script} {v w : List γ}

theorem mono (h : Shows f t v) (hle : s ≤ t) : Shows f s v := fun es hes => h es (hle hes)

theorem mul (hs : Shows f s v) (ht : Shows f t w) : Shows f (s * t) (v ++ w) := by
  intro es hes
  obtain ⟨fs, hfs, gs, hgs, rfl⟩ := Language.mem_mul.mp hes
  rw [List.filterMap_append, hs fs hfs, ht gs hgs]

theorem one : Shows f 1 [] := by
  rintro _ rfl
  rfl

theorem only {φ : Event → Prop} (h : ∀ e, φ e → f e = none) : Shows f (only φ) [] :=
  fun _ hes => List.filterMap_eq_nil_iff.mpr fun e he => h e (hes e he)

theorem within {map : Register.Map} {rs : List Register.Name}
    (hread : ∀ a x, f (.read a x) = none)
    (hwrite : ∀ r ∈ rs, ∀ x, f (.write (map.at r) x) = none) : Shows f (within map rs) [] := by
  refine only fun e he => ?_
  cases e with
  | read a x => exact hread a x
  | write a x =>
    obtain ⟨r, hr, rfl⟩ := he
    exact hwrite r hr x
  | _ => exact he.elim

theorem given {c : Prop} [Decidable c] (h : c → Shows f s v) :
    Shows f (given c s) (if c then v else []) := by
  by_cases hc : c
  · simpa [hc] using h hc
  · simpa [hc] using one

theorem given_nil {c : Prop} [Decidable c] (h : c → Shows f s []) :
    Shows f (Script.given c s) [] := by
  simpa using given h

theorem reads (a : Address) : Shows (Event.writtenTo? a) (Script.only Event.IsRead) [] :=
  only fun _ => Event.writtenTo?_of_isRead

variable {map : Register.Map}

theorem store_at (distinct : map.Distinct) (r s : Register.Name) (x : Word) :
    Shows (Event.writtenTo? (map.at r)) (store (map.at s) x) (if s = r then [x] else []) := by
  rintro _ rfl
  by_cases h : s = r
  · simp [Event.writtenTo?_at distinct, h]
  · simp [Event.writtenTo?_at distinct, h]

theorem unwritten {r : Register.Name} (distinct : map.Distinct) (rs : List Register.Name)
    (hle : s ≤ Script.within map rs) (h : r ∉ rs) :
    Shows (Event.writtenTo? (map.at r)) s [] := by
  refine (within (fun _ _ => rfl) fun q hq x => ?_).mono hle
  rw [Event.writtenTo?_at distinct, if_neg]
  rintro rfl
  exact h hq

end Script.Shows

end LowPower.Bus

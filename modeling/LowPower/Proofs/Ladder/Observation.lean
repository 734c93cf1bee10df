import LowPower.Ladder
import Mathlib.Data.List.Forall2

namespace LowPower

/-- Whether a request or a query to a target reaches the constraint in a place. -/
def Target.includes (n : Nat) : Target → Bool
  | .all => true
  | .index i => i = n

namespace Ladder

variable {γ : Type} {f : Constraint → γ} {n i : Nat} {l : Ladder} {c c' : Constraint}
  {target : Target} {request : Constraint.Request} {query : Constraint.Query} {clear : Bool}
  {shape : Clock.Shape}

def observe (f : Constraint → γ) (n : Nat) (l : Ladder) : Option γ := (l.constraints[n]?).map f

theorem observe_set (hc : l.constraints[i]? = some c) :
    observe f n { l with constraints := l.constraints.set i c' } =
      if i = n then some (f c') else observe f n l := by
  obtain ⟨hi, -⟩ := List.getElem?_eq_some_iff.mp hc
  by_cases h : i = n
  · subst h
    simp [observe, hi]
  · simp [observe, h]

theorem observe_set_of_eq (hc : l.constraints[i]? = some c) (h : f c' = f c) :
    observe f n { l with constraints := l.constraints.set i c' } = observe f n l := by
  rw [observe_set hc]
  split
  · next heq => rw [← heq, observe, hc, h, Option.map_some]
  · rfl

theorem observe_map {g : Constraint → Constraint} {h : γ → γ} (hf : ∀ c, f (g c) = h (f c))
    (n : Nat) (l : Ladder) :
    observe f n { l with constraints := l.constraints.map g } = (l.observe f n).map h := by
  rw [observe, observe, List.getElem?_map, Option.map_map, Option.map_map]
  exact congrArg (Option.map · _) (funext hf)

def mapWhere (p : Nat → Bool) (f : Constraint → Constraint) (l : Ladder) : Ladder :=
  { l with constraints := l.constraints.mapIdx fun n c => if p n then f c else c }

section

variable {p q : Nat → Bool} {f : Constraint → Constraint}

@[simp] theorem getElem?_mapWhere (n : Nat) : (l.mapWhere p f).constraints[n]? =
    (l.constraints[n]?).map fun c => if p n then f c else c :=
  List.getElem?_mapIdx

@[simp] theorem length_mapWhere : (l.mapWhere p f).length = l.length := List.length_mapIdx

theorem ext_getElem? {m : Ladder} (h : ∀ n : Nat, l.constraints[n]? = m.constraints[n]?)
    (hshape : l.shape = m.shape) (hregistered : l.registered = m.registered) : l = m := by
  obtain ⟨cs, shape, registered⟩ := l
  obtain ⟨ds, shape', registered'⟩ := m
  obtain rfl : cs = ds := List.ext_getElem? h
  cases hshape
  cases hregistered
  rfl

theorem mapWhere_congr (h : ∀ n < l.length, p n = q n) : l.mapWhere p f = l.mapWhere q f := by
  refine ext_getElem? (fun n => ?_) rfl rfl
  rw [getElem?_mapWhere, getElem?_mapWhere]
  by_cases hn : n < l.length
  · rw [h n hn]
  · rw [List.getElem?_eq_none (show l.constraints.length ≤ n from Nat.not_lt.mp hn)]
    rfl

theorem mapWhere_true : l.mapWhere (fun _ => true) f =
    { l with constraints := l.constraints.map f } := by
  refine ext_getElem? (fun n => ?_) rfl rfl
  rw [getElem?_mapWhere, List.getElem?_map]
  rfl

theorem mapWhere_false : l.mapWhere (fun _ => false) f = l := by
  refine ext_getElem? (fun n => ?_) rfl rfl
  rw [getElem?_mapWhere]
  exact Option.map_id_apply ..

theorem mapWhere_id : l.mapWhere p id = l := by
  refine ext_getElem? (fun n => ?_) rfl rfl
  rw [getElem?_mapWhere]
  simp

theorem mapWhere_eq_set (hc : l.constraints[i]? = some c) :
    l.mapWhere (i = ·) f = { l with constraints := l.constraints.set i (f c) } := by
  obtain ⟨hi, rfl⟩ := List.getElem?_eq_some_iff.mp hc
  refine ext_getElem? (fun n => ?_) rfl rfl
  rw [getElem?_mapWhere, List.getElem?_set]
  by_cases hn : i = n
  · subst hn
    simp [hi]
  · simp [hn]

theorem mapWhere_mapWhere (apart : ∀ n, p n = true → q n = false) :
    (l.mapWhere p f).mapWhere q f = l.mapWhere (fun n => p n || q n) f := by
  refine ext_getElem? (fun n => ?_) rfl rfl
  rw [getElem?_mapWhere, getElem?_mapWhere, getElem?_mapWhere, Option.map_map]
  congr 1
  funext c
  cases hp : p n with
  | true => simp [apart n hp]
  | false => simp

end

theorem observe_check {live : Clock.Table} (h : ∀ c, f (c.check live) = f c) :
    observe f n (l.check live) = observe f n l :=
  (observe_map (h := id) h n l).trans (Option.map_id_apply ..)

theorem getElem?_applyAll (h : ∀ c c', c.apply shape request = .ok c' → f c' = f c)
    (cs : List Constraint) (n : Nat) :
    ((applyAll shape request cs).2[n]?).map f = (cs[n]?).map f := by
  induction cs generalizing n with
  | nil => rfl
  | cons c cs ih =>
    rw [applyAll]
    split
    · rfl
    · next c' hc =>
      cases n with
      | zero => exact congrArg some (h c c' hc)
      | succ n => exact ih n

theorem observe_apply (h : ∀ c c', c.apply l.shape request = .ok c' → f c' = f c) :
    observe f n (l.apply target request).2 = observe f n l := by
  cases target with
  | all => exact getElem?_applyAll h l.constraints n
  | index i =>
    simp only [apply]
    split
    · rfl
    · next c hc =>
      split
      · rfl
      · next c' hok => exact observe_set_of_eq hc (h c c' hok)

theorem observe_apply_of_excluded (h : target.includes n = false) :
    observe f n (l.apply target request).2 = observe f n l := by
  cases target with
  | all => cases h
  | index i =>
    have hne : i ≠ n := of_decide_eq_false h
    simp only [apply]
    split
    · rfl
    · next c hc =>
      split
      · rfl
      · rw [observe_set hc, if_neg hne]

theorem getElem?_readAll (h : ∀ c : Constraint, clear = true → query = .residency →
      f c.clearResidency = f c) (reading : Constraint.Reading) (cs : List Constraint) (n : Nat) :
    ((readAll query clear reading cs).2[n]?).map f = (cs[n]?).map f := by
  induction cs generalizing reading n with
  | nil => rfl
  | cons c cs ih =>
    rw [readAll]
    split
    · rfl
    · next reading' _ =>
      cases n with
      | zero =>
        refine congrArg some ?_
        split
        · next hclears => exact h c hclears.1 hclears.2
        · rfl
      | succ n => exact ih reading' n

theorem observe_read (h : ∀ c : Constraint, clear = true → query = .residency →
      f c.clearResidency = f c) :
    observe f n (l.read target query clear).2 = observe f n l := by
  cases target with
  | all => exact getElem?_readAll h (.zero query) l.constraints n
  | index i =>
    simp only [read]
    split
    · rfl
    · next c hc =>
      refine observe_set_of_eq hc ?_
      have hread := getElem?_readAll h (.zero query) [c] 0
      cases hcs : (readAll query clear (.zero query) [c]).2 with
      | nil => rfl
      | cons d ds =>
        rw [hcs] at hread
        exact Option.some.inj hread

theorem observe_read_of_excluded (h : target.includes n = false) :
    observe f n (l.read target query clear).2 = observe f n l := by
  cases target with
  | all => cases h
  | index i =>
    have hne : i ≠ n := of_decide_eq_false h
    simp only [read]
    split
    · rfl
    · next c hc => rw [observe_set hc, if_neg hne]

section

variable {R : Constraint → Constraint → Prop}

theorem forall₂_applyAll (refl : ∀ c, R c c)
    (h : ∀ c c', c.apply shape request = .ok c' → R c c') (cs : List Constraint) :
    List.Forall₂ R cs (applyAll shape request cs).2 := by
  induction cs with
  | nil => exact .nil
  | cons c cs ih =>
    rw [applyAll]
    split
    next => exact List.forall₂_same.mpr fun c _ => refl c
    next c' hc => exact .cons (h c c' hc) ih

theorem forall₂_set {i : Nat} {c c' : Constraint} (refl : ∀ c, R c c) (hc : cs[i]? = some c)
    (h : R c c') : List.Forall₂ R cs (cs.set i c') := by
  induction cs generalizing i with
  | nil => exact .nil
  | cons d cs ih =>
    cases i with
    | zero =>
      cases hc
      exact .cons h (List.forall₂_same.mpr fun c _ => refl c)
    | succ i => exact .cons (refl d) (ih hc)

theorem forall₂_apply (refl : ∀ c, R c c)
    (h : ∀ c c', c.apply l.shape request = .ok c' → R c c') :
    List.Forall₂ R l.constraints (l.apply target request).2.constraints := by
  cases target with
  | all => exact forall₂_applyAll refl h l.constraints
  | index i =>
    simp only [apply]
    split
    · exact List.forall₂_same.mpr fun c _ => refl c
    · next c hc =>
      split
      · exact List.forall₂_same.mpr fun c _ => refl c
      · next c' hok => exact forall₂_set refl hc (h c c' hok)

end

end Ladder

end LowPower

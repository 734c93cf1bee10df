import LowPower.Proofs.Ladder.Observation
import Mathlib.Algebra.BigOperators.Fin

namespace LowPower

namespace Constraint

variable {c c' : Constraint} {shape : Clock.Shape} {request : Request}

theorem accounts_apply (h : c.apply shape request = .ok c') :
    c'.status.entries = c.status.entries ∧
      (request ≠ .clearResidency → c'.status.residency = c.status.residency) := by
  cases request with
  | clearResidency =>
    cases h
    exact ⟨rfl, fun hne => absurd rfl hne⟩
  | editForbidden entry value on =>
    simp only [apply] at h
    split at h
    · cases h
    · cases h
    · cases h
      exact ⟨rfl, fun _ => rfl⟩
  | flightMode on =>
    cases h
    rw [putMemoryFlag]
    split
    · exact ⟨rfl, fun _ => rfl⟩
    · exact ⟨rfl, fun _ => rfl⟩
  | storageClockOff on =>
    cases h
    rw [putMemoryFlag]
    split
    · exact ⟨rfl, fun _ => rfl⟩
    · exact ⟨rfl, fun _ => rfl⟩
  | redeliver interrupts =>
    cases h
    split
    · exact ⟨rfl, fun _ => rfl⟩
    · exact ⟨rfl, fun _ => rfl⟩
  | _ =>
    cases h
    exact ⟨rfl, fun _ => rfl⟩

end Constraint

namespace Ladder

variable {n i : Nat} {l : Ladder} {c c' : Constraint} {target : Target}
  {request : Constraint.Request} {query : Constraint.Query} {clear : Bool} {shape : Clock.Shape}

def residency (n : Nat) (l : Ladder) : Nat := (observe (·.status.residency.toNat) n l).getD 0

def entries (n : Nat) (l : Ladder) : Word := (observe (·.status.entries) n l).getD 0#32

theorem residency_set (hc : l.constraints[i]? = some c) (c' : Constraint) :
    ({ l with constraints := l.constraints.set i c' } : Ladder).residency n =
      if i = n then c'.status.residency.toNat else l.residency n := by
  rw [residency, observe_set hc]
  split
  · rfl
  · rfl

theorem entries_set (hc : l.constraints[i]? = some c) (c' : Constraint) :
    ({ l with constraints := l.constraints.set i c' } : Ladder).entries n =
      if i = n then c'.status.entries else l.entries n := by
  rw [entries, observe_set hc]
  split
  · rfl
  · rfl

theorem residency_of_getElem? (hc : l.constraints[n]? = some c) :
    l.residency n = c.status.residency.toNat := by
  rw [residency, observe, hc]
  rfl

theorem entries_of_getElem? (hc : l.constraints[n]? = some c) :
    l.entries n = c.status.entries := by
  rw [entries, observe, hc]
  rfl

theorem residency_congr {m : Ladder} (h : observe (·.status.residency.toNat) n m =
    observe (·.status.residency.toNat) n l) : m.residency n = l.residency n :=
  congrArg (fun o : Option Nat => o.getD 0) h

theorem entries_congr {m : Ladder} (h : observe (·.status.entries) n m =
    observe (·.status.entries) n l) : m.entries n = l.entries n :=
  congrArg (fun o : Option Word => o.getD 0#32) h

@[simp] theorem residency_check (live : Clock.Table) (l : Ladder) :
    (l.check live).residency n = l.residency n :=
  residency_congr (observe_check fun _ => rfl)

@[simp] theorem entries_check (live : Clock.Table) (l : Ladder) :
    (l.check live).entries n = l.entries n :=
  entries_congr (observe_check fun _ => rfl)

@[simp] theorem entries_apply : (l.apply target request).2.entries n = l.entries n :=
  entries_congr (observe_apply fun _ _ h => (Constraint.accounts_apply h).1)

@[simp] theorem entries_read : (l.read target query clear).2.entries n = l.entries n :=
  entries_congr (observe_read fun _ _ _ => rfl)

theorem residency_apply (h : ¬ (request = .clearResidency ∧ target.includes n = true)) :
    (l.apply target request).2.residency n = l.residency n := by
  apply residency_congr
  by_cases hr : request = .clearResidency
  · exact observe_apply_of_excluded (Bool.eq_false_iff.mpr fun hn => h ⟨hr, hn⟩)
  · exact observe_apply fun _ _ hc => congrArg BitVec.toNat ((Constraint.accounts_apply hc).2 hr)

theorem residency_read
    (h : ¬ (query = .residency ∧ clear = true ∧ target.includes n = true)) :
    (l.read target query clear).2.residency n = l.residency n := by
  apply residency_congr
  by_cases hn : target.includes n = true
  · exact observe_read fun _ hclear hquery => absurd ⟨hquery, hclear, hn⟩ h
  · exact observe_read_of_excluded (Bool.eq_false_iff.mpr hn)

theorem applyAll_eq_ok {f : Constraint → Constraint}
    (h : ∀ c, Constraint.apply shape c request = .ok (f c)) (cs : List Constraint) :
    applyAll shape request cs = (.ok (), cs.map f) := by
  induction cs with
  | nil => rfl
  | cons c cs ih => simp [applyAll, h, ih]

theorem residency_clearAll (n : Nat) (l : Ladder) :
    ({ l with constraints := l.constraints.map Constraint.clearResidency } : Ladder).residency n =
      0 := by
  simp only [residency, observe, List.getElem?_map, Option.map_map]
  cases l.constraints[n]? with
  | none => rfl
  | some c => rfl

theorem residency_clear (l : Ladder) (h : target.includes n = true) :
    (l.apply target .clearResidency).2.residency n = 0 := by
  cases target with
  | all =>
    have clears (c : Constraint) : c.apply l.shape .clearResidency = .ok c.clearResidency := rfl
    simp only [apply, applyAll_eq_ok clears]
    exact residency_clearAll n l
  | index i =>
    obtain rfl : i = n := of_decide_eq_true h
    simp only [apply]
    split
    · next hnone => simp [residency, observe, hnone]
    · next c hc =>
      change ({ l with
        constraints := l.constraints.set i c.clearResidency } : Ladder).residency i = 0
      rw [residency_set hc _, if_pos rfl]
      rfl

theorem readAll_residency {ticks : Word64} {reading : Constraint.Reading}
    {cs cs' : List Constraint}
    (h : readAll .residency true (.residency ticks) cs = (.ok reading, cs')) :
    cs' = cs.map Constraint.clearResidency ∧
      reading.value.toNat = ticks.toNat + (cs.map (·.status.residency.toNat)).sum := by
  induction cs generalizing ticks cs' with
  | nil =>
    cases h
    exact ⟨rfl, rfl⟩
  | cons c cs ih =>
    rw [readAll, Constraint.Reading.add, Constraint.Reading.addCounts] at h
    by_cases hover : ticks.uaddOverflow c.status.residency = true
    · rw [if_pos hover] at h
      cases h
    · rw [if_neg hover] at h
      cases hrest : readAll .residency true (.residency (ticks + c.status.residency)) cs with
      | mk result rest =>
        simp only [Except.map, hrest] at h
        cases h
        obtain ⟨rfl, hvalue⟩ := ih hrest
        refine ⟨rfl, ?_⟩
        rw [hvalue, BitVec.toNat_add_of_not_uaddOverflow hover, List.map_cons, List.sum_cons,
          Nat.add_assoc]

theorem sum_residency (l : Ladder) : ∑ k ∈ Finset.range l.length, l.residency k =
    (l.constraints.map (·.status.residency.toNat)).sum := by
  rw [Finset.sum_range, ← Fin.sum_univ_fun_getElem]
  refine Finset.sum_congr rfl fun k _ => residency_of_getElem? ?_
  exact List.getElem?_eq_getElem k.isLt

theorem read_residency {reading : Constraint.Reading}
    (h : (l.read target .residency true).1 = .ok reading) :
    (∀ n, target.includes n = true → (l.read target .residency true).2.residency n = 0) ∧
      reading.value.toNat =
        ∑ k ∈ Finset.range l.length, if target.includes k then l.residency k else 0 := by
  cases target with
  | all =>
    cases hread : readAll .residency true (.residency 0#64) l.constraints with
    | mk result cs =>
      simp only [read, Constraint.Reading.zero, hread] at h ⊢
      cases result with
      | error fault => cases h
      | ok reading' =>
        cases h
        obtain ⟨rfl, hvalue⟩ := readAll_residency hread
        refine ⟨fun n _ => residency_clearAll n l, ?_⟩
        rw [hvalue, ← sum_residency]
        simp [Target.includes]
  | index i =>
    cases hc : l.constraints[i]? with
    | none => simp [read, hc] at h
    | some c =>
      have hi : i < l.length := (List.getElem?_eq_some_iff.mp hc).1
      cases hread : readAll .residency true (.residency 0#64) [c] with
      | mk result cs =>
        simp only [read, Constraint.Reading.zero, hc, hread] at h ⊢
        cases result with
        | error fault => cases h
        | ok reading' =>
          cases h
          obtain ⟨rfl, hvalue⟩ := readAll_residency hread
          refine ⟨fun n hn => ?_, ?_⟩
          · obtain rfl : i = n := of_decide_eq_true hn
            rw [residency_set hc _, if_pos rfl]
            rfl
          · rw [hvalue]
            simp [Target.includes, hi, residency_of_getElem? hc]

theorem read_refused {refusal : Refusal}
    (h : (l.read target query clear).1 = .error (.refused refusal)) :
    (l.read target query clear).2 = l ∧ ∀ n, target.includes n = true → l.residency n = 0 := by
  cases target with
  | all =>
    simp only [read] at h
    cases hread : (readAll query clear (.zero query) l.constraints).1 with
    | ok reading => rw [hread] at h; cases h
    | error fault => rw [hread] at h; cases h
  | index i =>
    cases hc : l.constraints[i]? with
    | none =>
      refine ⟨by simp [read, hc], fun n hn => ?_⟩
      obtain rfl : i = n := of_decide_eq_true hn
      simp [residency, observe, hc]
    | some c =>
      simp only [read, hc] at h
      cases hread : (readAll query clear (.zero query) [c]).1 with
      | ok reading => rw [hread] at h; cases h
      | error fault => rw [hread] at h; cases h

end Ladder

end LowPower

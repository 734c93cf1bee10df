import LowPower.Ladder
import LowPower.Proofs.Clock.Report
import LowPower.Proofs.Votes
import Mathlib.Data.Set.Basic
import Mathlib.Order.Nat

namespace LowPower

namespace Constraint

structure Enterable (clocks : Clock.Table) (votes : Votes) (c : Constraint) : Prop where
  software : c.status.flags.contains ConstraintFlags.software = true
  firmware : c.status.flags.contains ConstraintFlags.firmware = true
  unblocked : c.status.flags.contains ConstraintFlags.checkClocks = false ∨
    clocks.Disjoint c.forbidden
  kept : ∀ r, votes.count r ≠ 0 → c.keeps.contains r.toSet = true

theorem eligible_check_iff (clocks : Clock.Table) (c : Constraint) :
    (c.check clocks).eligible = true ↔
      c.status.flags.contains ConstraintFlags.software = true ∧
      c.status.flags.contains ConstraintFlags.firmware = true ∧
      (c.status.flags.contains ConstraintFlags.checkClocks = false ∨
        clocks.Disjoint c.forbidden) := by
  have hready : c.status.flags.isReady = true ↔ _ :=
    Flags.contains_union c.status.flags ConstraintFlags.software ConstraintFlags.firmware
  have hblocked := Clock.Table.blockedBy_eq_zero_iff clocks c.forbidden
  change (c.status.flags.isReady && !(clocks.blockedBy c.forbidden != 0#32 &&
    c.status.flags.contains ConstraintFlags.checkClocks)) = true ↔ _
  rw [Bool.and_eq_true, hready, and_assoc, ← hblocked]
  cases c.status.flags.contains ConstraintFlags.checkClocks <;> simp

theorem accepts_check_iff (clocks : Clock.Table) (votes : Votes) (c : Constraint) :
    Ladder.accepts votes.required (c.check clocks) = true ↔ c.Enterable clocks votes := by
  rw [Ladder.accepts, Bool.and_eq_true, eligible_check_iff]
  change _ ∧ c.keeps.contains votes.required = true ↔ _
  rw [Votes.contains_required]
  exact ⟨fun ⟨⟨hs, hf, hc⟩, hk⟩ => ⟨hs, hf, hc, hk⟩, fun h => ⟨⟨h.1, h.2, h.3⟩, h.4⟩⟩

end Constraint

namespace Ladder

def enterable (clocks : Clock.Table) (votes : Votes) (start : Nat) (l : Ladder) : Set Nat :=
  {i | start ≤ i ∧ ∃ c, l.constraints[i]? = some c ∧ c.Enterable clocks votes}

theorem select?_eq_some_iff (start i : Nat) (required : ResourceSet) (l : Ladder) :
    l.select? start required = some i ↔
      IsLeast {k | start ≤ k ∧ ∃ c, l.constraints[k]? = some c ∧ accepts required c = true} i := by
  -- The search runs through what is left after `start` places are dropped.
  rw [select?, Option.map_eq_some_iff]
  constructor
  · rintro ⟨n, hn, rfl⟩
    obtain ⟨hlt, hacc, hbefore⟩ := List.findIdx?_eq_some_iff_getElem.mp hn
    constructor
    · refine ⟨Nat.le_add_right start n, _, ?_, hacc⟩
      rw [← List.getElem?_drop]
      exact List.getElem?_eq_getElem hlt
    · rintro k ⟨hk, c, hc, hcacc⟩
      apply Nat.le_of_not_lt
      intro hkn
      have hlt' : k - start < n := by omega
      apply hbefore (k - start) hlt'
      have : (l.constraints.drop start)[k - start]? = some c := by
        rw [List.getElem?_drop, Nat.add_sub_cancel' hk, hc]
      obtain ⟨_, hget⟩ := List.getElem?_eq_some_iff.mp this
      rw [hget]
      exact hcacc
  · rintro ⟨⟨hi, c, hc, hacc⟩, hleast⟩
    have hget : (l.constraints.drop start)[i - start]? = some c := by
      rw [List.getElem?_drop, Nat.add_sub_cancel' hi, hc]
    obtain ⟨hlt, hget⟩ := List.getElem?_eq_some_iff.mp hget
    refine ⟨i - start, List.findIdx?_eq_some_iff_getElem.mpr ⟨hlt, ?_, ?_⟩,
      Nat.add_sub_cancel' hi⟩
    · rw [hget]
      exact hacc
    · intro k hk hkacc
      have hmem := hleast (a := start + k) ⟨Nat.le_add_right start k, _, by
        rw [← List.getElem?_drop]
        exact List.getElem?_eq_getElem (Nat.lt_trans hk hlt), hkacc⟩
      omega

theorem select?_check_eq_some_iff (clocks : Clock.Table) (votes : Votes) (start i : Nat)
    (l : Ladder) : (l.check clocks).select? start votes.required = some i ↔
      IsLeast (l.enterable clocks votes start) i := by
  rw [select?_eq_some_iff]
  have : {k | start ≤ k ∧ ∃ c, (l.check clocks).constraints[k]? = some c ∧
      accepts votes.required c = true} = l.enterable clocks votes start := by
    ext k
    change _ ∧ (∃ c, (l.constraints.map (·.check clocks))[k]? = some c ∧ _) ↔
      _ ∧ ∃ c, l.constraints[k]? = some c ∧ _
    simp only [List.getElem?_map, Option.map_eq_some_iff]
    constructor
    · rintro ⟨hk, _, ⟨c, hc, rfl⟩, hacc⟩
      exact ⟨hk, c, hc, (Constraint.accepts_check_iff clocks votes c).mp hacc⟩
    · rintro ⟨hk, c, hc, hent⟩
      exact ⟨hk, _, ⟨c, hc, rfl⟩, (Constraint.accepts_check_iff clocks votes c).mpr hent⟩
  rw [this]

theorem select?_check_eq_none_iff (clocks : Clock.Table) (votes : Votes) (start : Nat)
    (l : Ladder) : (l.check clocks).select? start votes.required = none ↔
      l.enterable clocks votes start = ∅ := by
  classical
  constructor
  · intro h
    rw [Set.eq_empty_iff_forall_notMem]
    intro i hi
    have hleast := Nat.isLeast_find ⟨i, hi⟩
    have hsome := (select?_check_eq_some_iff clocks votes start _ l).mpr hleast
    rw [h] at hsome
    cases hsome
  · intro h
    cases hs : (l.check clocks).select? start votes.required with
    | none => rfl
    | some i =>
      have hleast := (select?_check_eq_some_iff clocks votes start i l).mp hs
      rw [h] at hleast
      exact hleast.1.elim

end Ladder

end LowPower

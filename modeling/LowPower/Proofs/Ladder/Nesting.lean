import LowPower.Proofs.Clock.Order
import LowPower.Proofs.Ladder.Firmware

namespace LowPower

variable {clocks : Clock.Table} {votes : Votes} {start : Nat}

namespace Constraint

structure Shallower (d c : Constraint) : Prop where
  software : d.status.flags.contains ConstraintFlags.software = true
  firmware : d.status.flags.contains ConstraintFlags.firmware = true
  checks : d.status.flags.contains ConstraintFlags.checkClocks = true →
    c.status.flags.contains ConstraintFlags.checkClocks = true
  forbidden : d.forbidden.Within c.forbidden
  keeps : d.keeps.contains c.keeps = true

structure Unhindered (c : Constraint) : Prop where
  software : c.status.flags.contains ConstraintFlags.software = true
  firmware : c.status.flags.contains ConstraintFlags.firmware = true
  unchecked : c.status.flags.contains ConstraintFlags.checkClocks = false
  keeps : c.keeps.contains Flags.all = true

variable {c d : Constraint}

instance : Decidable (d.Shallower c) :=
  decidable_of_iff (_ ∧ _ ∧ (_ → _) ∧ _ ∧ _)
    ⟨fun ⟨hs, hf, hc, hw, hk⟩ => ⟨hs, hf, hc, hw, hk⟩, fun h => ⟨h.1, h.2, h.3, h.4, h.5⟩⟩

instance : Decidable c.Unhindered :=
  decidable_of_iff (_ ∧ _ ∧ _ ∧ _)
    ⟨fun ⟨hs, hf, hc, hk⟩ => ⟨hs, hf, hc, hk⟩, fun h => ⟨h.1, h.2, h.3, h.4⟩⟩

theorem Shallower.enterable (h : d.Shallower c) (enterable : c.Enterable clocks votes) :
    d.Enterable clocks votes where
  software := h.software
  firmware := h.firmware
  unblocked := enterable.unblocked.imp
    (fun unchecked => Bool.eq_false_iff.mpr fun checks =>
      Bool.false_ne_true (unchecked.symm.trans (h.checks checks)))
    fun apart => apart.of_within (.refl _) h.forbidden
  kept r hr := Flags.contains_trans h.keeps (enterable.kept r hr)

theorem Unhindered.enterable (h : c.Unhindered) (clocks : Clock.Table) (votes : Votes) :
    c.Enterable clocks votes where
  software := h.software
  firmware := h.firmware
  unblocked := .inl h.unchecked
  kept r _ := Flags.contains_trans h.keeps (by cases r <;> decide)

end Constraint

namespace Ladder

structure Nested (l : Ladder) : Prop where
  chain : l.constraints.Pairwise fun c d => d.Shallower c
  last : ∃ c, l.constraints.getLast? = some c ∧ c.Unhindered

variable {l : Ladder}

theorem Nested.upward (h : l.Nested) {i m : Nat} (hi : i ∈ l.enterable clocks votes start)
    (him : i ≤ m) (hm : m < l.length) : m ∈ l.enterable clocks votes start := by
  rcases him.eq_or_lt with rfl | hlt
  · exact hi
  · obtain ⟨hstart, c, hc, enterable⟩ := hi
    obtain ⟨hilt, rfl⟩ := List.getElem?_eq_some_iff.mp hc
    have shallower := List.pairwise_iff_getElem.mp h.chain i m hilt hm hlt
    exact ⟨hstart.trans him, _, List.getElem?_eq_getElem hm, shallower.enterable enterable⟩

theorem Nested.exists_isLeast (h : l.Nested) (clocks : Clock.Table) (votes : Votes) :
    ∃ k < l.length, ∀ start,
      (start < l.length → IsLeast (l.enterable clocks votes start) (max start k)) ∧
      (l.length ≤ start → l.enterable clocks votes start = ∅) := by
  classical
  obtain ⟨c, hlast, unhindered⟩ := h.last
  have within {k start : Nat} (hk : k ∈ l.enterable clocks votes start) : k < l.length := by
    obtain ⟨-, d, hd, -⟩ := hk
    exact (List.getElem?_eq_some_iff.mp hd).1
  have exists_enterable : ∃ k, k ∈ l.enterable clocks votes 0 := by
    rw [List.getLast?_eq_getElem?] at hlast
    exact ⟨_, Nat.zero_le _, c, hlast, unhindered.enterable clocks votes⟩
  obtain ⟨hk, hleast⟩ := Nat.isLeast_find exists_enterable
  refine ⟨_, within hk, fun start => ⟨fun hstart => ⟨?_, ?_⟩, fun hstart => ?_⟩⟩
  · obtain ⟨-, enterable⟩ := h.upward hk (le_max_right start _) (max_lt hstart (within hk))
    exact ⟨le_max_left _ _, enterable⟩
  · rintro m ⟨hm, enterable⟩
    exact max_le hm (hleast ⟨Nat.zero_le _, enterable⟩)
  · rw [Set.eq_empty_iff_forall_notMem]
    intro m hm
    exact Nat.not_lt.mpr (hstart.trans hm.1) (within hm)

end Ladder

end LowPower

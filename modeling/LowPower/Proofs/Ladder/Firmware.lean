import LowPower.Proofs.Ladder.Observation
import LowPower.Proofs.Ladder.Selection

namespace LowPower

namespace Constraint

structure Gist where
  variant : Variant
  forbidden : Clock.Table
  software : Bool
  firmware : Bool
  checks : Bool

def gist (c : Constraint) : Gist where
  variant := c.variant
  forbidden := c.forbidden
  software := c.status.flags.contains ConstraintFlags.software
  firmware := c.status.flags.contains ConstraintFlags.firmware
  checks := c.status.flags.contains ConstraintFlags.checkClocks

namespace Gist

def putFirmware (on : Bool) (g : Gist) : Gist := { g with firmware := on }

structure Enterable (clocks : Clock.Table) (votes : Votes) (g : Gist) : Prop where
  software : g.software = true
  firmware : g.firmware = true
  unblocked : g.checks = false ∨ clocks.Disjoint g.forbidden
  kept : ∀ r, votes.count r ≠ 0 → g.variant.keeps.contains r.toSet = true

end Gist

variable {clocks : Clock.Table} {votes : Votes}

theorem enterable_iff_gist (c : Constraint) :
    c.Enterable clocks votes ↔ c.gist.Enterable clocks votes :=
  ⟨fun h => ⟨h.1, h.2, h.3, h.4⟩, fun h => ⟨h.1, h.2, h.3, h.4⟩⟩

theorem enterable_of_gist_eq (c d : Constraint) (h : c.gist = d.gist)
    (enterable : c.Enterable clocks votes) : d.Enterable clocks votes := by
  rw [enterable_iff_gist] at enterable ⊢
  exact h ▸ enterable

theorem gist_setFirmware (c : Constraint) :
    (c.setFlags (c.status.flags ∪ .firmware)).gist = c.gist.putFirmware true := by
  have software : (c.status.flags ∪ .firmware).contains ConstraintFlags.software =
      c.status.flags.contains ConstraintFlags.software :=
    Flags.contains_union_of_disjoint _ (by decide)
  have checks : (c.status.flags ∪ .firmware).contains ConstraintFlags.checkClocks =
      c.status.flags.contains ConstraintFlags.checkClocks :=
    Flags.contains_union_of_disjoint _ (by decide)
  have firmware : (c.status.flags ∪ .firmware).contains ConstraintFlags.firmware = true :=
    Flags.contains_union_right _ _
  simp only [gist, setFlags, Gist.putFirmware, software, checks, firmware]

theorem gist_clearFirmware (c : Constraint) :
    (c.setFlags (c.status.flags ∩ ~~~.firmware)).gist = c.gist.putFirmware false := by
  have kept (i : Nat) (hi : i < 16) :
      (c.status.flags ∩ ~~~.firmware).contains (.single ConstraintFlags.vocabulary i) =
        (c.status.flags.contains (.single ConstraintFlags.vocabulary i) &&
          (~~~ConstraintFlags.firmware).bits.getLsbD i) := by
    rw [Flags.contains_single hi, Flags.contains_single hi, Flags.bits_inter, BitVec.getLsbD_and]
  have software : (c.status.flags ∩ ~~~.firmware).contains ConstraintFlags.software =
      c.status.flags.contains ConstraintFlags.software :=
    (kept 0 (by decide)).trans (Bool.and_true _)
  have checks : (c.status.flags ∩ ~~~.firmware).contains ConstraintFlags.checkClocks =
      c.status.flags.contains ConstraintFlags.checkClocks :=
    (kept 3 (by decide)).trans (Bool.and_true _)
  have firmware : (c.status.flags ∩ ~~~.firmware).contains ConstraintFlags.firmware = false :=
    (kept 1 (by decide)).trans (Bool.and_false _)
  simp only [gist, setFlags, Gist.putFirmware, software, checks, firmware]

end Constraint

open Constraint (Gist gist)

namespace Ladder

variable {clocks : Clock.Table} {votes : Votes} {start : Nat} {l l' : Ladder}

def ready (l : Ladder) : Ladder :=
  { l with constraints := l.constraints.map fun c => c.setFlags (c.status.flags ∪ .firmware) }

theorem mem_enterable_iff {k : Nat} : k ∈ l.enterable clocks votes start ↔
    start ≤ k ∧ ∃ g, l.observe gist k = some g ∧ g.Enterable clocks votes := by
  change (start ≤ k ∧ ∃ c, l.constraints[k]? = some c ∧ c.Enterable clocks votes) ↔ _
  simp only [observe, Option.map_eq_some_iff]
  constructor
  · rintro ⟨hk, c, hc, h⟩
    exact ⟨hk, c.gist, ⟨c, hc, rfl⟩, c.enterable_iff_gist.mp h⟩
  · rintro ⟨hk, _, ⟨c, hc, rfl⟩, h⟩
    exact ⟨hk, c, hc, c.enterable_iff_gist.mpr h⟩

theorem enterable_congr {γ : Type} {f : Constraint → γ}
    (hf : ∀ c d, f c = f d → c.Enterable clocks votes → d.Enterable clocks votes)
    (h : ∀ n, l.observe f n = l'.observe f n) :
    l.enterable clocks votes start = l'.enterable clocks votes start := by
  have subset {l l' : Ladder} (h : ∀ n, l.observe f n = l'.observe f n) :
      l.enterable clocks votes start ⊆ l'.enterable clocks votes start := by
    rintro k ⟨hk, c, hc, enterable⟩
    have hd := (h k).symm
    rw [observe, observe, hc, Option.map_some, Option.map_eq_some_iff] at hd
    obtain ⟨d, hd, heq⟩ := hd
    exact ⟨hk, d, hd, hf c d heq.symm enterable⟩
  exact (subset h).antisymm (subset fun n => (h n).symm)

theorem enterable_of_ready
    (h : ∀ n, l.observe gist n = (l'.observe gist n).map (Gist.putFirmware true)) :
    l.enterable clocks votes start = l'.ready.enterable clocks votes start :=
  enterable_congr Constraint.enterable_of_gist_eq fun n => by
    rw [h, ready, observe_map Constraint.gist_setFirmware]

theorem enterable_of_unready
    (h : ∀ n, l.observe gist n = (l'.observe gist n).map (Gist.putFirmware false)) :
    l.enterable clocks votes start = ∅ := by
  rw [Set.eq_empty_iff_forall_notMem]
  intro k hk
  obtain ⟨-, g, hg, enterable⟩ := mem_enterable_iff.mp hk
  rw [h, Option.map_eq_some_iff] at hg
  obtain ⟨g, -, rfl⟩ := hg
  exact absurd enterable.firmware Bool.false_ne_true

end Ladder

end LowPower

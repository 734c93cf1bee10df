import LowPower.Proofs.Clock.Edit
import LowPower.Proofs.Clock.Report
import LowPower.Proofs.Word

namespace LowPower

namespace Clock.Table

variable {a b a' b' : Table}

structure Within (a b : Table) : Prop where
  domains : ∀ i (h : i < domainCapacity), Word.Within a.domains[i] b.domains[i]
  plls : Word.Within a.plls b.plls

theorem Within.refl (a : Table) : Within a a := ⟨fun _ _ => .refl _, .refl _⟩

theorem within_iff_inter_eq : a.Within b ↔ a ∩ b = a := by
  constructor
  · intro h
    apply Table.ext
    · apply Vector.ext
      intro i hi
      rw [domains_inter]
      exact Word.within_iff_and_eq.mp (h.domains i hi)
    · exact Word.within_iff_and_eq.mp h.plls
  · intro h
    refine ⟨fun i hi => Word.within_iff_and_eq.mpr ?_, Word.within_iff_and_eq.mpr ?_⟩
    · rw [← domains_inter, h]
    · rw [← plls_inter, h]

instance : Decidable (a.Within b) := decidable_of_iff _ within_iff_inter_eq.symm

theorem Disjoint.of_within (h : a'.Disjoint b') (ha : a.Within a') (hb : b.Within b') :
    a.Disjoint b :=
  ⟨fun i hi => Word.and_eq_zero_of_within (ha.domains i hi) (hb.domains i hi) (h.1 i hi),
    Word.and_eq_zero_of_within ha.plls hb.plls h.2⟩

theorem putBits_false_within (word bits : Word) : Word.Within (putBits word bits false) word := by
  intro i h
  rw [getLsbD_putBits] at h
  split at h
  · cases h
  · exact h

theorem edit_false_within {shape : Shape} {entry : Nat} {value : Word}
    (h : a.edit shape entry value false = .ok (some b)) : b.Within a := by
  obtain ⟨words, plls⟩ := edit_eq_some h
  constructor
  · intro i hi
    rw [words i hi]
    split
    · exact putBits_false_within _ _
    · exact .refl _
  · intro k hk
    rw [plls] at hk
    split at hk
    · cases hk
    · exact hk

end Clock.Table

end LowPower

import LowPower.Word

namespace LowPower

namespace Word

variable {w : Nat} {x y z : BitVec w}

def Within (x y : BitVec w) : Prop := ∀ i, x.getLsbD i = true → y.getLsbD i = true

theorem Within.refl (x : BitVec w) : Within x x := fun _ h => h

theorem within_zero (y : BitVec w) : Within 0#w y := fun i h => by
  rw [BitVec.getLsbD_zero] at h
  cases h

theorem within_iff_and_eq : Within x y ↔ x &&& y = x := by
  constructor
  · intro h
    apply BitVec.eq_of_getLsbD_eq
    intro i _
    rw [BitVec.getLsbD_and]
    cases hx : x.getLsbD i
    · rfl
    · rw [h i hx]
      rfl
  · intro h i hx
    rw [← h, BitVec.getLsbD_and, Bool.and_eq_true] at hx
    exact hx.2

instance : Decidable (Within x y) := decidable_of_iff _ within_iff_and_eq.symm

theorem and_eq_zero_iff :
    x &&& y = 0#w ↔ ∀ i, ¬ (x.getLsbD i = true ∧ y.getLsbD i = true) := by
  constructor
  · rintro h i ⟨hx, hy⟩
    have := congrArg (·.getLsbD i) h
    simp only [BitVec.getLsbD_and, hx, hy, BitVec.getLsbD_zero] at this
    cases this
  · intro h
    apply BitVec.eq_of_getLsbD_eq
    intro i _
    rw [BitVec.getLsbD_and, BitVec.getLsbD_zero]
    exact Bool.eq_false_iff.mpr fun hxy => h i (Bool.and_eq_true_iff.mp hxy)

theorem and_ne_zero_iff :
    x &&& y ≠ 0#w ↔ ∃ i, x.getLsbD i = true ∧ y.getLsbD i = true := by
  rw [Ne, and_eq_zero_iff, Classical.not_forall]
  exact exists_congr fun _ => Classical.not_not

theorem and_eq_zero_of_within {x' y' : BitVec w} (hx : Within x x') (hy : Within y y')
    (h : x' &&& y' = 0#w) : x &&& y = 0#w :=
  and_eq_zero_iff.mpr fun i hi => and_eq_zero_iff.mp h i ⟨hx i hi.1, hy i hi.2⟩

end Word

end LowPower

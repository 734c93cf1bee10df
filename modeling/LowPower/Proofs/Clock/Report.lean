import LowPower.Clock.Table

namespace LowPower.Clock.Table

def Disjoint (a b : Table) : Prop :=
  (∀ i (h : i < domainCapacity), a.domains[i] &&& b.domains[i] = 0#32) ∧ a.plls &&& b.plls = 0#32

theorem getLsbD_report_plls (plls : Word) {i : Nat} (h : i < 32) :
    (if plls = 0#32 then 0#32 else (plls <<< pllShift) ||| pllMark).getLsbD i =
      (decide (pllShift ≤ i) && plls.getLsbD (i - pllShift) || (i == 30 && plls != 0#32)) := by
  have hmark : pllMark.getLsbD i = (i == 30) := by
    rw [pllMark, BitVec.getLsbD_twoPow, Bool.eq_iff_iff, Bool.and_eq_true, decide_eq_true_eq,
      decide_eq_true_eq, beq_iff_eq]
    exact ⟨fun h => h.2.symm, fun h => ⟨by decide, h.symm⟩⟩
  split
  · next hzero => simp [hzero]
  · next hnonzero =>
    have hne : (plls != 0#32) = true := bne_iff_ne.mpr hnonzero
    rw [BitVec.getLsbD_or, BitVec.getLsbD_shiftLeft, hmark, hne, Bool.and_true]
    by_cases hi : pllShift ≤ i
    · simp [h, hi, Nat.not_lt.mpr hi, -BitVec.getLsbD_eq_getElem]
    · simp [hi, Nat.not_le.mp hi]

theorem getLsbD_report (t : Table) {i : Nat} (h : i < domainCapacity) :
    t.report.getLsbD i = (t.domains[i] != 0#32) := by
  have h32 : i < 32 := Nat.lt_trans h (by decide)
  have hshift : ¬ pllShift ≤ i := Nat.not_le.mpr h
  have hmark : i ≠ 30 := by
    simp only [domainCapacity] at h
    omega
  rw [report, BitVec.getLsbD_or, getLsbD_report_plls _ h32, Word.getLsbD_ofBits]
  simp [h, h32, hshift, hmark, Vector.getD]

theorem getLsbD_report_of_le (t : Table) {i : Nat} (h : pllShift ≤ i) (h32 : i < 32) :
    t.report.getLsbD i = (t.plls.getLsbD (i - pllShift) || (i == 30 && t.plls != 0#32)) := by
  have hi : ¬ i < domainCapacity := Nat.not_lt.mpr h
  rw [report, BitVec.getLsbD_or, getLsbD_report_plls _ h32, Word.getLsbD_ofBits]
  simp [hi, h]

theorem report_union (t u : Table) : (t ∪ u).report = t.report ||| u.report := by
  have or_ne_zero (x y : Word) : (x ||| y != 0#32) = (x != 0#32 || y != 0#32) := by
    rw [Bool.eq_iff_iff, Bool.or_eq_true, bne_iff_ne, bne_iff_ne, bne_iff_ne, Ne,
      BitVec.or_eq_zero_iff]
    exact Classical.not_and_iff_not_or_not
  apply BitVec.eq_of_getLsbD_eq
  intro i h32
  rw [BitVec.getLsbD_or]
  by_cases h : i < domainCapacity
  · rw [getLsbD_report _ h, getLsbD_report _ h, getLsbD_report _ h, domains_union, or_ne_zero]
  · have hle : pllShift ≤ i := Nat.not_lt.mp h
    rw [getLsbD_report_of_le _ hle h32, getLsbD_report_of_le _ hle h32,
      getLsbD_report_of_le _ hle h32, plls_union, BitVec.getLsbD_or, or_ne_zero]
    generalize t.plls.getLsbD _ = a, u.plls.getLsbD _ = b
    cases a <;> cases b <;> simp [Bool.and_or_distrib_left]

theorem report_eq_zero_iff (t : Table) :
    t.report = 0#32 ↔ (∀ i (h : i < domainCapacity), t.domains[i] = 0#32) ∧ t.plls = 0#32 := by
  constructor
  · intro hr
    constructor
    · intro i h
      have hi := t.getLsbD_report h
      rw [hr] at hi
      simpa using hi
    · apply Classical.byContradiction
      intro hp
      have hmark := congrArg (fun r : Word => r.getLsbD 30) hr
      simp [report, hp, pllMark] at hmark
  · rintro ⟨hd, hp⟩
    apply BitVec.eq_of_getLsbD_eq
    intro i _
    rw [report, if_pos hp, BitVec.or_zero, Word.getLsbD_ofBits]
    by_cases hi : i < domainCapacity
    · simp [hi, Vector.getD, hd i hi]
    · simp [hi]

theorem blockedBy_eq_zero_iff (t forbidden : Table) :
    t.blockedBy forbidden = 0#32 ↔ t.Disjoint forbidden := by
  rw [blockedBy, report_eq_zero_iff, plls_inter]
  constructor
  · rintro ⟨hd, hp⟩
    exact ⟨fun i h => (domains_inter t forbidden i h).symm.trans (hd i h), hp⟩
  · rintro ⟨hd, hp⟩
    exact ⟨fun i h => (domains_inter t forbidden i h).trans (hd i h), hp⟩

end LowPower.Clock.Table

import LowPower.Flags

namespace LowPower

namespace Flags

variable {w : Nat} {v : Vocabulary w}

theorem contains_union (x y z : Flags v) :
    x.contains (y ∪ z) = true ↔ x.contains y = true ∧ x.contains z = true := by
  simp only [contains_eq_true_iff, bits_union, BitVec.getLsbD_or, Bool.or_eq_true]
  constructor
  · exact fun h => ⟨fun i hi => h i (.inl hi), fun i hi => h i (.inr hi)⟩
  · rintro ⟨hy, hz⟩ i (hi | hi)
    · exact hy i hi
    · exact hz i hi

theorem contains_union_right (x y : Flags v) : (x ∪ y).contains y = true := by
  rw [contains_eq_true_iff]
  intro i hi
  rw [bits_union, BitVec.getLsbD_or, hi, Bool.or_true]

theorem contains_trans {x y z : Flags v} (h : x.contains y = true) (h' : y.contains z = true) :
    x.contains z = true := by
  rw [contains_eq_true_iff] at h h' ⊢
  exact fun i hi => h i (h' i hi)

theorem empty_union (x : Flags v) : ∅ ∪ x = x := by
  apply Flags.ext
  rw [bits_union, bits_empty, BitVec.zero_or]

theorem union_empty (x : Flags v) : x ∪ ∅ = x := by
  apply Flags.ext
  rw [bits_union, bits_empty, BitVec.or_zero]

theorem union_eq_of_contains {x y : Flags v} (h : x.contains y = true) : x ∪ y = x := by
  rw [contains_eq_true_iff] at h
  apply Flags.ext
  apply BitVec.eq_of_getLsbD_eq
  intro i _
  rw [bits_union, BitVec.getLsbD_or]
  cases hy : y.bits.getLsbD i
  · exact Bool.or_false _
  · rw [h i hy]
    rfl

theorem contains_union_of_disjoint (x : Flags v) {y z : Flags v} (h : z ∩ y = ∅) :
    (x ∪ z).contains y = x.contains y := by
  have hz : z.bits &&& y.bits = 0#w := congrArg bits h
  have hinter : (x ∪ z) ∩ y = x ∩ y := by
    apply Flags.ext
    apply BitVec.eq_of_getLsbD_eq
    intro i _
    have hi := congrArg (·.getLsbD i) hz
    simp only [BitVec.getLsbD_and, BitVec.getLsbD_zero] at hi
    simp only [bits_inter, bits_union, BitVec.getLsbD_and, BitVec.getLsbD_or,
      Bool.and_or_distrib_right, hi, Bool.or_false]
  rw [contains, hinter, contains]

theorem contains_single {i : Nat} (hi : i < w) (x : Flags v) :
    x.contains (single v i) = x.bits.getLsbD i := by
  rw [Bool.eq_iff_iff, contains_eq_true_iff]
  constructor
  · exact fun h => h i (by simp [hi])
  · intro h j hj
    obtain ⟨-, rfl⟩ : i < w ∧ i = j := by simpa [BitVec.getLsbD_twoPow] using hj
    exact h

theorem meets_single {i : Nat} (hi : i < w) (x : Flags v) :
    x.meets (single v i) = x.bits.getLsbD i := by
  rw [Bool.eq_iff_iff, meets_eq_true_iff]
  constructor
  · rintro ⟨j, hx, hj⟩
    obtain ⟨-, rfl⟩ : i < w ∧ i = j := by simpa [BitVec.getLsbD_twoPow] using hj
    exact hx
  · exact fun h => ⟨i, h, by simp [hi]⟩

theorem meets_union (x y z : Flags v) : x.meets (y ∪ z) = (x.meets y || x.meets z) := by
  rw [Bool.eq_iff_iff, Bool.or_eq_true]
  simp only [meets_eq_true_iff, bits_union, BitVec.getLsbD_or, Bool.or_eq_true]
  constructor
  · rintro ⟨i, hx, hy | hz⟩
    · exact .inl ⟨i, hx, hy⟩
    · exact .inr ⟨i, hx, hz⟩
  · rintro (⟨i, hx, hy⟩ | ⟨i, hx, hz⟩)
    · exact ⟨i, hx, .inl hy⟩
    · exact ⟨i, hx, .inr hz⟩

end Flags

def Vocabulary.Names {w : Nat} (v : Vocabulary w) (i : Nat) : Prop := ∃ name, (i, name) ∈ v.names

theorem Vocabulary.getLsbD_known {w : Nat} (v : Vocabulary w) (i : Nat) :
    v.known.getLsbD i = true ↔ i < w ∧ v.Names i := by
  have fold (names : List (Nat × String)) (bits : BitVec w) :
      (names.foldl (fun bits name => bits ||| BitVec.twoPow w name.1) bits).getLsbD i = true ↔
        bits.getLsbD i = true ∨ i < w ∧ ∃ name, (i, name) ∈ names := by
    induction names generalizing bits with
    | nil => simp
    | cons name names ih =>
      obtain ⟨j, text⟩ := name
      rw [List.foldl_cons, ih]
      simp only [BitVec.getLsbD_or, BitVec.getLsbD_twoPow, Bool.or_eq_true, Bool.and_eq_true,
        decide_eq_true_eq, List.mem_cons, Prod.mk.injEq]
      grind
  rw [known, fold, BitVec.getLsbD_zero]
  simp [Names]

namespace Flags

variable {w : Nat} {v : Vocabulary w}

def Named (x : Flags v) : Prop := ∀ i, x.bits.getLsbD i = true → v.Names i

theorem getLsbD_truncate (bits : BitVec w) (i : Nat) :
    (truncate bits : Flags v).bits.getLsbD i = (bits.getLsbD i && v.known.getLsbD i) :=
  BitVec.getLsbD_and

theorem ofBits?_eq_some_iff {bits : BitVec w} {x : Flags v} :
    ofBits? bits = some x ↔ x.bits = bits ∧ x.Named := by
  have known_iff : bits &&& ~~~v.known = 0#w ↔ (⟨bits⟩ : Flags v).Named := by
    constructor
    · intro h i hi
      have hw : i < w := BitVec.lt_of_getLsbD hi
      have := congrArg (·.getLsbD i) h
      have : v.known.getLsbD i = true := by simpa [hi, hw, -BitVec.getLsbD_eq_getElem] using this
      exact (v.getLsbD_known i).mp this |>.2
    · intro h
      apply BitVec.eq_of_getLsbD_eq
      intro i hw
      rw [BitVec.getLsbD_and, BitVec.getLsbD_not, BitVec.getLsbD_zero]
      cases hi : bits.getLsbD i
      · rfl
      · simp [(v.getLsbD_known i).mpr ⟨hw, h i hi⟩]
  rw [ofBits?]
  split
  case isTrue h =>
    rw [Option.some.injEq]
    constructor
    · rintro rfl
      exact ⟨rfl, known_iff.mp h⟩
    · rintro ⟨rfl, -⟩
      rfl
  case isFalse h =>
    refine ⟨nofun, ?_⟩
    rintro ⟨rfl, hx⟩
    exact absurd (known_iff.mpr hx) h

end Flags

end LowPower

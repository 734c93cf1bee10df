import LowPower.Proofs.Clock.Edit
import LowPower.Proofs.Ladder.Accounts
import Mathlib.Algebra.Order.BigOperators.Group.List
import Mathlib.Algebra.Order.Group.Nat

namespace LowPower

def Unbroken {α : Type} (result : Except Failure α) : Prop :=
  ∀ fault, result ≠ .error (.broken fault)

namespace Constraint

theorem unbroken_apply {shape : Clock.Shape} (fits : shape.Fits) (c : Constraint)
    (request : Request) : Unbroken (c.apply shape request) := by
  intro fault
  cases request with
  | editForbidden entry value on =>
    rw [apply]
    split
    next hedit => exact absurd hedit (c.forbidden.edit_ne_error fits entry value on _)
    next => rintro ⟨⟩
    next => rintro ⟨⟩
  | _ => rintro ⟨⟩

def amount (query : Query) (c : Constraint) : Nat :=
  match query with
  | .entries => c.status.entries.toNat
  | .residency => c.status.residency.toNat
  | _ => 0

def afterRead (query : Query) (clear : Bool) (c : Constraint) : Constraint :=
  if clear ∧ query = .residency then c.clearResidency else c

theorem amount_lt (query : Query) (c : Constraint) : c.amount query < 2 ^ 64 := by
  cases query with
  | entries => exact c.status.entries.isLt.trans (by decide)
  | residency => exact c.status.residency.isLt
  | _ => exact Nat.two_pow_pos 64

namespace Reading

def query : Reading → Query
  | .flags _ => .flags
  | .entries _ => .entries
  | .residency _ => .residency
  | .blocked _ => .blocked
  | .latch _ => .latch
  | .resources _ => .resources

def count : Reading → Nat
  | .entries count => count.toNat
  | .residency ticks => ticks.toNat
  | _ => 0

@[simp] theorem query_zero (q : Query) : (zero q).query = q := by cases q <;> rfl

@[simp] theorem count_zero (q : Query) : (zero q).count = 0 := by cases q <;> rfl

theorem addCounts_eq_ok {x y : Word64} (h : x.toNat + y.toNat < 2 ^ 64) :
    addCounts x y = .ok (x + y) := by
  have fits : x.uaddOverflow y = false := by
    simpa [BitVec.uaddOverflow] using h
  rw [addCounts, fits, if_neg Bool.false_ne_true]

theorem addCounts_eq_error {x y : Word64} (h : 2 ^ 64 ≤ x.toNat + y.toNat) :
    addCounts x y = .error .addOverflow := by
  have overflows : x.uaddOverflow y = true := by
    simpa [BitVec.uaddOverflow] using h
  rw [addCounts, overflows, if_pos rfl]

variable {reading : Reading} {c : Constraint}

theorem add_eq_ok (h : reading.count + c.amount reading.query < 2 ^ 64) :
    ∃ next : Reading, reading.add c = .ok next ∧ next.query = reading.query ∧
      next.count = reading.count + c.amount reading.query := by
  cases reading with
  | entries count =>
    have widened : (c.status.entries.setWidth 64).toNat = c.status.entries.toNat :=
      BitVec.toNat_setWidth_of_le (by decide)
    have fits : count.toNat + (c.status.entries.setWidth 64).toNat < 2 ^ 64 := widened.symm ▸ h
    refine ⟨.entries (count + c.status.entries.setWidth 64), ?_, rfl, ?_⟩
    · rw [add, addCounts_eq_ok fits]
      rfl
    change (count + c.status.entries.setWidth 64).toNat = count.toNat + c.status.entries.toNat
    rw [BitVec.toNat_add, Nat.mod_eq_of_lt fits, widened]
  | residency ticks =>
    refine ⟨.residency (ticks + c.status.residency), ?_, rfl, ?_⟩
    · rw [add, addCounts_eq_ok h]
      rfl
    exact (BitVec.toNat_add _ _).trans (Nat.mod_eq_of_lt h)
  | flags | blocked | latch | resources => exact ⟨_, rfl, rfl, rfl⟩

theorem add_eq_error (h : 2 ^ 64 ≤ reading.count + c.amount reading.query) :
    reading.add c = .error .addOverflow := by
  cases reading with
  | entries count =>
    have widened : (c.status.entries.setWidth 64).toNat = c.status.entries.toNat :=
      BitVec.toNat_setWidth_of_le (by decide)
    have overflows : 2 ^ 64 ≤ count.toNat + (c.status.entries.setWidth 64).toNat :=
      widened.symm ▸ h
    rw [add, addCounts_eq_error overflows]
    rfl
  | residency ticks =>
    rw [add, addCounts_eq_error h]
    rfl
  | flags | blocked | latch | resources => exact absurd (show 2 ^ 64 ≤ 0 from h) (by decide)

end Reading

end Constraint

namespace Ladder

variable {query : Constraint.Query} {l : Ladder}

def total (query : Constraint.Query) (l : Ladder) : Nat := (l.constraints.map (·.amount query)).sum

theorem readAll_eq_ok (reading : Constraint.Reading) (cs : List Constraint) (clear : Bool)
    (h : reading.count + (cs.map (·.amount reading.query)).sum < 2 ^ 64) :
    ∃ last : Constraint.Reading, readAll reading.query clear reading cs =
      (.ok last, cs.map (·.afterRead reading.query clear)) := by
  induction cs generalizing reading with
  | nil => exact ⟨reading, rfl⟩
  | cons c cs ih =>
    rw [List.map_cons, List.sum_cons, ← Nat.add_assoc] at h
    have hc : reading.count + c.amount reading.query < 2 ^ 64 := by omega
    obtain ⟨next, hadd, hquery, hcount⟩ := Constraint.Reading.add_eq_ok hc
    obtain ⟨last, hrest⟩ := ih next (by rwa [hquery, hcount])
    refine ⟨last, ?_⟩
    rw [readAll, hadd]
    rw [hquery] at hrest
    simp only [hrest]
    rfl

theorem readAll_eq_error (reading : Constraint.Reading) (cs : List Constraint) (clear : Bool)
    (fits : reading.count < 2 ^ 64)
    (h : 2 ^ 64 ≤ reading.count + (cs.map (·.amount reading.query)).sum) :
    (readAll reading.query clear reading cs).1 = .error .addOverflow := by
  induction cs generalizing reading with
  | nil => exact absurd h (Nat.not_le.mpr fits)
  | cons c cs ih =>
    rw [List.map_cons, List.sum_cons, ← Nat.add_assoc] at h
    rw [readAll]
    by_cases hc : reading.count + c.amount reading.query < 2 ^ 64
    · obtain ⟨next, hadd, hquery, hcount⟩ := Constraint.Reading.add_eq_ok hc
      have hrest := ih next (by rwa [hcount]) (by rwa [hquery, hcount])
      rw [hquery] at hrest
      simp only [hadd, hrest]
    · rw [Constraint.Reading.add_eq_error (Nat.not_lt.mp hc)]

theorem read_all_eq_ok (clear : Bool) (h : l.total query < 2 ^ 64) :
    ∃ reading, l.read .all query clear = (.ok reading,
      { l with constraints := l.constraints.map (·.afterRead query clear) }) := by
  obtain ⟨reading, hread⟩ := readAll_eq_ok (.zero query) l.constraints clear
    (by simpa [total] using h)
  rw [Constraint.Reading.query_zero] at hread
  exact ⟨reading, by rw [read, hread]; rfl⟩

theorem read_all_eq_error (clear : Bool) (h : 2 ^ 64 ≤ l.total query) :
    (l.read .all query clear).1 = .error (.broken .addOverflow) := by
  have hread := readAll_eq_error (.zero query) l.constraints clear
    (by simp) (by simpa [total] using h)
  rw [Constraint.Reading.query_zero] at hread
  simp only [read, hread]
  rfl

theorem read_index_eq_ok {i : Nat} {c : Constraint} (query : Constraint.Query) (clear : Bool)
    (hc : l.constraints[i]? = some c) :
    ∃ reading, l.read (.index i) query clear = (.ok reading,
      { l with constraints := l.constraints.set i (c.afterRead query clear) }) := by
  obtain ⟨reading, hread⟩ := readAll_eq_ok (.zero query) [c] clear
    (by simpa using c.amount_lt query)
  rw [Constraint.Reading.query_zero] at hread
  refine ⟨reading, ?_⟩
  simp only [read, hc, hread]
  rfl

theorem read_index_eq_refused {i : Nat} (query : Constraint.Query) (clear : Bool)
    (hi : l.constraints[i]? = none) :
    l.read (.index i) query clear =
      (.error (.refused (.unknownConstraint (BitVec.ofNat 32 i))), l) := by
  simp only [read, hi]

theorem total_lt (h : l.length ≤ capacity) (hq : query ≠ .residency) :
    l.total query < 2 ^ 64 := by
  have amount_le (c : Constraint) : c.amount query ≤ 2 ^ 32 := by
    cases query with
    | entries => exact c.status.entries.isLt.le
    | residency => exact absurd rfl hq
    | _ => exact Nat.zero_le _
  calc l.total query ≤ (l.constraints.map (·.amount query)).length • 2 ^ 32 :=
        List.sum_le_card_nsmul _ _ fun n hn => by
          obtain ⟨c, -, rfl⟩ := List.mem_map.mp hn
          exact amount_le c
    _ = l.length * 2 ^ 32 := by rw [List.length_map, smul_eq_mul]; rfl
    _ ≤ capacity * 2 ^ 32 := Nat.mul_le_mul_right _ h
    _ < 2 ^ 64 := by decide

section

variable {request : Constraint.Request} {f : Constraint → Constraint}

theorem apply_all_eq_ok (h : ∀ c, Constraint.apply l.shape c request = .ok (f c)) :
    l.apply .all request = (.ok (), { l with constraints := l.constraints.map f }) := by
  rw [apply, applyAll_eq_ok h]

theorem apply_index_eq_ok {i : Nat} {c : Constraint}
    (h : ∀ c, Constraint.apply l.shape c request = .ok (f c)) (hc : l.constraints[i]? = some c) :
    l.apply (.index i) request =
      (.ok (), { l with constraints := l.constraints.set i (f c) }) := by
  simp only [apply, hc, h]

theorem apply_index_eq_refused {i : Nat} (request : Constraint.Request)
    (hi : l.constraints[i]? = none) :
    l.apply (.index i) request =
      (.error (.refused (.unknownConstraint (BitVec.ofNat 32 i))), l) := by
  simp only [apply, hi]

end

theorem apply_frame (target : Target) (request : Constraint.Request) (l : Ladder) :
    (l.apply target request).2 =
      { l with constraints := (l.apply target request).2.constraints } := by
  cases target with
  | all => rfl
  | index i =>
    simp only [apply]
    split
    · rfl
    · split
      · rfl
      · rfl

@[simp] theorem shape_apply (target : Target) (request : Constraint.Request) (l : Ladder) :
    (l.apply target request).2.shape = l.shape := by rw [apply_frame]

@[simp] theorem registered_apply (target : Target) (request : Constraint.Request) (l : Ladder) :
    (l.apply target request).2.registered = l.registered := by rw [apply_frame]

@[simp] theorem shape_read (target : Target) (query : Constraint.Query) (clear : Bool)
    (l : Ladder) : (l.read target query clear).2.shape = l.shape := by
  cases target with
  | all => rfl
  | index i =>
    simp only [read]
    split
    · rfl
    · rfl

theorem unbroken_applyAll {shape : Clock.Shape} (fits : shape.Fits) (request : Constraint.Request)
    (cs : List Constraint) : Unbroken (applyAll shape request cs).1 := by
  induction cs with
  | nil => exact fun _ => nofun
  | cons c cs ih =>
    rw [applyAll]
    split
    next failure hc =>
      rintro fault ⟨⟩
      exact c.unbroken_apply fits request fault hc
    next => exact ih

theorem unbroken_apply (fits : l.shape.Fits) (target : Target) (request : Constraint.Request) :
    Unbroken (l.apply target request).1 := by
  cases target with
  | all => exact unbroken_applyAll fits request l.constraints
  | index i =>
    simp only [apply]
    split
    next => rintro fault ⟨⟩
    next c hc =>
      split
      next failure hfailure =>
        rintro fault ⟨⟩
        exact c.unbroken_apply fits request fault hfailure
      next => rintro fault ⟨⟩

theorem unbroken_read (h : l.total query < 2 ^ 64) (target : Target) (clear : Bool) :
    Unbroken (l.read target query clear).1 := by
  cases target with
  | all =>
    obtain ⟨reading, hread⟩ := read_all_eq_ok clear h
    rw [hread]
    exact fun _ => nofun
  | index i =>
    cases hc : l.constraints[i]? with
    | none =>
      rw [read_index_eq_refused query clear hc]
      exact fun _ => nofun
    | some c =>
      obtain ⟨reading, hread⟩ := read_index_eq_ok query clear hc
      rw [hread]
      exact fun _ => nofun

end Ladder

end LowPower

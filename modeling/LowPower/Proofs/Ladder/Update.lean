import LowPower.Platform.Mt8192
import LowPower.Proofs.Ladder.Completion

namespace LowPower

namespace Constraint

variable {shape : Clock.Shape} {request : Request} {c c' : Constraint}

def Request.Misplaced (shape : Clock.Shape) : Request → Prop
  | .editForbidden entry _ _ => shape.domains + shape.plls ≤ entry
  | _ => False

structure Changed (shape : Clock.Shape) (request : Request) (c c' : Constraint) : Prop where
  variant : c'.variant =
    match request, c.variant with
    | .redeliver interrupts, .bus26m _ => .bus26m interrupts
    | _, variant => variant
  flags : c'.status.flags =
    match request with
    | .setFlags flags => c.status.flags ∪ flags
    | .clearFlags flags => c.status.flags ∩ ~~~flags
    | .flightMode on =>
      if c.variant = .dram then c.status.flags.put ConstraintFlags.flightMode on
      else c.status.flags
    | .storageClockOff on =>
      if c.variant = .dram then c.status.flags.put ConstraintFlags.storageClockOff on
      else c.status.flags
    | _ => c.status.flags
  blocked : c'.status.blocked = c.status.blocked
  entries : c'.status.entries = c.status.entries
  residency : c'.status.residency =
    if request = .clearResidency then 0#64 else c.status.residency
  latch : c'.status.latch = c.status.latch
  words : ∀ i (hi : i < Clock.domainCapacity), c'.forbidden.domains[i] =
    match request with
    | .editForbidden entry value on =>
      if entry = i ∧ i < shape.domains then Clock.Table.putBits c.forbidden.domains[i] value on
      else c.forbidden.domains[i]
    | _ => c.forbidden.domains[i]
  plls : ∀ k, c'.forbidden.plls.getLsbD k =
    match request with
    | .editForbidden entry value on =>
      if entry = shape.domains + k ∧ value ≠ 0#32 then on else c.forbidden.plls.getLsbD k
    | _ => c.forbidden.plls.getLsbD k

theorem apply_of_misplaced (h : request.Misplaced shape) (c : Constraint) :
    c.apply shape request = .error (.refused .invalidArgument) := by
  cases request with
  | editForbidden entry value on => rw [apply, Clock.Table.edit_of_le h]
  | _ => exact h.elim

theorem changed_putMemoryFlag {flag : ConstraintFlags} {on : Bool}
    (hrequest : request = .flightMode on ∧ flag = .flightMode ∨
      request = .storageClockOff on ∧ flag = .storageClockOff) :
    c.Changed shape request (c.putMemoryFlag flag on) := by
  rw [putMemoryFlag]
  by_cases hvariant : c.variant = .dram
  · rw [if_pos hvariant]
    rcases hrequest with ⟨rfl, rfl⟩ | ⟨rfl, rfl⟩
    all_goals exact ⟨rfl, (if_pos hvariant).symm, rfl, rfl, rfl, rfl, fun _ _ => rfl, fun _ => rfl⟩
  · rw [if_neg hvariant]
    rcases hrequest with ⟨rfl, rfl⟩ | ⟨rfl, rfl⟩
    all_goals exact ⟨rfl, (if_neg hvariant).symm, rfl, rfl, rfl, rfl, fun _ _ => rfl, fun _ => rfl⟩

theorem changed_of_apply (h : c.apply shape request = .ok c') : c.Changed shape request c' := by
  cases request with
  | editForbidden entry value on =>
    simp only [apply] at h
    split at h
    · cases h
    · cases h
    · next forbidden hedit =>
      cases h
      obtain ⟨words, plls⟩ := Clock.Table.edit_eq_some hedit
      exact ⟨rfl, rfl, rfl, rfl, rfl, rfl, words, plls⟩
  | flightMode on =>
    cases h
    exact changed_putMemoryFlag (.inl ⟨rfl, rfl⟩)
  | storageClockOff on =>
    cases h
    exact changed_putMemoryFlag (.inr ⟨rfl, rfl⟩)
  | redeliver interrupts =>
    cases h
    obtain ⟨variant, status, forbidden⟩ := c
    cases variant with
    | _ => exact ⟨rfl, rfl, rfl, rfl, rfl, rfl, fun _ _ => rfl, fun _ => rfl⟩
  | _ =>
    cases h
    exact ⟨rfl, rfl, rfl, rfl, rfl, rfl, fun _ _ => rfl, fun _ => rfl⟩

def afterApply (shape : Clock.Shape) (request : Request) (c : Constraint) : Constraint :=
  (c.apply shape request).toOption.getD c

theorem apply_eq_ok (fits : shape.Fits) (placed : ¬ request.Misplaced shape) (c : Constraint) :
    c.apply shape request = .ok (c.afterApply shape request) := by
  have accepted : ∃ c', c.apply shape request = .ok c' := by
    cases request with
    | editForbidden entry value on =>
      obtain ⟨forbidden, hedit⟩ := c.forbidden.exists_edit fits (Nat.not_le.mp placed)
      rw [apply, hedit]
      exact ⟨_, rfl⟩
    | _ => exact ⟨_, rfl⟩
  obtain ⟨c', hc'⟩ := accepted
  rw [afterApply, hc']
  rfl

end Constraint

namespace Ladder

variable {l : Ladder} {target : Target} {request : Constraint.Request}
  {f : Constraint → Constraint}

/-- Applies a request to the constraints in some places, one after the other, up to the first
failure. -/
def applyEach (request : Constraint.Request) : List Nat → Ladder → Except Failure Unit × Ladder
  | [], l => (.ok (), l)
  | i :: order, l =>
    match l.apply (.index i) request with
    | (.ok (), l) => applyEach request order l
    | (.error failure, l) => (.error failure, l)

theorem apply_eq_ok (target : Target) (h : ∀ c, Constraint.apply l.shape c request = .ok (f c))
    (present : ∀ i, target = .index i → i < l.length) :
    l.apply target request = (.ok (), l.mapWhere target.includes f) := by
  cases target with
  | all =>
    rw [apply_all_eq_ok h]
    exact congrArg _ mapWhere_true.symm
  | index i =>
    have hc := List.getElem?_eq_getElem (show i < l.constraints.length from present i rfl)
    rw [apply_index_eq_ok h hc]
    exact congrArg _ (mapWhere_eq_set hc).symm

theorem apply_of_misplaced (target : Target) (h : request.Misplaced l.shape) {n : Nat}
    (hn : n < l.length) (included : target.includes n = true) :
    l.apply target request = (.error (.refused .invalidArgument), l) := by
  cases target with
  | all =>
    obtain ⟨constraints, shape, registered⟩ := l
    cases constraints with
    | nil => exact absurd hn (Nat.not_lt_zero n)
    | cons c cs => simp only [apply, applyAll, c.apply_of_misplaced h]
  | index i =>
    obtain rfl : i = n := of_decide_eq_true included
    simp only [apply, List.getElem?_eq_getElem (show i < l.constraints.length from hn),
      Constraint.apply_of_misplaced h]

theorem applyEach_eq_ok (h : ∀ c, Constraint.apply l.shape c request = .ok (f c))
    {order : List Nat} (once : order.Nodup) (present : ∀ i ∈ order, i < l.length) :
    l.applyEach request order = (.ok (), l.mapWhere (· ∈ order) f) := by
  induction order generalizing l with
  | nil =>
    rw [mapWhere_congr (q := fun _ => false) fun _ _ => decide_eq_false List.not_mem_nil,
      mapWhere_false]
    rfl
  | cons i order ih =>
    obtain ⟨fresh, once⟩ := List.nodup_cons.mp once
    have hi := present i List.mem_cons_self
    have first : l.apply (.index i) request = (.ok (), l.mapWhere (i = ·) f) :=
      apply_eq_ok _ h fun k hk => Target.index.inj hk ▸ hi
    have others := ih (l := l.mapWhere (i = ·) f) h once fun k hk => by
      rw [length_mapWhere]
      exact present k (List.mem_cons_of_mem i hk)
    have apart (n : Nat) (hn : decide (i = n) = true) : decide (n ∈ order) = false :=
      decide_eq_false (of_decide_eq_true hn ▸ fresh)
    simp only [applyEach, first, others, mapWhere_mapWhere apart]
    congr 1
    refine mapWhere_congr fun n _ => ?_
    rw [← Bool.decide_or, decide_eq_decide, List.mem_cons, eq_comm]

theorem applyEach_of_misplaced (h : request.Misplaced l.shape) {order : List Nat}
    (perm : order.Perm (List.range l.length)) :
    l.applyEach request order = l.apply .all request := by
  cases order with
  | nil =>
    have none : l.constraints = [] := by
      simpa [length, eq_comm] using perm.length_eq
    obtain ⟨constraints, shape, registered⟩ := l
    cases none
    rfl
  | cons i order =>
    have hi : i < l.length := List.mem_range.mp (perm.mem_iff.mp List.mem_cons_self)
    have one := apply_of_misplaced (.index i) h hi (decide_eq_true rfl)
    rw [applyEach, one, apply_of_misplaced .all h hi rfl]

theorem applyEach_perm (fits : l.shape.Fits) (request : Constraint.Request) {order : List Nat}
    (perm : order.Perm (List.range l.length)) :
    l.applyEach request order = l.apply .all request := by
  by_cases misplaced : request.Misplaced l.shape
  · exact applyEach_of_misplaced misplaced perm
  · have accepts := Constraint.apply_eq_ok fits misplaced
    have within (n : Nat) : n ∈ order ↔ n < l.length := perm.mem_iff.trans List.mem_range
    rw [applyEach_eq_ok accepts (perm.nodup_iff.mpr List.nodup_range) fun n => (within n).mp,
      apply_eq_ok .all accepts nofun]
    exact congrArg _ (mapWhere_congr fun n hn => decide_eq_true ((within n).mpr hn))

theorem apply_cases (fits : l.shape.Fits) (target : Target) (request : Constraint.Request) :
    (∃ i, target = .index i ∧ l.length ≤ i ∧
      l.apply target request = (.error (.refused (.unknownConstraint (BitVec.ofNat 32 i))), l)) ∨
    (request.Misplaced l.shape ∧ (∃ n < l.length, target.includes n = true) ∧
      l.apply target request = (.error (.refused .invalidArgument), l)) ∨
    ((∀ i, target = .index i → i < l.length) ∧
      (request.Misplaced l.shape → ∀ n < l.length, target.includes n = false) ∧
      l.apply target request =
        (.ok (), l.mapWhere target.includes (·.afterApply l.shape request))) := by
  by_cases absent : ∃ i, target = .index i ∧ l.length ≤ i
  · obtain ⟨i, rfl, hi⟩ := absent
    exact .inl ⟨i, rfl, hi, apply_index_eq_refused request (List.getElem?_eq_none hi)⟩
  have present (i : Nat) (hi : target = .index i) : i < l.length :=
    Nat.not_le.mp fun hle => absent ⟨i, hi, hle⟩
  right
  by_cases misplaced : request.Misplaced l.shape
  · by_cases targeted : ∃ n < l.length, target.includes n = true
    · obtain ⟨n, hn, included⟩ := targeted
      exact .inl ⟨misplaced, ⟨n, hn, included⟩, apply_of_misplaced target misplaced hn included⟩
    · have none (n : Nat) (hn : n < l.length) : target.includes n = false :=
        Bool.eq_false_iff.mpr fun included => targeted ⟨n, hn, included⟩
      refine .inr ⟨present, fun _ => none, ?_⟩
      rw [mapWhere_congr none, mapWhere_false]
      -- A target which includes nothing and which is there is the whole of an empty ladder.
      cases target with
      | all =>
        obtain ⟨constraints, shape, registered⟩ := l
        cases constraints with
        | nil => rfl
        | cons c cs => exact nomatch none 0 (Nat.zero_lt_succ _)
      | index i =>
        have excluded := none i (present i rfl)
        exact absurd rfl (of_decide_eq_false excluded)
  · exact .inr ⟨present, fun h => absurd h misplaced,
      apply_eq_ok target (Constraint.apply_eq_ok fits misplaced) present⟩

theorem apply_eq_error_iff (fits : l.shape.Fits) (target : Target) (request : Constraint.Request)
    (failure : Failure) :
    (l.apply target request).1 = .error failure ↔
      (∃ i, target = .index i ∧ l.length ≤ i ∧
        failure = .refused (.unknownConstraint (BitVec.ofNat 32 i))) ∨
      (request.Misplaced l.shape ∧ (∃ n < l.length, target.includes n = true) ∧
        failure = .refused .invalidArgument) := by
  rcases apply_cases fits target request with
    ⟨i, rfl, hi, outcome⟩ | ⟨misplaced, targeted, outcome⟩ | ⟨present, placed, outcome⟩
  · rw [outcome]
    constructor
    · rintro ⟨⟩
      exact .inl ⟨i, rfl, hi, rfl⟩
    · rintro (⟨_, ⟨⟩, -, rfl⟩ | ⟨-, ⟨n, hn, included⟩, -⟩)
      · rfl
      · obtain rfl : i = n := of_decide_eq_true included
        exact absurd hn (Nat.not_lt.mpr hi)
  · rw [outcome]
    constructor
    · rintro ⟨⟩
      exact .inr ⟨misplaced, targeted, rfl⟩
    · rintro (⟨i, rfl, hi, -⟩ | ⟨-, -, rfl⟩)
      · obtain ⟨n, hn, included⟩ := targeted
        obtain rfl : i = n := of_decide_eq_true included
        exact absurd hn (Nat.not_lt.mpr hi)
      · rfl
  · rw [outcome]
    refine ⟨nofun, ?_⟩
    rintro (⟨i, htarget, hi, -⟩ | ⟨misplaced, ⟨n, hn, included⟩, -⟩)
    · exact absurd (present i htarget) (Nat.not_lt.mpr hi)
    · exact absurd ((placed misplaced n hn).symm.trans included) Bool.false_ne_true

theorem apply_of_ne_ok (fits : l.shape.Fits) (h : (l.apply target request).1 ≠ .ok ()) :
    (l.apply target request).2 = l := by
  rcases apply_cases fits target request with
    ⟨i, -, -, outcome⟩ | ⟨-, -, outcome⟩ | ⟨-, -, outcome⟩
  · rw [outcome]
  · rw [outcome]
  · exact absurd (congrArg Prod.fst outcome) h

theorem apply_of_ok (fits : l.shape.Fits) (h : (l.apply target request).1 = .ok ()) :
    (l.apply target request).2 = l.mapWhere target.includes (·.afterApply l.shape request) := by
  rcases apply_cases fits target request with
    ⟨i, -, -, outcome⟩ | ⟨-, -, outcome⟩ | ⟨-, -, outcome⟩
  · exact absurd (h.symm.trans (congrArg Prod.fst outcome)) nofun
  · exact absurd (h.symm.trans (congrArg Prod.fst outcome)) nofun
  · rw [outcome]

theorem changed_of_apply (fits : l.shape.Fits) (h : (l.apply target request).1 = .ok ()) {n : Nat}
    {c c' : Constraint} (hc : l.constraints[n]? = some c)
    (hc' : (l.apply target request).2.constraints[n]? = some c') :
    if target.includes n then c.Changed l.shape request c' else c' = c := by
  rw [apply_of_ok fits h, getElem?_mapWhere, hc] at hc'
  obtain rfl := Option.some.inj hc'
  dsimp only
  by_cases included : target.includes n = true
  · rw [if_pos included, if_pos included]
    have placed : ¬ request.Misplaced l.shape := fun misplaced => by
      rw [apply_of_misplaced target misplaced (List.getElem?_eq_some_iff.mp hc).1 included] at h
      cases h
    exact Constraint.changed_of_apply (c.apply_eq_ok fits placed)
  · rw [if_neg included, if_neg included]

/-- Let the tables be those of a valid layout. A request fails only if its target is not there, or
if it is to edit an entry which is not there, and then nothing is changed. If it succeeds then every
constraint of the target is changed as it says, and no other one is. A request to all constraints is
as good as one to each, in any order. -/
theorem update_all_or_nothing {layout : Clock.Layout} (accepted : layout.validate = .ok ())
    (shaped : l.shape = layout.shape) (target : Target) (request : Constraint.Request)
    (device : Device) (j : Journal) :
    ∃ result m, (l.update target request device j).1 = (result, m) ∧
      (∀ failure, result = .error failure ↔
        (∃ i, target = .index i ∧ l.length ≤ i ∧
          failure = .refused (.unknownConstraint (BitVec.ofNat 32 i))) ∨
        (request.Misplaced layout.shape ∧ (∃ n < l.length, target.includes n = true) ∧
          failure = .refused .invalidArgument)) ∧
      (result ≠ .ok () → m = l) ∧
      (result = .ok () → m.shape = l.shape ∧ m.registered = l.registered ∧ m.length = l.length ∧
        ∀ n c c', l.constraints[n]? = some c → m.constraints[n]? = some c' →
          if target.includes n then c.Changed layout.shape request c' else c' = c) ∧
      (target = .all → ∀ order, order.Perm (List.range l.length) →
        l.applyEach request order = (result, m)) := by
  rw [← shaped]
  have fits : l.shape.Fits := shaped ▸ (Clock.Layout.validate_eq_ok_iff.mp accepted).fits
  refine ⟨(l.apply target request).1, (l.apply target request).2, rfl, ?_, ?_, ?_, ?_⟩
  · exact apply_eq_error_iff fits target request
  · exact apply_of_ne_ok fits
  · intro done
    refine ⟨shape_apply .., registered_apply .., ?_, fun n c c' => changed_of_apply fits done⟩
    rw [apply_of_ok fits done, length_mapWhere]
  · rintro rfl order perm
    exact applyEach_perm fits request perm

theorem update_all_or_nothing_forbidden : ∃ l m : Ladder, l.length = 4 ∧
    ∃ layout : Clock.Layout, layout.validate = .ok () ∧ l.shape = layout.shape ∧
      l.applyEach (.editForbidden 12 1#32 true) [2, 0, 3, 1] = (.ok (), m) ∧
      (m.constraints[1]?).any (·.forbidden.plls.getLsbD 2) = true := by
  let l : Ladder := ⟨Mt8192.constraints.map Constraint.init, Mt8192.layout.shape, true⟩
  have accepted : Mt8192.layout.validate = .ok () :=
    Clock.Layout.validate_eq_ok_iff.mpr Mt8192.platform_accepted.layout
  obtain ⟨result, m, updated, -, -, -, anyOrder⟩ := update_all_or_nothing (l := l) accepted rfl .all
    (.editForbidden 12 1#32 true) (.memory fun _ => 0#32) .empty
  have inTurn := anyOrder rfl [2, 0, 3, 1] (by decide)
  have outcome : l.apply .all (.editForbidden 12 1#32 true) = (result, m) := updated
  have shows : (l.apply .all (.editForbidden 12 1#32 true)).1 = .ok () ∧
      ((l.apply .all (.editForbidden 12 1#32 true)).2.constraints[1]?).any
        (·.forbidden.plls.getLsbD 2) = true := by
    decide +kernel
  rw [outcome] at shows
  obtain rfl : result = .ok () := shows.1
  exact ⟨l, m, rfl, Mt8192.layout, accepted, rfl, inTurn, shows.2⟩

end Ladder

end LowPower

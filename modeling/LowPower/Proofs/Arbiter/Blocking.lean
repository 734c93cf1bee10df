import LowPower.Platform.Mt8192
import LowPower.Proofs.Arbiter.Run
import LowPower.Proofs.Clock.Order

namespace LowPower

open Bus (map_apply)

namespace Clock

open Table (pllShift)

/-- What a report tells of what is running and of what is forbidden, with so many PLLs. -/
structure Tells (plls : Nat) (live forbidden : Table) (report : Word) : Prop where
  domain : ∀ i (h : i < domainCapacity),
    report.getLsbD i = true ↔ live.domains[i] &&& forbidden.domains[i] ≠ 0#32
  pll : ∀ k < plls, report.getLsbD (pllShift + k) = true ↔
    live.plls.getLsbD k = true ∧ forbidden.plls.getLsbD k = true
  mark : report.getLsbD 30 = true ↔
    ∃ k < plls, live.plls.getLsbD k = true ∧ forbidden.plls.getLsbD k = true
  beyond : ∀ i, pllShift + plls ≤ i → i ≠ 30 → report.getLsbD i = false

theorem tells_of_bounded {plls : Nat} {live forbidden : Table} (fits : plls < Layout.probeBound)
    (bounded : ∀ k, live.plls.getLsbD k = true → k < plls) :
    Tells plls live forbidden (live.blockedBy forbidden) := by
  have fits : plls < 14 := fits
  have blocks {k : Nat} : (live ∩ forbidden).plls.getLsbD k = true ↔
      live.plls.getLsbD k = true ∧ forbidden.plls.getLsbD k = true := by
    rw [Table.plls_inter, BitVec.getLsbD_and, Bool.and_eq_true]
  -- Nothing runs beyond the PLLs in use, which leaves only the mark above their bits.
  have silent {k : Nat} (h : plls ≤ k) : (live ∩ forbidden).plls.getLsbD k = false :=
    Bool.eq_false_iff.mpr fun hk => Nat.not_lt.mpr h (bounded k (blocks.mp hk).1)
  constructor
  · intro i h
    rw [Table.blockedBy, Table.getLsbD_report _ h, Table.domains_inter, bne_iff_ne]
  · intro k hk
    have hmark : (pllShift + k == 30) = false := beq_false_of_ne (by rw [pllShift]; omega)
    rw [Table.blockedBy, Table.getLsbD_report_of_le _ (Nat.le_add_right _ _)
      (by rw [pllShift]; omega), Nat.add_sub_cancel_left, hmark, Bool.false_and, Bool.or_false,
      blocks]
  · rw [Table.blockedBy, Table.getLsbD_report_of_le _ (by decide) (by decide),
      silent (by rw [pllShift]; omega), Bool.false_or]
    change ((live ∩ forbidden).plls != 0#32) = true ↔ _
    rw [bne_iff_ne, Table.plls_inter, Ne, Word.and_eq_zero_iff]
    simp only [not_forall, not_not]
    exact exists_congr fun k => ⟨fun h => ⟨bounded k h.1, h⟩, And.right⟩
  · intro i hi hmark
    by_cases h32 : i < 32
    · rw [Table.blockedBy, Table.getLsbD_report_of_le _ (by omega) h32,
        silent (by omega), beq_false_of_ne hmark, Bool.false_and, Bool.or_false]
    · exact BitVec.getLsbD_of_ge _ _ (Nat.not_lt.mp h32)

end Clock

namespace Ladder

theorem readAll_alike {cs : List Constraint}
    (h : ∀ c ∈ cs, c.status.latch.report = c.status.blocked) (t : Clock.Table) :
    ∃ u : Clock.Table, ∀ clear,
      (readAll .blocked clear (.blocked t.report) cs).1 = .ok (.blocked u.report) ∧
        (readAll .latch clear (.latch t) cs).1 = .ok (.latch u) := by
  induction cs generalizing t with
  | nil => exact ⟨t, fun _ => ⟨rfl, rfl⟩⟩
  | cons c cs ih =>
    obtain ⟨hc, hcs⟩ := List.forall_mem_cons.mp h
    obtain ⟨u, hu⟩ := ih hcs (t ∪ c.status.latch)
    rw [Clock.Table.report_union, hc] at hu
    exact ⟨u, hu⟩

theorem read_alike {l : Ladder} {target : Target}
    (h : ∀ c ∈ l.targeted target, c.status.latch.report = c.status.blocked) :
    (∃ u : Clock.Table, ∀ clear, (l.read target .blocked clear).1 = .ok (.blocked u.report) ∧
      (l.read target .latch clear).1 = .ok (.latch u)) ∨
    ∃ refusal, ∀ query clear, (l.read target query clear).1 = .error (.refused refusal) := by
  have hempty : Clock.Table.empty.report = 0#32 := by decide
  cases target with
  | all =>
    obtain ⟨u, hu⟩ := readAll_alike h .empty
    rw [hempty] at hu
    refine .inl ⟨u, fun clear => ⟨?_, ?_⟩⟩
    · exact congrArg (Except.mapError Failure.broken) (hu clear).1
    · exact congrArg (Except.mapError Failure.broken) (hu clear).2
  | index i =>
    cases hc : l.constraints[i]? with
    | none => exact .inr ⟨_, fun query clear => by rw [read, hc]⟩
    | some c =>
      have hc' : l.targeted (.index i) = [c] := by rw [targeted, hc, Option.toList_some]
      obtain ⟨u, hu⟩ := readAll_alike (hc' ▸ h) .empty
      rw [hempty] at hu
      refine .inl ⟨u, fun clear => ⟨?_, ?_⟩⟩
      · rw [read, hc]
        exact congrArg (Except.mapError Failure.broken) (hu clear).1
      · rw [read, hc]
        exact congrArg (Except.mapError Failure.broken) (hu clear).2

end Ladder

namespace Arbiter

variable {p : Platform} {device live : Device} {a b : Arbiter} {i j k : Journal} {op : Operation}
  {e : Entry} {answer : Answer} {target : Target}

/-- The reports which are kept with the constraints tell of the latest look at the clocks. -/
structure Reported (a : Arbiter) : Prop where
  blocked : ∀ c ∈ a.ladder.constraints, c.status.blocked = a.clocks.blockedBy c.forbidden
  latched : ∀ c ∈ a.ladder.constraints,
    c.status.flags.contains ConstraintFlags.latchClocks = true →
      c.status.latch.report = c.status.blocked

theorem reported_refreshed (clocks : Clock.Table) (a : Arbiter) : Reported (a.refreshed clocks) := by
  constructor
  · intro c hc
    obtain ⟨c, -, rfl⟩ := List.mem_map.mp hc
    rfl
  · intro c hc latches
    obtain ⟨c, -, rfl⟩ := List.mem_map.mp hc
    change c.status.flags.contains ConstraintFlags.latchClocks = true at latches
    simp only [Constraint.check, latches, if_true]

theorem Reported.arm {core : Nat} {c : Constraint} {session : Session} {required : ResourceSet}
    (h : Reported a) (hd : Does p device (.arm core c session required) a i b j) : Reported b := by
  cases hd with
  | arm _ _ registered =>
    have hmem := List.mem_of_getElem? registered
    constructor
    · intro d hd
      rcases List.mem_or_eq_of_mem_set hd with hd | rfl
      · exact h.blocked d hd
      · exact h.blocked c hmem
    · intro d hd
      rcases List.mem_or_eq_of_mem_set hd with hd | rfl
      · exact h.latched d hd
      · exact h.latched c hmem

theorem reported_of_entry (accepted : p.Accepted) (coherent : Coherent p a)
    (entry : op.enters? = some e) (valid : e.core < p.cores)
    (h : op.step p device a j = ((.ok answer, b), k)) : Reported b := by
  rw [step_entry entry, map_apply] at h
  rcases enter_completes accepted coherent e valid device j with
    ⟨depth, b', k', hentered, completes⟩ | ⟨b', k', hbroken⟩
  · rw [hentered] at h
    cases h
    cases completes with
    | baseline => exact reported_refreshed _ _
    | constraint _ _ _ _ _ _ _ _ _ armed => exact (reported_refreshed _ _).arm armed
  · rw [hbroken] at h
    cases h

theorem Reported.replies_alike (h : Reported a) (p : Platform)
    (latches : ∀ c ∈ a.ladder.targeted target,
      c.status.flags.contains ConstraintFlags.latchClocks = true) :
    ∃ reply, ∀ query ∈ [Constraint.Query.blocked, .latch], ∀ clear device j, ∃ b k,
      (Operation.control (.query target query clear)).step p device a j =
        ((.ok (.reply reply), b), k) := by
  have alike : ∀ c ∈ a.ladder.targeted target, c.status.latch.report = c.status.blocked := by
    intro c hc
    refine h.latched c ?_ (latches c hc)
    cases target with
    | all => exact hc
    | index i => exact List.mem_of_getElem? (Option.mem_toList.mp hc)
  rcases Ladder.read_alike alike with ⟨u, hu⟩ | ⟨refusal, hrefused⟩
  · refine ⟨⟨queryStatus target, u.report.setWidth 64⟩, fun query hquery clear device j => ?_⟩
    obtain ⟨k, hstep⟩ := exists_step_query p target query clear a device j
    rcases List.mem_pair.mp hquery with rfl | rfl
    · rw [(hu clear).1] at hstep
      exact ⟨_, k, hstep⟩
    · rw [(hu clear).2] at hstep
      exact ⟨_, k, hstep⟩
  · refine ⟨.bad, fun query _ clear device j => ?_⟩
    obtain ⟨k, hstep⟩ := exists_step_query p target query clear a device j
    rw [hrefused] at hstep
    exact ⟨_, k, hstep⟩

/-- A report is zero only if nothing that is set in one table is set in the other. With a layout
which is accepted it tells apart everything that blocks, since nothing is running beyond the layout.
After an entry, also one which gives the baseline, each constraint is kept with the report of what
the entry saw, and what it latched has the same report, so that both queries agree. -/
theorem reports_tell_what_blocks :
    (∀ live forbidden : Clock.Table, live.blockedBy forbidden = 0#32 ↔
      (∀ i (h : i < Clock.domainCapacity) k,
        ¬ (live.domains[i].getLsbD k = true ∧ forbidden.domains[i].getLsbD k = true)) ∧
      ∀ k, ¬ (live.plls.getLsbD k = true ∧ forbidden.plls.getLsbD k = true)) ∧
    (∀ (layout : Clock.Layout) (map : Register.Map) (device : Device) (i : Journal),
      layout.validate = .ok () → ∃ live j, (layout.snapshot map).run device i = (.ok live, j) ∧
        ∀ forbidden, Clock.Tells layout.plls.length live forbidden (live.blockedBy forbidden) ∧
          (live.blockedBy forbidden).getLsbD 29 = false ∧
          (live.blockedBy forbidden).getLsbD 31 = false) ∧
    ∀ p device a i, Reachable p device a i → ∀ (op : Operation) e, op.enters? = some e →
      e.core < p.cores → ∀ live j answer b k, op.step p live a j = ((.ok answer, b), k) →
        Reported b ∧
        ∀ target, (∀ c ∈ b.ladder.targeted target,
            c.status.flags.contains ConstraintFlags.latchClocks = true) →
          ∃ reply, ∀ query ∈ [Constraint.Query.blocked, .latch], ∀ clear live' j', ∃ b' k',
            (Operation.control (.query target query clear)).step p live' b j' =
              ((.ok (.reply reply), b'), k') := by
  refine ⟨fun live forbidden => ?_, fun layout map device i valid => ?_, ?_⟩
  · rw [Clock.Table.blockedBy_eq_zero_iff, Clock.Table.Disjoint, Word.and_eq_zero_iff]
    simp only [Word.and_eq_zero_iff]
  · have valid := Clock.Layout.validate_eq_ok_iff.mp valid
    refine ⟨_, _, by rw [layout.run_snapshot valid, map_apply], fun forbidden => ?_⟩
    have tells : Clock.Tells _ (layout.observation map device i).1 forbidden _ :=
      Clock.tells_of_bounded valid.plls fun k => Clock.Layout.lt_of_getLsbD_observation
    have fits : layout.plls.length < 14 := valid.plls
    exact ⟨tells, tells.beyond 29 (by rw [Clock.Table.pllShift]; omega) (by decide),
      tells.beyond 31 (by rw [Clock.Table.pllShift]; omega) (by decide)⟩
  · intro p device a i reached op e entry valid live j answer b k h
    have reported := reported_of_entry reached.accepted reached.coherent entry valid h
    exact ⟨reported, fun target latches => reported.replies_alike p latches⟩

def oneRunning : Device := .memory fun r => if r = Mt8192.pllBase + 0x0308 then 1#32 else 0#32

theorem reports_tell_what_blocks_pll_running : ∃ a i b k live l,
    Reachable Mt8192.platform oneRunning a i ∧
    (Operation.idleEnter 0 0).step Mt8192.platform oneRunning a i =
      ((.ok (.depth (.constraint 1)), b), k) ∧ Reported b ∧
    (∀ query ∈ [Constraint.Query.blocked, .latch], ∃ b' k',
      (Operation.control (.query (.index 0) query false)).step Mt8192.platform oneRunning b k =
        ((.ok (.reply ⟨.stop, 0x40010000#64⟩), b'), k')) ∧
    (Mt8192.layout.snapshot Mt8192.map).run oneRunning .empty = (.ok live, l) ∧
    Clock.Tells 5 live Mt8192.bus26mForbidden (live.blockedBy Mt8192.bus26mForbidden) := by
  obtain ⟨-, tells, reports⟩ := reports_tell_what_blocks
  have idles : (replayAll Mt8192.platform oneRunning
      [.notify .all (.setFlags .firmware)]).any (fun r =>
        let s := (Operation.idleEnter 0 0).step Mt8192.platform oneRunning r.2.1 r.2.2
        s.1.1 = .ok (.depth (.constraint 1)) &&
        (s.1.2.ladder.targeted (.index 0)).all
          (·.status.flags.contains ConstraintFlags.latchClocks) &&
        ((Operation.control (.query (.index 0) .blocked false)).step Mt8192.platform oneRunning
          s.1.2 s.2).1.1 = .ok (.reply ⟨.stop, 0x40010000#64⟩)) = true := by
    decide +kernel
  obtain ⟨⟨_, a, i⟩, hrun, h⟩ := (Option.any_eq_true _ _).mp idles
  simp only [Bool.and_eq_true, decide_eq_true_eq, List.all_eq_true] at h
  obtain ⟨⟨hentered, latches⟩, hreply⟩ := h
  have reached := reachable_of_replayAll hrun
  cases hstep : (Operation.idleEnter 0 0).step Mt8192.platform oneRunning a i with
  | mk s k =>
  obtain ⟨entered, b⟩ := s
  rw [hstep] at hentered latches hreply
  subst hentered
  obtain ⟨reported, alike⟩ := reports _ _ _ _ reached _ _ rfl (by decide) _ _ _ _ _ hstep
  obtain ⟨reply, replies⟩ := alike _ latches
  obtain ⟨b', k', hblocked⟩ := replies .blocked (by decide) false oneRunning k
  rw [hblocked] at hreply
  cases hreply
  obtain ⟨live, l, looked, told⟩ := tells Mt8192.layout Mt8192.map oneRunning .empty rfl
  exact ⟨a, i, b, k, live, l, reached, hstep, reported,
    fun query hquery => replies query hquery false oneRunning k, looked,
    (told Mt8192.bus26mForbidden).1⟩

end Arbiter

end LowPower

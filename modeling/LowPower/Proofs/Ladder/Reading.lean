import LowPower.Proofs.Clock.Report
import LowPower.Proofs.Ladder.Completion

namespace LowPower

namespace Constraint

def share (query : Query) (c : Constraint) : Word64 :=
  match query with
  | .flags => c.status.flags.bits.setWidth 64
  | .entries => c.status.entries.setWidth 64
  | .residency => c.status.residency
  | .blocked => c.status.blocked.setWidth 64
  | .latch => c.status.latch.report.setWidth 64
  | .resources => c.keeps.bits.setWidth 64

/-- The answer to a query for counts is the sum of some values, and that to any other query has
the bits of all of them. -/
def Query.Combines (query : Query) (values : List Word64) (value : Word64) : Prop :=
  match query with
  | .entries | .residency => value.toNat = (values.map (·.toNat)).sum
  | .flags | .blocked | .latch | .resources => value = values.foldl (· ||| ·) 0#64

/-- The residency of a constraint is zero now, and it was changed in nothing else. -/
structure Cleared (c c' : Constraint) : Prop where
  residency : c'.status.residency = 0#64
  rest : c' = { c with status.residency := c'.status.residency }

theorem cleared_clearResidency (c : Constraint) : c.Cleared c.clearResidency := ⟨rfl, rfl⟩

theorem Query.combines_nil (query : Query) : query.Combines [] (Reading.zero query).value := by
  cases query with
  | latch =>
    change Clock.Table.empty.report.setWidth 64 = 0#64
    decide
  | _ => rfl

theorem Query.combines_singleton_iff {query : Query} {x value : Word64} :
    query.Combines [x] value ↔ value = x := by
  cases query with
  | entries | residency =>
    change value.toNat = x.toNat + 0 ↔ _
    rw [Nat.add_zero, BitVec.toNat_inj]
  | flags | blocked | latch | resources =>
    change value = 0#64 ||| x ↔ _
    rw [BitVec.zero_or]

namespace Reading

variable {reading next : Reading} {c : Constraint} {values : List Word64}

theorem query_add (h : reading.add c = .ok next) : next.query = reading.query := by
  cases reading with
  | entries count =>
    rw [add, addCounts] at h
    split at h
    · cases h
    · cases h
      rfl
  | residency ticks =>
    rw [add, addCounts] at h
    split at h
    · cases h
    · cases h
      rfl
  | _ =>
    cases h
    rfl

theorem toNat_addCounts {x y z : Word64} (h : addCounts x y = .ok z) :
    z.toNat = x.toNat + y.toNat := by
  rw [addCounts] at h
  split at h
  · cases h
  · next fits =>
    cases h
    exact BitVec.toNat_add_of_not_uaddOverflow fits

theorem combines_add (h : reading.add c = .ok next)
    (combined : reading.query.Combines values reading.value) :
    reading.query.Combines (values ++ [c.share reading.query]) next.value := by
  have counted {x y z : Word64} (hadd : addCounts x y = .ok z)
      (hx : x.toNat = (values.map (·.toNat)).sum) :
      z.toNat = ((values ++ [y]).map (·.toNat)).sum := by
    rw [toNat_addCounts hadd, hx, List.map_append, List.sum_append]
    rfl
  have joined {x y : Word64} (hx : x = values.foldl (· ||| ·) 0#64) :
      x ||| y = (values ++ [y]).foldl (· ||| ·) 0#64 := by
    rw [List.foldl_concat, ← hx]
  cases reading with
  | entries count =>
    cases hadd : addCounts count (c.status.entries.setWidth 64) with
    | error fault => simp [add, hadd, Except.map] at h
    | ok sum =>
      simp only [add, hadd, Except.map] at h
      cases h
      exact counted hadd combined
  | residency ticks =>
    cases hadd : addCounts ticks c.status.residency with
    | error fault => simp [add, hadd, Except.map] at h
    | ok sum =>
      simp only [add, hadd, Except.map] at h
      cases h
      exact counted hadd combined
  | flags flags =>
    cases h
    exact (BitVec.setWidth_or ..).trans (joined combined)
  | blocked report =>
    cases h
    exact (BitVec.setWidth_or ..).trans (joined combined)
  | resources set =>
    cases h
    exact (BitVec.setWidth_or ..).trans (joined combined)
  | latch table =>
    cases h
    -- The table is reported after the union, and both of its parts are reported before it.
    have reported : (Reading.latch (table ∪ c.status.latch)).value =
        table.report.setWidth 64 ||| c.status.latch.report.setWidth 64 := by
      rw [value, Clock.Table.report_union, BitVec.setWidth_or]
    exact reported.trans (joined combined)

end Reading

end Constraint

namespace Ladder

variable {query : Constraint.Query} {clear : Bool} {l : Ladder}

theorem combines_readAll {reading last : Constraint.Reading} {values : List Word64}
    {cs cs' : List Constraint} (h : readAll query clear reading cs = (.ok last, cs'))
    (hquery : reading.query = query) (combined : query.Combines values reading.value) :
    query.Combines (values ++ cs.map (·.share query)) last.value := by
  induction cs generalizing reading values cs' with
  | nil =>
    cases h
    rwa [List.map_nil, List.append_nil]
  | cons c cs ih =>
    rw [readAll] at h
    split at h
    · cases h
    · next next hadd =>
      cases hrest : readAll query clear next cs with
      | mk result rest =>
        simp only [hrest] at h
        cases h
        subst hquery
        have combined' := Constraint.Reading.combines_add hadd combined
        have := ih hrest (Constraint.Reading.query_add hadd) combined'
        rwa [List.append_assoc] at this

theorem fst_readAll (reading : Constraint.Reading) (cs : List Constraint) :
    (readAll query clear reading cs).1 = (readAll query false reading cs).1 := by
  induction cs generalizing reading with
  | nil => rfl
  | cons c cs ih =>
    rw [readAll, readAll]
    cases reading.add c with
    | error fault => rfl
    | ok next => exact ih next

theorem fst_read (target : Target) :
    (l.read target query clear).1 = (l.read target query false).1 := by
  cases target with
  | all => exact congrArg (Except.mapError Failure.broken) (fst_readAll _ _)
  | index i =>
    simp only [read]
    split
    · rfl
    · exact congrArg (Except.mapError Failure.broken) (fst_readAll _ _)

theorem combines_read_all {reading : Constraint.Reading}
    (h : (l.read .all query clear).1 = .ok reading) :
    query.Combines (l.constraints.map (·.share query)) reading.value := by
  cases hread : readAll query clear (.zero query) l.constraints with
  | mk result cs =>
    simp only [read, hread] at h
    cases result with
    | error fault => cases h
    | ok last =>
      cases h
      exact combines_readAll hread (Constraint.Reading.query_zero query) query.combines_nil

theorem value_read_index {reading : Constraint.Reading} {i : Nat} {c : Constraint}
    (hc : l.constraints[i]? = some c) (h : (l.read (.index i) query clear).1 = .ok reading) :
    reading.value = c.share query := by
  cases hread : readAll query clear (.zero query) [c] with
  | mk result cs =>
    simp only [read, hc, hread] at h
    cases result with
    | error fault => cases h
    | ok last =>
      cases h
      exact Constraint.Query.combines_singleton_iff.mp
        (combines_readAll hread (Constraint.Reading.query_zero query) query.combines_nil)

theorem eq_map_share {values : List Word64} (hlength : values.length = l.length)
    (each : ∀ i < l.length, ∃ r, (l.read (.index i) query false).1 = .ok r ∧
      values[i]? = some r.value) :
    values = l.constraints.map (·.share query) := by
  refine List.ext_getElem? fun i => ?_
  by_cases hi : i < l.length
  · obtain ⟨r, alone, hvalue⟩ := each i hi
    have hc : l.constraints[i]? = some l.constraints[i] := List.getElem?_eq_getElem hi
    rw [hvalue, List.getElem?_map, hc, value_read_index hc alone, Option.map_some]
  · have beyond : l.constraints.length ≤ i := Nat.not_lt.mp hi
    rw [List.getElem?_eq_none (hlength ▸ beyond), List.getElem?_map,
      List.getElem?_eq_none beyond, Option.map_none]

theorem snd_read (h : l.total query < 2 ^ 64) (target : Target) :
    (l.read target query clear).2 = l.mapWhere target.includes (·.afterRead query clear) := by
  cases target with
  | all =>
    obtain ⟨reading, hread⟩ := read_all_eq_ok clear h
    rw [hread]
    exact mapWhere_true.symm
  | index i =>
    cases hc : l.constraints[i]? with
    | none =>
      rw [read_index_eq_refused query clear hc]
      have absent : l.length ≤ i := List.getElem?_eq_none_iff.mp hc
      have none (n : Nat) (hn : n < l.length) : (Target.index i).includes n = false :=
        decide_eq_false (Nat.ne_of_gt (Nat.lt_of_lt_of_le hn absent))
      rw [mapWhere_congr none, mapWhere_false]
    | some c =>
      obtain ⟨reading, hread⟩ := read_index_eq_ok query clear hc
      rw [hread]
      exact (mapWhere_eq_set hc).symm

/-- The residencies of a target are zero now, and nothing else of the ladder was changed. -/
structure Cleared (target : Target) (l l' : Ladder) : Prop where
  shape : l'.shape = l.shape
  registered : l'.registered = l.registered
  length : l'.length = l.length
  constraints : ∀ n c c', l.constraints[n]? = some c → l'.constraints[n]? = some c' →
    if target.includes n then c.Cleared c' else c' = c

theorem Cleared.forall_residency {l' : Ladder} (cleared : l.Cleared .all l') :
    ∀ c ∈ l'.constraints, c.status.residency = 0#64 := by
  intro c hc
  obtain ⟨n, hn, rfl⟩ := List.mem_iff_getElem.mp hc
  have present : n < l.constraints.length := Nat.lt_of_lt_of_eq hn cleared.length
  exact (cleared.constraints n _ _ (List.getElem?_eq_getElem present)
    (List.getElem?_eq_getElem hn)).residency

theorem cleared_mapWhere (target : Target) :
    l.Cleared target (l.mapWhere target.includes Constraint.clearResidency) := by
  refine ⟨rfl, rfl, length_mapWhere, fun n c c' hc hc' => ?_⟩
  rw [getElem?_mapWhere, hc] at hc'
  obtain rfl := Option.some.inj hc'
  cases target.includes n with
  | true => exact c.cleared_clearResidency
  | false => rfl

theorem snd_read_of_clears (h : l.total query < 2 ^ 64) (clears : clear ∧ query = .residency)
    (target : Target) : l.Cleared target (l.read target query clear).2 := by
  have same : (fun c : Constraint => c.afterRead query clear) = Constraint.clearResidency :=
    funext fun _ => if_pos clears
  rw [snd_read h, same]
  exact cleared_mapWhere target

theorem snd_read_of_keeps (h : l.total query < 2 ^ 64) (keeps : ¬ (clear ∧ query = .residency))
    (target : Target) : (l.read target query clear).2 = l := by
  have same : (fun c : Constraint => c.afterRead query clear) = id :=
    funext fun _ => if_neg keeps
  rw [snd_read h, same, mapWhere_id]

/-- Let the residencies of a ladder have a sum which fits. A query to all constraints gives the
values which the queries to each of them give, added for counts and joined for anything else. The
answer is the same whether the residencies are cleared or not. If they are, then those of the target
are zero afterwards, and nothing else is changed. -/
theorem read_combines (room : l.length ≤ capacity)
    (fits : (l.constraints.map (·.status.residency.toNat)).sum < 2 ^ 64)
    (query : Constraint.Query) (clear : Bool) :
    (∃ reading values, (l.read .all query clear).1 = .ok reading ∧ values.length = l.length ∧
      (∀ i < l.length, ∃ r, (l.read (.index i) query false).1 = .ok r ∧
        values[i]? = some r.value) ∧
      query.Combines values reading.value) ∧
    (∀ target, (l.read target query clear).1 = (l.read target query false).1 ∧
      if clear ∧ query = .residency then l.Cleared target (l.read target query clear).2
      else (l.read target query clear).2 = l) ∧
    ∀ i, l.length ≤ i → l.read (.index i) query clear =
      (.error (.refused (.unknownConstraint (BitVec.ofNat 32 i))), l) := by
  have counts : l.total query < 2 ^ 64 := by
    by_cases hquery : query = .residency
    · exact hquery ▸ fits
    · exact total_lt room hquery
  refine ⟨?_, fun target => ⟨fst_read target, ?_⟩, fun i hi => ?_⟩
  · obtain ⟨reading, hread⟩ := read_all_eq_ok clear counts
    have answered := congrArg Prod.fst hread
    refine ⟨reading, l.constraints.map (·.share query), answered, List.length_map .., ?_,
      combines_read_all answered⟩
    intro i hi
    have hc : l.constraints[i]? = some l.constraints[i] := List.getElem?_eq_getElem hi
    obtain ⟨r, hr⟩ := read_index_eq_ok query false hc
    have alone := congrArg Prod.fst hr
    refine ⟨r, alone, ?_⟩
    rw [value_read_index hc alone, List.getElem?_map, hc]
    rfl
  · split
    · next clears => exact snd_read_of_clears counts clears target
    · next keeps => exact snd_read_of_keeps counts keeps target
  · exact read_index_eq_refused query clear (List.getElem?_eq_none hi)

theorem read_combines_cleared : ∃ (l m : Ladder) (slept joined : Constraint.Reading),
    l.read .all .residency true = (.ok slept, m) ∧
      Constraint.Query.residency.Combines [5#64, 7#64] slept.value ∧ slept.value = 12#64 ∧
      (∀ c ∈ m.constraints, c.status.residency = 0#64) ∧ l.Cleared .all m ∧
      l.read .all .latch true = (.ok joined, l) ∧
      Constraint.Query.latch.Combines [0x40010000#64, 0x40020000#64] joined.value ∧
      joined.value = 0x40030000#64 := by
  let used (ticks : Word64) (plls : Word) (c : Constraint) : Constraint :=
    { c with status.residency := ticks, status.latch := .ofList [] plls }
  let l : Ladder := ⟨[used 5#64 1#32 (.new .syspll .empty), used 7#64 2#32 (.new .dram .empty)],
    ⟨0, 2⟩, true⟩
  obtain ⟨⟨slept, ticks, hslept, hticks, eachTicks, added⟩, afterTicks, -⟩ :=
    read_combines (l := l) (by decide) (by decide) .residency true
  obtain ⟨⟨joined, reports, hjoined, hreports, eachReport, union⟩, afterReports, -⟩ :=
    read_combines (l := l) (by decide) (by decide) .latch true
  have tables : l.constraints.map (·.share .latch) = [0x40010000#64, 0x40020000#64] := by
    decide +kernel
  rw [eq_map_share hticks eachTicks] at added
  rw [eq_map_share hreports eachReport, tables] at union
  have cleared : l.Cleared .all (l.read .all .residency true).2 := (afterTicks .all).2
  have kept : (l.read .all .latch true).2 = l := (afterReports .all).2
  exact ⟨l, (l.read .all .residency true).2, slept, joined, Prod.ext hslept rfl, added,
    BitVec.eq_of_toNat_eq added, cleared.forall_residency, cleared, Prod.ext hjoined kept, union,
    union⟩

end Ladder

end LowPower

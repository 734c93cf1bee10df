import LowPower.Platform.Mt8192
import LowPower.Proofs.Arbiter.Run
import Mathlib.Order.Bounds.Basic

namespace LowPower

open Bus (attempt map_apply)

theorem Constraint.enterable_residency (clocks : Clock.Table) (votes : Votes) (c : Constraint)
    (residency : Word64) :
    ({ c with status.residency := residency } : Constraint).Enterable clocks votes ↔
      c.Enterable clocks votes :=
  ⟨fun h => ⟨h.1, h.2, h.3, h.4⟩, fun h => ⟨h.1, h.2, h.3, h.4⟩⟩

theorem Ladder.enterable_set {l : Ladder} {i : Nat} {c c' : Constraint} {clocks : Clock.Table}
    {votes : Votes} (hc : l.constraints[i]? = some c)
    (h : c'.Enterable clocks votes ↔ c.Enterable clocks votes) (start : Nat) :
    ({ l with constraints := l.constraints.set i c' } : Ladder).enterable clocks votes start =
      l.enterable clocks votes start := by
  obtain ⟨hi, hget⟩ := List.getElem?_eq_some_iff.mp hc
  ext k
  change (_ ∧ ∃ d, (l.constraints.set i c')[k]? = some d ∧ _) ↔ _ ∧ ∃ d, _ ∧ _
  by_cases hk : i = k
  · subst hk
    simp [hi, hget, h]
  · rw [List.getElem?_set_ne hk]

namespace Arbiter

variable {p : Platform} {device live : Device} {a b : Arbiter} {i j : Journal} {core : Nat}
  {left : Option Session} {ds : List Deed} {op : Operation} {e : Entry}

theorem Closing.enterable (h : Closing a core left ds) (done : DoesAll p device ds a i b j)
    (clocks : Clock.Table) (start : Nat) :
    b.ladder.enterable clocks b.votes start = a.ladder.enterable clocks a.votes start := by
  cases h with
  | idle =>
    cases done
    rfl
  | wake =>
    cases done with
    | cons head tail =>
      cases tail
      cases head with
      | wake _ registered _ accounted _ =>
        obtain ⟨residency, rfl⟩ := Constraint.account_eq_ok accounted
        exact Ladder.enterable_set registered
          (Constraint.enterable_residency clocks a.votes _ residency) start

theorem Closing.untouched (h : Closing a core left ds) (done : DoesAll p device ds a i b j)
    (closed : a.session? core = none) : b = a ∧ j = i := by
  cases h with
  | idle =>
    cases done
    exact ⟨rfl, rfl⟩
  | wake _ opened =>
    rw [closed] at opened
    cases opened

theorem Does.clocks_arm {c : Constraint} {session : Session} {required : ResourceSet}
    (h : Does p device (.arm core c session required) a i b j) : b.clocks = a.clocks := by
  cases h
  rfl

/-- An entry first leaves the session which is still open, then looks at the clocks, and then
takes the least place which may be entered. If there is none, it does nothing else but read. -/
theorem entry_takes_least (reached : Reachable p device a i) (entry : op.enters? = some e)
    (valid : e.core < p.cores) (live : Device) (j : Journal)
    (unbroken : (op.step p live a j).1.1 ≠ .error .addOverflow) :
    ∃ depth b k left u l clocks m notices,
      op.step p live a j = ((.ok (.depth depth), b), k) ∧ b.clocks = clocks ∧
      attempt (close p e.core) a live { j with notices } = ((.ok left, u), l) ∧
      (a.session? e.core = none → u = a ∧ l = { j with notices }) ∧
      (p.layout.snapshot p.map).run live l = (.ok clocks, m) ∧
      (∀ index, depth = .constraint index ↔
        IsLeast (a.ladder.enterable clocks a.votes e.start) index) ∧
      (depth = .baseline ↔ a.ladder.enterable clocks a.votes e.start = ∅) ∧
      (depth = .baseline →
        ∃ reads, k.events = reads ++ l.events ∧ ∀ event ∈ reads, event.IsRead) := by
  have coherent := reached.coherent
  rw [step_entry entry, map_apply] at unbroken ⊢
  rcases enter_completes reached.accepted coherent e valid live j with
    ⟨depth, b, k, hentered, completes⟩ | ⟨b, k, hbroken⟩
  · rw [hentered]
    cases completes with
    | @baseline left ds u l m clocks notices notices' _ _ closed closing done looked unselected =>
      have hempty := (Ladder.select?_check_eq_none_iff clocks u.votes e.start u.ladder).mp
        unselected
      rw [closing.enterable done] at hempty
      obtain ⟨reads, hreads, hread⟩ := p.layout.emits_observation p.map live l
      rw [looked] at hreads
      refine ⟨.baseline, _, _, left, u, l, clocks, m, _, rfl, rfl, closed,
        closing.untouched done, ?_, fun index => ?_, iff_of_true rfl hempty,
        fun _ => ⟨reads, hreads, hread⟩⟩
      · rw [p.layout.run_snapshot reached.accepted.layout, map_apply, looked]
      · rw [hempty]
        exact ⟨nofun, fun h => h.1.elim⟩
    | @constraint left ds u b' l m k' clocks index c notices notices' _ _ closed closing done looked
        selected armed =>
      have hclocks : b.clocks = clocks := armed.clocks_arm
      have hleast := (Ladder.select?_check_eq_some_iff clocks u.votes e.start index u.ladder).mp
        selected
      -- The choice was made after the session was left, but no entry notices the difference.
      rw [closing.enterable done] at hleast
      refine ⟨.constraint index, _, _, left, u, l, clocks, m, _, rfl, hclocks, closed,
        closing.untouched done, ?_, fun other => ?_, ?_, nofun⟩
      · rw [p.layout.run_snapshot reached.accepted.layout, map_apply, looked]
      · constructor
        · intro h
          cases h
          exact hleast
        · exact fun h => congrArg Depth.constraint (IsLeast.unique hleast h)
      · refine ⟨nofun, fun hempty => ?_⟩
        rw [hempty] at hleast
        exact hleast.1.elim
  · rw [hbroken] at unbroken
    exact absurd rfl unbroken

theorem entry_takes_least_again : ∃ a i clocks,
    Reachable Mt8192.platform (.memory fun _ => 0#32) a i ∧ (a.session? 0).isSome = true ∧
    IsLeast (a.ladder.enterable clocks a.votes 1) 1 := by
  have enters : (replayAll Mt8192.platform (.memory fun _ => 0#32)
      [.notify .all (.setFlags .firmware), .idleEnter 0 0]).any (fun r =>
        (r.2.1.session? 0).isSome && ((Operation.idleEnter 0 1).step Mt8192.platform
          (.memory fun _ => 0#32) r.2.1 r.2.2).1.1 = .ok (.depth (.constraint 1))) = true := by
    decide +kernel
  obtain ⟨⟨ops, a, i⟩, hrun, h⟩ := (Option.any_eq_true _ _).mp enters
  obtain ⟨hopen, hstep⟩ := Bool.and_eq_true_iff.mp h
  have hstep := of_decide_eq_true hstep
  have reached := reachable_of_replayAll hrun
  have entry : (Operation.idleEnter 0 1).enters? = some ⟨0, 1, .idle, ∅⟩ := rfl
  obtain ⟨depth, b, k, left, u, l, clocks, m, notices, hdone, -, -, -, -, hleast, -⟩ :=
    entry_takes_least reached entry (by decide) (.memory fun _ => 0#32) i
      (by rw [hstep]; exact nofun)
  rw [hdone] at hstep
  cases hstep
  exact ⟨a, i, clocks, reached, hopen, (hleast 1).mp rfl⟩

end Arbiter

end LowPower

import LowPower.Proofs.Arbiter.Setup
import LowPower.Proofs.Ladder.Nesting

/-!
The MT8192 degrades gracefully. Its forbidden tables and what its constraints keep are nested, so
whatever is running or voted for bars some of the deepest constraints and leaves all others.
-/

namespace LowPower.Mt8192

open Arbiter (Reachable Started Steps Takes)
open Constraint (Setup setup)

def built : Ladder := ⟨constraints.map Constraint.init, layout.shape, true⟩

/-- The firmware is ready for every constraint, and else the flags and the tables are as they were
built. -/
def FirmwareReady (l : Ladder) : Prop := ∀ n, l.observe setup n = built.ready.observe setup n

theorem nested_ready : built.ready.Nested :=
  ⟨by decide +kernel, _, rfl, by decide +kernel⟩

theorem observe_setup_ready (n : Nat) :
    built.ready.observe setup n = (built.observe setup n).map Setup.ready :=
  Ladder.observe_map Constraint.setup_setFirmware n built

namespace FirmwareReady

variable {l : Ladder}

theorem enterable_eq (h : FirmwareReady l) (clocks : Clock.Table) (votes : Votes) (start : Nat) :
    l.enterable clocks votes start = built.ready.enterable clocks votes start :=
  Ladder.enterable_congr Constraint.enterable_of_setup_eq h

theorem uncounted (h : FirmwareReady l) {c : Constraint} (hc : c ∈ l.constraints) :
    c.status.flags.contains ConstraintFlags.residency = false := by
  obtain ⟨n, hn⟩ := List.mem_iff_getElem?.mp hc
  have same := h n
  rw [Ladder.observe, Ladder.observe, hn, Option.map_some, eq_comm, Option.map_eq_some_iff] at same
  obtain ⟨d, hd, hsetup⟩ := same
  have uncounted : ∀ d ∈ built.ready.constraints,
      d.status.flags.contains ConstraintFlags.residency = false := by decide +kernel
  have flags : d.status.flags = c.status.flags := congrArg Setup.flags hsetup
  exact flags ▸ uncounted d (List.mem_of_getElem? hd)

end FirmwareReady

/-- Let the firmware be ready for every constraint, and let nothing else have been asked for that is
about flags or tables. Whatever the registers hold and whatever is voted for, a constraint which
may be entered leaves all shallower ones that may be, an idle entry takes its hint or the deepest
one which may be entered, whichever is shallower, and only a hint beyond the last constraint gives
the baseline. -/
theorem degrades_gracefully :
    (∀ device a i ops b j, Started platform device a i → Steps platform device a i ops b j →
      (∀ o ∈ ops, o.1.adjusts = true → o.1 = .notify .all (.setFlags .firmware)) →
      .notify .all (.setFlags .firmware) ∈ ops.map (·.1) → FirmwareReady b.ladder) ∧
    ∀ device a i, Reachable platform device a i → FirmwareReady a.ladder →
      (∀ clocks votes, ∀ n ∈ a.ladder.enterable clocks votes 0, ∀ m, n ≤ m → m ≤ 3 →
        m ∈ a.ladder.enterable clocks votes 0) ∧
      ∀ votes live j, ∀ core < 8, ∃ k ≤ 3, ∀ hint, ∃ b m,
        (Operation.idleEnter core hint).step platform live { a with votes } j =
          ((.ok (.depth (if hint ≤ 3 then .constraint (max hint k) else .baseline)), b), m) := by
  refine ⟨?_, fun device a i reached ready => ⟨?_, ?_⟩⟩
  · intro device a i ops b j started steps kept set n
    obtain ⟨accepted, ⟨l, rfl, hconstraints, -⟩, -⟩ := started.fresh
    rw [steps.observe_setup accepted (.initial l) kept, if_pos set, observe_setup_ready]
    change ((l.constraints[n]?).map setup).map _ = _
    rw [hconstraints]
    rfl
  · intro clocks votes n hn m hnm hm
    rw [ready.enterable_eq] at hn ⊢
    exact nested_ready.upward hn hnm (Nat.lt_succ_of_le hm)
  · intro votes live j core valid
    have coherent : Arbiter.Coherent platform { a with votes } := reached.coherent.of_eq rfl rfl rfl
    have settles : ¬ Arbiter.Overfull { a with votes } core :=
      Arbiter.not_overfull fun _ => ready.uncounted
    -- One look at the clocks serves all hints, and so does the deepest place they leave.
    obtain ⟨clocks, takes⟩ := Arbiter.enter_takes reached.accepted coherent valid settles live j
    obtain ⟨k, hk, least⟩ := nested_ready.exists_isLeast clocks votes
    refine ⟨k, Nat.le_of_lt_succ hk, fun hint => ?_⟩
    obtain ⟨depth, b, m, hentered, taken⟩ := takes hint .idle ∅
    refine ⟨b, m, ?_⟩
    change Takes (a.ladder.enterable clocks votes hint) depth at taken
    rw [ready.enterable_eq] at taken
    obtain rfl : depth = if hint ≤ 3 then .constraint (max hint k) else .baseline := by
      split
      · next hle => exact taken.unique (.least ((least hint).1 (Nat.lt_succ_of_le hle)))
      · next hlt => exact taken.unique (.baseline ((least hint).2 (Nat.not_le.mp hlt)))
    rw [Arbiter.step_idleEnter, Bus.map_apply, hentered]
    rfl

theorem degrades_gracefully_voted : ∃ a i,
    Reachable platform (.memory fun _ => 0#32) a i ∧ FirmwareReady a.ladder ∧
    ∀ hint, ∃ b m, (Operation.idleEnter 0 hint).step platform (.memory fun _ => 0#32) a i =
      ((.ok (.depth (if hint ≤ 3 then .constraint (max hint 2) else .baseline)), b), m) := by
  have voted : (Arbiter.replayAll platform (.memory fun _ => 0#32)
      [.idleEnter 0 0, .notify .all (.setFlags .firmware), .vote .syspll true]).any (fun r =>
        r.1.all (fun o => !o.1.adjusts || o.1 = .notify .all (.setFlags .firmware)) &&
        (r.1.map (·.1)).contains (.notify .all (.setFlags .firmware)) &&
        ((Operation.idleEnter 0 0).step platform (.memory fun _ => 0#32) r.2.1 r.2.2).1.1 =
          .ok (.depth (.constraint 2))) = true := by
    decide +kernel
  obtain ⟨⟨ops, a, i⟩, hrun, h⟩ := (Option.any_eq_true _ _).mp voted
  simp only [Bool.and_eq_true, List.all_eq_true, List.contains_iff_mem, Bool.or_eq_true,
    Bool.not_eq_true', decide_eq_true_eq] at h
  obtain ⟨⟨kept, set⟩, taken⟩ := h
  obtain ⟨_, _, started, steps⟩ := Arbiter.run_of_replayAll hrun
  have reached := Arbiter.reachable_of_replayAll hrun
  have ready := degrades_gracefully.1 _ _ _ _ _ _ started steps
    (fun o ho adjusts => (kept o ho).resolve_left fun h => Bool.false_ne_true (h.symm.trans adjusts))
    set
  obtain ⟨k, -, hints⟩ := (degrades_gracefully.2 _ _ _ reached ready).2 a.votes
    (.memory fun _ => 0#32) i 0 (by decide)
  obtain ⟨b, m, deepest⟩ := hints 0
  have hk : k = 2 := by
    change (Operation.idleEnter 0 0).step platform (.memory fun _ => 0#32) a i = _ at deepest
    rw [deepest] at taken
    simpa using taken
  exact ⟨a, i, reached, ready, hk ▸ hints⟩

end LowPower.Mt8192

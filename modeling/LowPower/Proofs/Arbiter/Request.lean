import LowPower.Platform.Mt8192
import LowPower.Proofs.Arbiter.Run
import LowPower.Proofs.Arbiter.Script
import LowPower.Proofs.Ladder.Observation

namespace LowPower

open Bus (Event Script attempt)
open Bus.Script (Shows)

namespace Arbiter

variable {p : Platform} {device live : Device} {a b : Arbiter} {i j k : Journal} {core : Nat}
  {left : Option Session} {ds : List Deed}

theorem Closing.votes (h : Closing a core left ds) (done : DoesAll p device ds a i b j) :
    b.votes = a.votes := by
  cases h with
  | idle =>
    cases done
    rfl
  | wake =>
    cases done with
    | cons head tail =>
      cases tail
      cases head
      rfl

theorem Closing.variant (h : Closing a core left ds) (done : DoesAll p device ds a i b j)
    (n : Nat) : b.ladder.observe (·.variant) n = a.ladder.observe (·.variant) n := by
  cases h with
  | idle =>
    cases done
    rfl
  | wake =>
    cases done with
    | cons head tail =>
      cases tail
      cases head with
      | wake _ registered _ accounted _ =>
        obtain ⟨residency, rfl⟩ := Constraint.account_eq_ok accounted
        exact Ladder.observe_set_of_eq registered rfl

theorem Does.arm_request {c : Constraint} {session : Session} {required : ResourceSet}
    (h : Does p device (.arm core c session required) a i b j) :
    a.ladder.constraints[session.constraint]? = some c ∧ c.honours a.votes.required = true ∧
      Sequencer.request session required = c.keeps := by
  cases h with
  | arm _ _ registered accepted _ =>
    have honoured := (Bool.and_eq_true_iff.mp accepted).2
    exact ⟨registered, honoured, Constraint.request_prepare rfl honoured⟩

/-- Whatever was done before and whatever is asked for, an entry requests once, and what it
requests is what its constraint keeps, in which all is contained that is voted for. -/
theorem entry_requests_kept (distinct : p.map.Distinct) (reached : Reachable p device a i)
    (e : Entry) {index : Nat}
    (entered : attempt (enter p e.core e.start e.kind e.extra) a live j =
      ((.ok (.constraint index), b), k)) :
    ∃ (c : Constraint) (es : List Event), a.ladder.constraints[index]? = some c ∧
      k.events = es.reverse ++ j.events ∧
      es.filterMap (·.writtenTo? p.map.sourceRequest) = [c.keeps.bits] ∧
      ∀ r, a.votes.count r ≠ 0 → c.keeps.contains r.toSet = true := by
  have valid : e.core < p.cores := by
    apply Nat.lt_of_not_le
    intro invalid
    rw [enter, if_pos invalid] at entered
    cases entered
  rcases enter_completes reached.accepted reached.coherent e valid live j with
    ⟨depth, b', k', hentered, completes⟩ | ⟨b', k', hbroken⟩
  · cases hentered.symm.trans entered
    cases completes with
    | @constraint _ ds u _ l m _ clocks _ c _ _ _ _ _ closing done looked _ armed =>
      obtain ⟨registered, honoured, requested⟩ := armed.arm_request
      -- Neither the leave nor the look at the clocks changes votes or variants.
      have hvariant : (u.ladder.check clocks).observe (·.variant) index = some c.variant :=
        congrArg (Option.map Constraint.variant) registered
      rw [Ladder.observe_check fun _ => rfl, closing.variant done] at hvariant
      obtain ⟨c', hc', hkeeps⟩ := Option.map_eq_some_iff.mp hvariant
      have hkeeps : c'.keeps = c.keeps := congrArg Constraint.Variant.keeps hkeeps
      have votes : u.votes = a.votes := closing.votes done
      change c.honours u.votes.required = true at honoured
      rw [votes] at honoured
      obtain ⟨es, hes, hdone⟩ := done.events
      obtain ⟨fs, hfs, hlooked⟩ :=
        (Bus.Follows.of_emits (p.layout.emits_observation p.map)).events looked
      obtain ⟨gs, hgs, harmed⟩ := armed.events
      have closes : es.filterMap (Event.writtenTo? p.map.sourceRequest) = [] :=
        shows_closing (r := .sourceRequest) distinct (by decide) _ es (closing.script_le p.map hes)
      have looks := Shows.reads p.map.sourceRequest fs hfs
      have arms := Constraint.shows_launching distinct _ c _ gs hgs
      refine ⟨c', es ++ (fs ++ gs), hc', ?_, ?_, ?_⟩
      · rw [harmed, hlooked, hdone]
        simp
      · rw [List.filterMap_append, List.filterMap_append, closes, looks, arms, requested, hkeeps]
        rfl
      · rw [hkeeps]
        exact Votes.contains_required.mp honoured
  · cases hbroken.symm.trans entered

theorem entry_requests_kept_ignoring_votes : ∃ (a : Arbiter) (i : Journal) (c : Constraint)
    (es : List Event), Reachable Mt8192.platform (.memory fun _ => 0#32) a i ∧
      a.votes.count .syspll = 1 ∧
      es.filterMap (·.writtenTo? Mt8192.map.sourceRequest) = [c.keeps.bits] ∧
      c.keeps.contains Resource.syspll.toSet = true := by
  have enters : (replayAll Mt8192.platform (.memory fun _ => 0#32)
      [.notify .all (.setFlags .firmware), .vote .syspll true]).any (fun r =>
        r.2.1.votes.count .syspll = 1 && (attempt (enter Mt8192.platform 0 0 .suspend
          .ignoreVotes) r.2.1 (.memory fun _ => 0#32) r.2.2).1.1 = .ok (.constraint 2)) = true := by
    decide +kernel
  obtain ⟨⟨ops, a, i⟩, hrun, h⟩ := (Option.any_eq_true _ _).mp enters
  obtain ⟨hvoted, hentered⟩ := Bool.and_eq_true_iff.mp h
  have hvoted := of_decide_eq_true hvoted
  have hentered := of_decide_eq_true hentered
  have reached := reachable_of_replayAll hrun
  obtain ⟨c, es, -, -, hrequested, hkept⟩ := entry_requests_kept Mt8192.map_distinct reached
    ⟨0, 0, .suspend, .ignoreVotes⟩ (Prod.ext (Prod.ext hentered rfl) rfl)
  exact ⟨a, i, c, es, reached, hvoted, hrequested, hkept .syspll (by rw [hvoted]; decide)⟩

end Arbiter

end LowPower

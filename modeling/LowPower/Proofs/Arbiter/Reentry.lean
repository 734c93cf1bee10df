import LowPower.Platform.Mt8192
import LowPower.Proofs.Arbiter.Manner
import LowPower.Proofs.Arbiter.Run

namespace LowPower

open Bus (Alike Deaf attempt attempt_get_bind attempt_liftExcept_bind attempt_map
  attempt_modify_bind bind_apply map_apply when_neg when_pos)

namespace Watchdog

variable (map : Register.Map)

theorem deaf_putControl (bits : Word) (on : Bool) : Deaf (putControl map bits on) :=
  Deaf.habit.bind (.read _) fun _ => .emit _

theorem deaf_put (on : Bool) : Deaf (put map on) := by
  cases on with
  | false => exact deaf_putControl map _ _
  | true =>
    change Deaf (arm map)
    rw [arm_eq]
    refine Deaf.habit.bind (deaf_putControl map _ _) fun _ => Deaf.habit.bind (.read _) fun _ => ?_
    exact Deaf.habit.bind (Deaf.habit.when (.emit _)) fun _ =>
      Deaf.habit.bind (.emit _) fun _ => deaf_putControl map _ _

end Watchdog

theorem Manner.deaf (map : Register.Map) : Manner map Deaf where
  toHabit := Deaf.habit
  note := Deaf.note
  call _ := .emit _
  read := Deaf.read
  write _ _ _ := .emit _
  timer := Watchdog.deaf_putControl map _
  watchdog := Watchdog.deaf_put map

namespace Arbiter

variable {p : Platform} {device : Device} {a b : Arbiter} {i j : Journal} {op : Operation}
  {e : Entry}

theorem session?_close {core : Nat} {left : Option Session}
    (h : attempt (close p core) a device i = ((.ok left, b), j)) : b.session? core = none := by
  rw [close, attempt_get_bind] at h
  cases hs : a.session? core with
  | none =>
    rw [hs] at h
    cases h
    exact hs
  | some session =>
    simp only [hs, attempt_modify_bind, attempt_get_bind, attempt_onSequencer_bind,
      attempt_liftExcept_bind, bind_apply] at h
    generalize ((a.setSession core none).ladder.leave p.map session.constraint session).run.run
      (a.setSession core none).sequencer device i = r at h
    obtain ⟨⟨fault | ⟨ladder, session⟩, sequencer⟩, k⟩ := r
    · cases h
    · cases h
      change (a.setSession core none).session? core = none
      rw [session?_setSession]
      by_cases hc : core < coreCapacity
      · simp [hc]
      · simp [session?, hc]

def stepTwice (p : Platform) (device : Device) (first second : Operation) (a : Arbiter)
    (j : Journal) : (Except Fault Answer × Arbiter) × Journal :=
  match first.step p device a j with
  | ((.ok _, b), k) => second.step p device b k
  | ((.error fault, b), k) => ((.error fault, b), k)

theorem step_leave {core : Nat} (valid : core < p.cores) (device : Device) (a : Arbiter)
    (j : Journal) :
    (Operation.leave core).step p device a j =
      ((fun r => (r.1.map fun left =>
        .reason (((left.bind (·.wake)).map (·.reason)).getD .none), r.2)) <$>
        attempt (close p core) a) device j := by
  change attempt (Answer.reason <$> leave p core) a device j = _
  rw [attempt_map, attempt_leave, if_neg (Nat.not_le.mpr valid), map_apply, map_apply, map_apply]
  rcases (attempt (close p core) a device j).1 with ⟨fault | left, b⟩
  · rfl
  · rfl

theorem step_entry_open (entry : op.enters? = some e) (valid : e.core < p.cores)
    (opened : (a.session? e.core).isSome = true) (device : Device) (j : Journal) :
    op.step p device a j =
      match attempt (close p e.core) a device { j with notices := .unwinding e.core :: j.notices }
      with
      | ((.ok _, b), k) => ((fun r => (r.1.map Answer.depth, r.2)) <$>
          attempt (arrive p e.core e.start e.kind e.extra) b) device k
      | ((.error fault, b), k) => ((.error fault, b), k) := by
  rw [step_entry entry, map_apply, attempt_enter e.start e.kind e.extra a valid, when_pos opened,
    bind_apply, bind_apply]
  change _ = match attempt (close p e.core) a device (Bus.note _ device j).2 with
    | ((.ok _, b), k) => _
    | ((.error fault, b), k) => _
  rcases attempt (close p e.core) a device (Bus.note _ device j).2 with ⟨⟨fault | left, b⟩, k⟩
  · rfl
  · rfl

theorem step_entry_closed (entry : op.enters? = some e) (valid : e.core < p.cores)
    (closed : a.session? e.core = none) (device : Device) (j : Journal) :
    op.step p device a j = ((fun r => (r.1.map Answer.depth, r.2)) <$>
      attempt (arrive p e.core e.start e.kind e.extra) a) device j := by
  have hnone : ¬ (a.session? e.core).isSome = true := by simp [closed]
  rw [step_entry entry, map_apply, attempt_enter e.start e.kind e.extra a valid, when_neg hnone,
    attempt_close_none p closed]
  rfl

/-- An entry on a core with an open session has the same result, leaves the same state behind and
goes through the same events as a leave and then the same entry. -/
theorem reentry_alike (entry : op.enters? = some e) (valid : e.core < p.cores)
    (opened : (a.session? e.core).isSome = true) (device : Device) (j : Journal) :
    Alike (op.step p device a j) (stepTwice p device (.leave e.core) op a j) := by
  have closes := (Manner.deaf p.map).close e.core a device
    { j with notices := .unwinding e.core :: j.notices } j rfl
  rw [step_entry_open entry valid opened, stepTwice, step_leave valid, map_apply]
  cases hfirst : attempt (close p e.core) a device
    { j with notices := .unwinding e.core :: j.notices } with
  | mk r k =>
    cases hsecond : attempt (close p e.core) a device j with
    | mk r' k' =>
      rw [hfirst, hsecond] at closes
      obtain ⟨rfl, hevents⟩ := closes
      obtain ⟨fault | left, b⟩ := r
      · exact ⟨rfl, hevents⟩
      · have closed : b.session? e.core = none := session?_close hsecond
        change Alike _ (op.step p device b k')
        rw [step_entry_closed entry valid closed]
        have arrives := (Manner.deaf p.map).arrive e.core e.start e.kind e.extra b
        exact Deaf.habit.map _ arrives device k k' hevents

theorem reentry_alike_idling : ∃ (a : Arbiter) (i : Journal),
    Reachable Mt8192.platform (.memory fun _ => 0#32) a i ∧
    (a.session? 0).isSome = true ∧
    Alike ((Operation.suspendEnter 0 ∅).step Mt8192.platform (.memory fun _ => 0#32) a i)
      (stepTwice Mt8192.platform (.memory fun _ => 0#32) (.leave 0) (.suspendEnter 0 ∅) a i) := by
  have idles : (replayAll Mt8192.platform (.memory fun _ => 0#32)
      [.notify .all (.setFlags .firmware), .idleEnter 0 0]).any
      (fun r => (r.2.1.session? 0).isSome) = true := by
    decide +kernel
  obtain ⟨⟨ops, a, i⟩, hrun, hopen⟩ := (Option.any_eq_true _ _).mp idles
  have entry : (Operation.suspendEnter 0 ∅).enters? = some ⟨0, 0, .suspend, ∅⟩ := rfl
  exact ⟨a, i, reachable_of_replayAll hrun, hopen, reentry_alike entry (by decide) hopen _ i⟩

end Arbiter

end LowPower

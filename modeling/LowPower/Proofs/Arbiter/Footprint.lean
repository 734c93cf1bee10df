import LowPower.Proofs.Arbiter.Run
import LowPower.Proofs.Arbiter.Script
import LowPower.Proofs.Clock.Steady

namespace LowPower

open Bus (Event Script Untouched)
open Bus.Script (given_le_only mul_le_only one_le_only only single_le_only store
  store_le_within within)

def Register.written : List Register.Name := .kick :: (Constraint.programmed ++ Constraint.undone)

def Bus.Event.WritesOnly (map : Register.Map) (rs : List Register.Name) (e : Event) : Prop :=
  ∀ x w, e = .write x w → ∃ r ∈ rs, x = map.at r

variable {map : Register.Map} {rs rs' : List Register.Name}

namespace Bus.Script

theorem within_le_writesOnly (h : rs ⊆ rs') : within map rs ≤ only (Event.WritesOnly map rs') := by
  rintro es hes e he x w rfl
  obtain ⟨r, hr, hx⟩ := hes _ he
  exact ⟨r, h hr, hx⟩

theorem only_le_writesOnly {φ : Event → Prop} (h : ∀ x w, ¬ φ (.write x w)) :
    only φ ≤ only (Event.WritesOnly map rs) := by
  rintro es hes e he x w rfl
  exact absurd (hes _ he) (h x w)

theorem single_le_writesOnly {es : List Event}
    (h : ∀ x w, .write x w ∈ es → ∃ r ∈ rs, x = map.at r) :
    ({es} : Script) ≤ only (Event.WritesOnly map rs) :=
  single_le_only fun _ he x w heq => h x w (heq ▸ he)

end Bus.Script

open Bus.Script (only_le_writesOnly single_le_writesOnly within_le_writesOnly)

namespace Constraint

theorem announced_le (a : Announcement) :
    announced map a ≤ only (Event.WritesOnly map Register.written) := by
  rintro es ⟨allows, hes⟩
  exact within_le_writesOnly (by decide) (announcing_le_within a allows hes)

theorem captured_le : captured map ≤ only (Event.WritesOnly map Register.written) := by
  rintro _ ⟨r, rfl⟩ e he x w rfl
  simp [Sequencer.captured] at he

theorem entering_le (kind : Session.Kind) :
    entering map kind ≤ only (Event.WritesOnly map Register.written) := by
  have prepared : preparing map kind ≤ only (Event.WritesOnly map Register.written) := by
    refine given_le_only fun _ => single_le_writesOnly fun x w h => ?_
    simp only [List.mem_cons, Event.write.injEq, List.not_mem_nil, or_false, reduceCtorEq] at h
    exact ⟨.powerDownMailbox, by decide, h.1⟩
  exact mul_le_only (announced_le _) (mul_le_only prepared (mul_le_only
    (within_le_writesOnly (by decide)) (mul_le_only
    ((Sequencer.kicking_le kind).trans (within_le_writesOnly (by decide)))
    (only_le_writesOnly fun _ _ => id))))

theorem leaving_le (kind : Session.Kind) :
    leaving map kind ≤ only (Event.WritesOnly map Register.written) := by
  have finished : finishing map kind ≤ only (Event.WritesOnly map Register.written) := by
    refine given_le_only fun _ => single_le_writesOnly fun x w h => ?_
    simp only [List.mem_cons, Event.write.injEq, List.not_mem_nil, or_false, reduceCtorEq,
      false_or] at h
    exact ⟨.powerDownMailbox, by decide, h.1⟩
  have cleared : store map.externalClear 1#32 ≤ only (Event.WritesOnly map Register.written) :=
    (store_le_within .externalClear (by decide) _).trans (within_le_writesOnly (List.Subset.refl _))
  exact mul_le_only (within_le_writesOnly (by decide)) (mul_le_only cleared
    (mul_le_only captured_le (mul_le_only (within_le_writesOnly (by decide)) (mul_le_only finished
    (mul_le_only (announced_le _) (only_le_writesOnly fun _ _ => id))))))

end Constraint

namespace Arbiter

variable {p : Platform} {device : Device} {a b : Arbiter} {i j : Journal} {d : Deed}
  {ds : List Deed} {xs : List Address}

theorem Deed.script_le (d : Deed) (map : Register.Map) :
    d.script map ≤ only (Event.WritesOnly map Register.written) := by
  cases d with
  | look | readPll => exact only_le_writesOnly fun _ _ => id
  | wake =>
    exact (Constraint.waking_mul_resuming_le _ _ _ _).trans (Constraint.leaving_le _)
  | arm => exact (Constraint.launching_le _ _ _).trans (Constraint.entering_le _)
  | setWatchdog enable ticks =>
    have known : within map Register.written ≤ only (Event.WritesOnly map Register.written) :=
      within_le_writesOnly (List.Subset.refl _)
    have timed : store map.timerValue ticks ≤ within map Register.written :=
      store_le_within .timerValue (by decide) _
    have armed : Watchdog.arming map ≤ within map Register.written :=
      Watchdog.arming_le_within (by decide) (by decide) (by decide)
    have disarmed : Watchdog.switching map Watchdog.watchdogEnable false ≤
        within map Register.written := Watchdog.switching_le_within (by decide) _ _
    refine mul_le_only (timed.trans known) ?_
    split
    · exact armed.trans known
    · exact disarmed.trans known
  | _ => exact one_le_only

theorem Does.untouched (hd : Does p device d a i b j)
    (apart : ∀ x ∈ xs, ∀ r ∈ Register.written, p.map.at r ≠ x) (h : Untouched xs i.events) :
    Untouched xs j.events := by
  obtain ⟨es, hes, hevents⟩ := hd.events
  intro x hx w hw
  rw [hevents] at hw
  rcases List.mem_append.mp hw with hw | hw
  · obtain ⟨r, hr, rfl⟩ := d.script_le p.map hes _ (List.mem_reverse.mp hw) x w rfl
    exact apart _ hx r hr rfl
  · exact h x hx w hw

theorem DoesAll.untouched (h : DoesAll p device ds a i b j)
    (apart : ∀ x ∈ xs, ∀ r ∈ Register.written, p.map.at r ≠ x) (start : Untouched xs i.events) :
    Untouched xs j.events :=
  h.invariant (I := fun _ j => Untouched xs j.events) (fun hd h => hd.untouched apart h) start

theorem Reachable.untouched (h : Reachable p device a i)
    (apart : ∀ x ∈ xs, ∀ r ∈ Register.written, p.map.at r ≠ x) : Untouched xs i.events := by
  refine h.invariant (I := fun _ j => Untouched xs j.events) ?_ fun hd _ h => hd.untouched apart h
  intro a j fresh
  rw [fresh.events]
  exact nofun

end Arbiter

end LowPower

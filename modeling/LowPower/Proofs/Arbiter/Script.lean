import LowPower.Proofs.Arbiter.Course
import LowPower.Proofs.Constraint.Request

namespace LowPower

open Bus (Event Follows Script)
open Bus.Script (Shows only store)

theorem Constraint.resuming_account {c c' : Constraint} {kind : Session.Kind}
    {record : Wake.Record} (h : c.account kind record = .ok c') (map : Register.Map) :
    resuming map c' = resuming map c := by
  obtain ⟨residency, rfl⟩ := account_eq_ok h
  rfl

namespace Arbiter

def Deed.script (map : Register.Map) : Deed → Script
  | .look _ | .readPll => only Event.IsRead
  | .wake _ c session outcome => Sequencer.waking map (c.ending session).options outcome *
      Constraint.resuming map c session.kind outcome
  | .arm _ c session votes => Constraint.launching map votes c session
  | .setWatchdog enable ticks => store map.timerValue ticks *
      if enable then Watchdog.arming map
      else Watchdog.switching map Watchdog.watchdogEnable false
  | .report | .vote .. | .withdraw _ | .update .. | .read .. | .setFlavor _ => 1

def Deed.IsAside : Deed → Prop
  | .wake .. | .arm .. => False
  | _ => True

theorem Deed.script_le_of_isAside (d : Deed) (map : Register.Map) (h : d.IsAside) :
    d.script map ≤ Bus.Script.within map [.timerValue, .pcmControl, .watchdogValue] := by
  cases d with
  | wake | arm => exact h.elim
  | look | readPll => exact Bus.Script.reads_le_within
  | setWatchdog enable ticks =>
    refine Bus.Script.mul_le_only (Bus.Script.store_le_within .timerValue (by decide) _) ?_
    cases enable with
    | true => exact Watchdog.arming_le_within (by decide) (by decide) (by decide)
    | false => exact Watchdog.switching_le_within (by decide) _ _
  | _ => exact Bus.Script.one_le_only

def scriptOf (map : Register.Map) (ds : List Deed) : Script := (ds.map (·.script map)).prod

@[simp] theorem scriptOf_nil (map : Register.Map) : scriptOf map [] = 1 := rfl

@[simp] theorem scriptOf_cons (map : Register.Map) (d : Deed) (ds : List Deed) :
    scriptOf map (d :: ds) = d.script map * scriptOf map ds := List.prod_cons

@[simp] theorem scriptOf_append (map : Register.Map) (ds es : List Deed) :
    scriptOf map (ds ++ es) = scriptOf map ds * scriptOf map es := by
  rw [scriptOf, List.map_append, List.prod_append, scriptOf, scriptOf]

theorem shows_scriptOf {γ : Type} {map : Register.Map} {f : Event → Option γ}
    {shown : Deed → List γ} (h : ∀ d, Shows f (d.script map) (shown d)) (ds : List Deed) :
    Shows f (scriptOf map ds) (ds.flatMap shown) := by
  induction ds with
  | nil => exact .one
  | cons d ds ih =>
    rw [scriptOf_cons, List.flatMap_cons]
    exact (h d).mul ih

def closing (map : Register.Map) : Option Session → Script
  | none => 1
  | some session => Constraint.leaving map session.kind

theorem shows_closing {map : Register.Map} {r : Register.Name} (distinct : map.Distinct)
    (h : r ∉ Constraint.undone) (session : Option Session) :
    Shows (Event.writtenTo? (map.at r)) (closing map session) [] := by
  cases session with
  | none => exact .one
  | some session => exact Constraint.shows_leaving distinct _ h

variable {p : Platform} {device : Device} {a b : Arbiter} {i j : Journal} {d : Deed}
  {ds : List Deed}

theorem Closing.script_le {core : Nat} {left : Option Session} (h : Closing a core left ds)
    (map : Register.Map) : scriptOf map ds ≤ closing map (a.session? core) := by
  cases h with
  | idle closed =>
    rw [closed]
    rfl
  | wake c opened =>
    rw [opened, scriptOf_cons, scriptOf_nil, mul_one]
    exact Constraint.waking_mul_resuming_le _ c _ _

theorem Does.events (hd : Does p device d a i b j) :
    ∃ es ∈ d.script p.map, j.events = es.reverse ++ i.events := by
  cases hd with
  | look looked => exact (Follows.of_emits (p.layout.emits_observation p.map)).events looked
  | wake _ _ ended accounted resumed =>
    obtain ⟨es, hes, hended⟩ := (Sequencer.follows_wakeUp p.map _).events ended
    obtain ⟨fs, hfs, hresumed⟩ := (Constraint.follows_resume p.map _ _ _).events resumed
    rw [Constraint.resuming_account accounted] at hfs
    refine ⟨es ++ fs, Language.append_mem_mul hes hfs, ?_⟩
    rw [hresumed, hended, List.reverse_append, List.append_assoc]
  | arm _ _ _ _ launched => exact (Constraint.follows_launch p.map _ _ _).events launched
  | setWatchdog enable ticks timed put =>
    obtain ⟨es, hes, htimed⟩ := (Follows.write p.map.timerValue ticks).events timed
    obtain ⟨fs, hfs, hput⟩ := (Watchdog.follows_put p.map enable).events put
    refine ⟨es ++ fs, Language.append_mem_mul hes hfs, ?_⟩
    rw [hput, htimed, List.reverse_append, List.append_assoc]
  | readPll looked =>
    exact (Follows.of_emits (Bus.Emits.read fun _ => trivial)).events looked
  | _ => exact ⟨[], rfl, rfl⟩

theorem DoesAll.events (h : DoesAll p device ds a i b j) :
    ∃ es ∈ scriptOf p.map ds, j.events = es.reverse ++ i.events := by
  induction h with
  | nil => exact ⟨[], rfl, rfl⟩
  | cons head _ ih =>
    obtain ⟨es, hes, hhead⟩ := head.events
    obtain ⟨fs, hfs, htail⟩ := ih
    refine ⟨es ++ fs, ?_, ?_⟩
    · rw [scriptOf_cons]
      exact Language.append_mem_mul hes hfs
    · rw [htail, hhead, List.reverse_append, List.append_assoc]

theorem DoesAll.shown {γ : Type} {f : Event → Option γ} {g : Deed → List γ}
    (h : DoesAll p device ds a i b j) (hd : ∀ d, Shows f (d.script p.map) (g d)) :
    Bus.shown f j.events = Bus.shown f i.events ++ ds.flatMap g := by
  obtain ⟨es, hes, hevents⟩ := h.events
  rw [hevents, Bus.shown_append, shows_scriptOf hd ds es hes]

end Arbiter

end LowPower

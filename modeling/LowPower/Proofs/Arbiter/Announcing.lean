import LowPower.Proofs.Arbiter.Transitions

namespace LowPower

open Bus (Event Script)
open Bus.Script (Shows)

def Allowance.marked (x : Word) : Bool := x.getLsbD 6

theorem Allowance.marked_union (x y : Allowance) :
    marked (x ∪ y).bits = (marked x.bits || marked y.bits) := BitVec.getLsbD_or

theorem Announcement.marked_word (a : Announcement) (allows : Allowance) :
    Allowance.marked (a.word allows) = Allowance.marked allows.bits := by
  have low : (0x0000FFFF#32).getLsbD 6 = true := by decide
  have untagged : a.tag.getLsbD 6 = false := by cases a <;> decide
  rw [Allowance.marked, word, BitVec.getLsbD_or, BitVec.getLsbD_and, untagged, low, Bool.false_or,
    Bool.and_true, Allowance.marked]

namespace Constraint

theorem marked_allows (c : Constraint) : Allowance.marked c.allows.bits = false := by
  have bare (v : Variant) : Allowance.marked v.allows.bits = false := by
    cases v <;> rw [Variant.allows] <;> decide
  rw [allows]
  split
  · rw [Allowance.marked_union, bare]
    decide
  · exact bare c.variant

theorem marked_entryAllows (c : Constraint) (kind : Session.Kind) :
    Allowance.marked (c.entryAllows kind).bits = (kind = .suspend : Bool) := by
  cases kind with
  | idle => exact c.marked_allows
  | suspend =>
    rw [entryAllows, Allowance.marked_union, c.marked_allows]
    decide

end Constraint

/-- What one write to a mailbox tells: what may be switched off, or what is announced. Each is
marked or not. -/
inductive Telling
  | allowance (marked : Bool)
  | event (a : Option Announcement) (marked : Bool)
deriving DecidableEq

namespace Telling

def of? (map : Register.Map) : Event → Option Telling
  | .write a x =>
    if a = map.allowMailbox then some (.allowance (Allowance.marked x))
    else if a = map.eventMailbox then
      some (.event (Announcement.ofWord? x) (Allowance.marked x))
    else none
  | _ => none

def all (map : Register.Map) (h : Bus.History) : List Telling := Bus.shown (of? map) h

def announcement (a : Announcement) (marked : Bool) : List Telling :=
  [.allowance marked, .event (some a) marked]

variable {map : Register.Map}

section

variable (distinct : map.Distinct)
include distinct

theorem of?_write_at {r : Register.Name} (hallow : r ≠ .allowMailbox) (hevent : r ≠ .eventMailbox)
    (x : Word) : of? map (.write (map.at r) x) = none := by
  have allow : map.at r ≠ map.allowMailbox := fun heq => hallow (distinct.at_eq_iff.mp heq)
  have event : map.at r ≠ map.eventMailbox := fun heq => hevent (distinct.at_eq_iff.mp heq)
  rw [of?, if_neg allow, if_neg event]

theorem shows_within (rs : List Register.Name) {s : Script} (hle : s ≤ .within map rs)
    (hallow : .allowMailbox ∉ rs) (hevent : .eventMailbox ∉ rs) : Shows (of? map) s [] :=
  Shows.mono (.within (fun _ _ => rfl) fun _ hr x =>
    of?_write_at distinct (fun heq => hallow (heq ▸ hr)) (fun heq => hevent (heq ▸ hr)) x) hle

theorem shows_announcing (a : Announcement) (allows : Allowance) :
    Shows (of? map) (Constraint.announcing map a allows)
      (announcement a (Allowance.marked allows.bits)) := by
  have apart : map.at .eventMailbox ≠ map.at .allowMailbox := fun heq =>
    absurd (distinct.at_eq_iff.mp heq) (by decide)
  change map.eventMailbox ≠ map.allowMailbox at apart
  have allowed : Shows (of? map) (.store map.allowMailbox allows.bits)
      [.allowance (Allowance.marked allows.bits)] := by
    rintro _ rfl
    simp [of?]
  have announced : Shows (of? map) (.store map.eventMailbox (a.word allows))
      [.event (some a) (Allowance.marked allows.bits)] := by
    rintro _ rfl
    simp [of?, apart, Announcement.ofWord?_word, Announcement.marked_word]
  exact allowed.mul announced

theorem of?_powerDown (x : Word) : of? map (.write map.powerDownMailbox x) = none :=
  of?_write_at distinct (r := .powerDownMailbox) (by decide) (by decide) x

theorem shows_launching (votes : ResourceSet) (c : Constraint) (session : Session) :
    Shows (of? map) (Constraint.launching map votes c session)
      (announcement .enter (session.kind = .suspend)) := by
  have programmed := shows_within distinct _ (Constraint.programming_le_within session votes)
    (by decide) (by decide)
  have announced := shows_announcing distinct .enter (c.entryAllows session.kind)
  rw [c.marked_entryAllows] at announced
  have prepared := Constraint.shows_preparing_nil (of?_powerDown distinct) rfl session.kind
  exact announced.mul (prepared.mul programmed)

theorem shows_resuming (c : Constraint) (kind : Session.Kind) (outcome : Wake.Outcome) :
    Shows (of? map) (Constraint.resuming map c kind outcome) (announcement .leave false) := by
  have announced := shows_announcing distinct .leave c.allows
  rw [c.marked_allows] at announced
  have raised : Shows (of? map)
      {Constraint.redelivered outcome.record c.variant.redeliveries} [] := by
    rintro _ rfl
    exact List.filterMap_eq_nil_iff.mpr fun e he => by
      obtain ⟨r, -, rfl⟩ := List.mem_map.mp he
      rfl
  have finished := Constraint.shows_finishing_nil (of?_powerDown distinct) rfl kind
  exact finished.mul (announced.mul raised)

end

end Telling

def Passage.tellings : Passage → List Telling
  | .opened session _ => Telling.announcement .enter (session.kind = .suspend)
  | .closed _ => Telling.announcement .leave false

namespace Arbiter

variable {p : Platform} {device : Device} {a b c : Arbiter} {i j k : Journal} {ds : List Deed}
  {op : Operation} {answer : Answer} {ops : List (Operation × Answer)} {map : Register.Map}

theorem Deed.shows_tellings (distinct : map.Distinct) (d : Deed) :
    Shows (Telling.of? map) (d.script map) (d.passage?.toList.flatMap Passage.tellings) := by
  have aside := d.script_le_of_isAside map
  cases d with
  | wake core c session outcome =>
    exact (Telling.shows_within distinct _ (Constraint.waking_le_within _ outcome) (by decide)
      (by decide)).mul (Telling.shows_resuming distinct c session.kind outcome)
  | arm core c session votes => exact Telling.shows_launching distinct votes c session
  | _ => exact Telling.shows_within distinct _ (aside trivial) (by decide) (by decide)

theorem step_tellings (distinct : p.map.Distinct) (accepted : p.Accepted) (coherent : Coherent p a)
    (h : op.step p device a i = ((.ok answer, b), j)) :
    Telling.all p.map j.events =
      Telling.all p.map i.events ++ (passages a op b).flatMap Passage.tellings := by
  obtain ⟨ds, course, done⟩ := step_course accepted coherent h
  rw [course.passages accepted coherent done, List.filterMap_eq_flatMap_toList, List.flatMap_assoc]
  exact done.shown (Deed.shows_tellings distinct)

theorem Steps.tellings (distinct : p.map.Distinct) (accepted : p.Accepted)
    (coherent : Coherent p a) (h : Steps p device a i ops b j) :
    Telling.all p.map j.events = Telling.all p.map i.events ++
      (trail p device (ops.map (·.1)) a i).flatMap Passage.tellings := by
  induction h with
  | refl => exact (List.append_nil _).symm
  | step head _ ih =>
    rw [ih (coherent.step accepted head), step_tellings distinct accepted coherent head,
      List.map_cons, trail, head, List.flatMap_append, List.append_assoc]

/-- Over any run from the start, what the other processors are told is an announcement with each
session that begins and with each that ends. The former is marked just for a suspend, and the latter
never is. This holds of each further operation. -/
theorem announcements_marked (distinct : p.map.Distinct) (started : Started p device a i)
    (steps : Steps p device a i ops b j) :
    Telling.all p.map j.events =
      (trail p device (ops.map (·.1)) a i).flatMap Passage.tellings ∧
    ∀ op answer c k, Operation.step p device op b j = ((.ok answer, c), k) →
      Telling.all p.map k.events =
        Telling.all p.map j.events ++ (passages b op c).flatMap Passage.tellings := by
  have fresh := started.fresh
  have coherent := Reachable.coherent ⟨_, _, _, started, steps⟩
  obtain ⟨l, rfl, -⟩ := fresh.state
  constructor
  · rw [steps.tellings distinct fresh.accepted (.initial l), Telling.all, fresh.events]
    rfl
  · exact fun op answer c k h => step_tellings distinct fresh.accepted coherent h

theorem announcements_marked_two_cores : ∃ a i ops b j,
    Started Mt8192.platform (.memory fun _ => 0#32) a i ∧
    Steps Mt8192.platform (.memory fun _ => 0#32) a i ops b j ∧
    (trail Mt8192.platform (.memory fun _ => 0#32) (ops.map (·.1)) a i).flatMap Passage.tellings =
      Telling.announcement .enter false ++ (Telling.announcement .enter true ++
        (Telling.announcement .leave false ++ Telling.announcement .leave false)) := by
  have tells : (replayAll Mt8192.platform (.memory fun _ => 0#32)
      [.notify .all (.setFlags .firmware), .idleEnter 0 0, .suspendEnter 1 ∅,
        .notify .all (.clearFlags .firmware), .leave 1, .leave 0]).any (fun r =>
        Telling.all Mt8192.map r.2.2.events =
          Telling.announcement .enter false ++ (Telling.announcement .enter true ++
            (Telling.announcement .leave false ++ Telling.announcement .leave false))) = true := by
    decide +kernel
  obtain ⟨⟨ops, b, j⟩, hrun, h⟩ := (Option.any_eq_true _ _).mp tells
  obtain ⟨a, i, started, steps⟩ := run_of_replayAll hrun
  exact ⟨a, i, ops, b, j, started, steps,
    (announcements_marked Mt8192.map_distinct started steps).1.symm.trans (of_decide_eq_true h)⟩

/-- All that is entered is a suspend, and yet the announcement of its end is not marked. -/
theorem end_of_suspend_unmarked : ∃ a i ops b j,
    Started Mt8192.platform (.memory fun _ => 0#32) a i ∧
    Steps Mt8192.platform (.memory fun _ => 0#32) a i ops b j ∧
    (∀ o ∈ ops, ∀ e, o.1.enters? = some e → e.kind = .suspend) ∧
    Telling.all Mt8192.map j.events =
      Telling.announcement .enter true ++ Telling.announcement .leave false := by
  have tells : (replayAll Mt8192.platform (.memory fun _ => 0#32)
      [.notify .all (.setFlags .firmware), .suspendEnter 0 ∅, .leave 0]).any (fun r =>
        r.1.all (fun o => o.1.enters?.all (·.kind = .suspend)) &&
        decide (Telling.all Mt8192.map r.2.2.events =
          Telling.announcement .enter true ++ Telling.announcement .leave false)) = true := by
    decide +kernel
  obtain ⟨⟨ops, b, j⟩, hrun, h⟩ := (Option.any_eq_true _ _).mp tells
  obtain ⟨a, i, started, steps⟩ := run_of_replayAll hrun
  obtain ⟨hentries, htold⟩ := Bool.and_eq_true_iff.mp h
  refine ⟨a, i, ops, b, j, started, steps, fun o ho e he => ?_, of_decide_eq_true htold⟩
  have suspends := List.all_eq_true.mp hentries o ho
  rw [he] at suspends
  exact of_decide_eq_true suspends

end Arbiter

end LowPower

import LowPower.Proofs.Arbiter.Sessions
import LowPower.Proofs.Hardware.Ownership
import Mathlib.Data.List.Induction

namespace LowPower

open Hardware (seen)

inductive Passage
  | opened (session : Session) (votes : ResourceSet)
  | closed (session : Session)
deriving DecidableEq

namespace Passage

def session : Passage → Session
  | .opened session _ => session
  | .closed session => session

def isOpening : Passage → Bool
  | .opened .. => true
  | .closed _ => false

@[simp] theorem session_opened (s : Session) (votes : ResourceSet) :
    (opened s votes).session = s := rfl

@[simp] theorem session_closed (s : Session) : (closed s).session = s := rfl

@[simp] theorem isOpening_opened (s : Session) (votes : ResourceSet) :
    (opened s votes).isOpening = true := rfl

@[simp] theorem isOpening_closed (s : Session) : (closed s).isOpening = false := rfl

def act (hw : Hardware) : Passage → Hardware
  | .opened session votes => hw.arm session votes
  | .closed session => hw.disarm session

def latest (φ : Passage → Bool) (ps : List Passage) : Option Passage := (ps.filter φ).getLast?

variable {φ : Passage → Bool} {ps : List Passage}

theorem latest_append_singleton (q : Passage) :
    latest φ (ps ++ [q]) = if φ q then some q else latest φ ps := by
  rw [latest, List.filter_append]
  by_cases h : φ q = true
  · rw [List.filter_cons_of_pos h, List.filter_nil, List.getLast?_concat, if_pos h]
  · rw [List.filter_cons_of_neg h, List.filter_nil, List.append_nil, if_neg h]
    rfl

theorem exists_latest {q : Passage} (h : q ∈ ps) (hφ : φ q = true) :
    ∃ r, latest φ ps = some r := by
  have hne : ps.filter φ ≠ [] := List.ne_nil_of_mem (List.mem_filter.mpr ⟨h, hφ⟩)
  exact ⟨_, List.getLast?_eq_some_getLast hne⟩

theorem latest_eq_some {q : Passage} (h : latest φ ps = some q) : φ q = true :=
  (List.mem_filter.mp (List.mem_of_getLast? h)).2

theorem exists_eq_opened {q : Passage} (h : q.isOpening = true) :
    ∃ s votes, q = .opened s votes := by
  cases q with
  | opened s votes => exact ⟨s, votes, rfl⟩
  | closed s => cases h

theorem lit_foldl (switch : Hardware.Switch) (ps : List Passage) (hw : Hardware) :
    switch.lit (ps.foldl act hw) ↔
      match latest (fun q => switch.wanted q.session) ps with
      | some q => q.isOpening = true
      | none => switch.lit hw := by
  induction ps using List.reverseRecOn with
  | nil => exact Iff.rfl
  | append_singleton ps q ih =>
    rw [latest_append_singleton, List.foldl_append]
    change switch.lit (act _ q) ↔ _
    cases q with
    | opened s votes =>
      rw [act, switch.lit_arm]
      by_cases hs : switch.wanted s = true
      · simp [hs]
      · simpa [hs] using ih
    | closed s =>
      rw [act, switch.lit_disarm]
      by_cases hs : switch.wanted s = true
      · simp [hs]
      · simpa [hs] using ih

theorem request_foldl (ps : List Passage) (hw : Hardware) :
    (ps.foldl act hw).request =
      match latest isOpening ps with
      | some (.opened session votes) => Sequencer.request session votes
      | _ => hw.request := by
  induction ps using List.reverseRecOn with
  | nil => rfl
  | append_singleton ps q ih =>
    rw [latest_append_singleton, List.foldl_append]
    cases q with
    | opened session votes => rfl
    | closed session => exact ih

end Passage

namespace Arbiter

variable {p : Platform} {device : Device} {a b c : Arbiter} {i j k : Journal} {d : Deed}
  {ds : List Deed} {op : Operation} {answer : Answer} {ops : List (Operation × Answer)}
  {core : Nat} {session : Session}

def passages (a : Arbiter) (op : Operation) (b : Arbiter) : List Passage :=
  match op.core? with
  | some core => (a.session? core).toList.map Passage.closed ++
      (b.session? core).toList.map (Passage.opened · b.votes.required)
  | none => []

def trail (p : Platform) (device : Device) : List Operation → Arbiter → Journal → List Passage
  | [], _, _ => []
  | op :: ops, a, j =>
    let after := op.step p device a j
    passages a op after.1.2 ++ trail p device ops after.1.2 after.2

theorem passages_eq (h : op.core? = some core) (a b : Arbiter) :
    passages a op b = (a.session? core).toList.map Passage.closed ++
      (b.session? core).toList.map (Passage.opened · b.votes.required) := by
  rw [passages, h]

theorem DoesAll.hardware (memory : Hardware.Memory p.map device) (h : DoesAll p device ds a i b j) :
    seen p.map device j.events = ds.foldl Deed.act (seen p.map device i.events) := by
  induction h with
  | nil => rfl
  | cons head _ ih =>
    rw [ih, head.hardware memory]
    rfl

theorem DoesAll.votes_arm {c : Constraint} {votes : ResourceSet}
    (h : DoesAll p device (ds ++ [.arm core c session votes]) a i b j) :
    votes = b.votes.required := by
  -- The entry is the last part, so the induction needs the list as it is split.
  generalize hes : ds ++ [.arm core c session votes] = es at h
  induction h generalizing ds with
  | nil => exact absurd hes (List.append_ne_nil_of_right_ne_nil _ (List.cons_ne_nil _ _))
  | cons head tail ih =>
    cases ds with
    | nil =>
      cases hes
      cases tail
      cases head
      rfl
    | cons d ds =>
      cases hes
      exact ih rfl

def Deed.passage? : Deed → Option Passage
  | .wake _ _ session _ => some (.closed session)
  | .arm _ _ session votes => some (.opened session votes)
  | _ => none

theorem Closing.passages {left : Option Session} (h : Closing a core left ds) :
    ds.filterMap Deed.passage? = (a.session? core).toList.map Passage.closed := by
  cases h with
  | idle closed =>
    rw [closed]
    rfl
  | wake _ opened =>
    rw [opened]
    rfl

theorem Course.passages (h : Course p a op ds answer) (accepted : p.Accepted)
    (coherent : Coherent p a) (done : DoesAll p device ds a i b j) :
    passages a op b = ds.filterMap Deed.passage? := by
  have hsession := done.session? accepted coherent
  have hcoherent := done.coherent accepted coherent
  cases h with
  | invalidEntry entry invalid =>
    rw [passages_eq (Operation.core?_of_enters? entry), coherent.beyond invalid,
      hcoherent.beyond invalid]
    rfl
  | @baseline _ e _ _ clocks entry valid closing =>
    have hclosed : b.session? e.core = none := (hsession _).trans (by
      change sessionAfter _ _ _ = none
      simp [Deed.session?, closing.sessionAfter])
    rw [passages_eq (Operation.core?_of_enters? entry), hclosed]
    simp [Deed.passage?, List.filterMap_cons, closing.passages]
  | @constraint _ e _ ds session clocks c required entry valid closing =>
    have hopened : b.session? e.core = some session := (hsession _).trans (by
      change sessionAfter _ _ _ = some session
      simp [Deed.session?])
    have hsplit : Deed.report :: (ds ++ [.look clocks, .report, .arm e.core c session required]) =
        (.report :: (ds ++ [.look clocks, .report])) ++ [.arm e.core c session required] := by
      simp
    rw [hsplit] at done
    obtain rfl := done.votes_arm
    rw [passages_eq (Operation.core?_of_enters? entry), hopened]
    simp [Deed.passage?, List.filterMap_cons, closing.passages]
  | @invalidLeave core invalid =>
    rw [passages_eq (show (Operation.leave core).core? = some core from rfl),
      coherent.beyond invalid, hcoherent.beyond invalid]
    rfl
  | @leave core _ _ valid closing =>
    have hclosed : b.session? core = none := (hsession core).trans (by
      change sessionAfter _ _ _ = none
      rw [closing.sessionAfter, if_pos rfl])
    rw [passages_eq (show (Operation.leave core).core? = some core from rfl), hclosed,
      closing.passages]
    simp
  | control command => cases command <;> rfl
  | _ => rfl

theorem Course.hardware (h : Course p a op ds answer) (uncommanded : op.watchdog? = none)
    (hw : Hardware) :
    ds.foldl Deed.act hw = (ds.filterMap Deed.passage?).foldl Passage.act hw := by
  cases h with
  | baseline _ _ _ closing => cases closing <;> rfl
  | constraint _ _ _ _ _ closing => cases closing <;> rfl
  | leave _ closing => cases closing <;> rfl
  | control command =>
    cases command with
    | setWatchdog => cases uncommanded
    | _ => rfl
  | _ => rfl

theorem Steps.hardware (memory : Hardware.Memory p.map device) (accepted : p.Accepted)
    (coherent : Coherent p a) (h : Steps p device a i ops b j)
    (uncommanded : ∀ o ∈ ops, o.1.watchdog? = none) :
    seen p.map device j.events =
      (trail p device (ops.map (·.1)) a i).foldl Passage.act (seen p.map device i.events) := by
  induction h with
  | refl => rfl
  | step head _ ih =>
    obtain ⟨ds, course, done⟩ := step_course accepted coherent head
    rw [ih (done.coherent accepted coherent) fun o ho => uncommanded o (List.mem_cons_of_mem _ ho),
      done.hardware memory, course.hardware (uncommanded _ List.mem_cons_self), List.map_cons,
      trail, head, List.foldl_append, course.passages accepted coherent done]

theorem Steps.opened_mem_trail (accepted : p.Accepted) (coherent : Coherent p a)
    (h : Steps p device a i ops b j) (opened : b.session? core = some session) :
    a.session? core = some session ∨
      ∃ votes, .opened session votes ∈ trail p device (ops.map (·.1)) a i := by
  induction h with
  | refl => exact .inl opened
  | @step a b _ i j _ ops op answer head _ ih =>
    rw [List.map_cons, trail, head]
    rcases ih (coherent.step accepted head) opened with hb | ⟨votes, hmem⟩
    -- A session which is open after the first operation began in it, or was open before.
    · by_cases hop : op.core? = some core
      · refine .inr ⟨b.votes.required, List.mem_append_left _ ?_⟩
        rw [passages_eq hop, hb]
        exact List.mem_append_right _ List.mem_cons_self
      · exact .inl (((step_settles accepted coherent head).kept core hop).1.symm.trans hb)
    · exact .inr ⟨votes, List.mem_append_right _ hmem⟩

end Arbiter

/-- What a sleeping core relies on: all that its constraint keeps is requested, and each of the
other shared registers is as its options ask for. -/
structure Hardware.Serves (hw : Hardware) (session : Session) : Prop where
  request : hw.request.contains session.request = true
  switches : ∀ switch ∈ [Switch.watchdog, .monitor, .crystalLowPower],
    switch.wanted session = true → switch.lit hw

/-- The latest entry requested at least as much as a session, and what its options ask for was
last asked for by an entry and not by the end of a session. -/
structure Passage.Undisturbed (ps : List Passage) (session : Session) : Prop where
  request : ∃ s votes, latest isOpening ps = some (.opened s votes) ∧
    (Sequencer.request s votes).contains session.request = true
  switches : ∀ switch ∈ [Hardware.Switch.watchdog, .monitor, .crystalLowPower],
    switch.wanted session = true →
      ∃ s votes, latest (fun q => switch.wanted q.session) ps = some (.opened s votes)

theorem Passage.serves_iff {ps : List Passage} {session : Session} {votes : ResourceSet}
    (hmem : .opened session votes ∈ ps) (hw : Hardware) :
    (ps.foldl act hw).Serves session ↔ Undisturbed ps session := by
  -- The session has begun, so there is a latest passage of each kind which it is of.
  obtain ⟨q, hq⟩ := exists_latest hmem (isOpening_opened session votes)
  obtain ⟨s, v, rfl⟩ := exists_eq_opened (latest_eq_some hq)
  have hrequest : (ps.foldl act hw).request = Sequencer.request s v := by
    rw [request_foldl, hq]
  have hswitch : ∀ switch : Hardware.Switch, switch.wanted session = true →
      (switch.lit (ps.foldl act hw) ↔
        ∃ s votes, latest (fun q => switch.wanted q.session) ps = some (.opened s votes)) := by
    intro switch wanted
    obtain ⟨r, hr⟩ := exists_latest (φ := fun q => switch.wanted q.session) hmem wanted
    rw [lit_foldl, hr]
    constructor
    · intro h
      obtain ⟨s, v, rfl⟩ := exists_eq_opened h
      exact ⟨s, v, rfl⟩
    · rintro ⟨s, v, h⟩
      cases h
      rfl
  constructor
  · intro h
    refine ⟨⟨s, v, hq, hrequest ▸ h.request⟩, fun switch hmem wanted => ?_⟩
    exact (hswitch switch wanted).mp (h.switches switch hmem wanted)
  · rintro ⟨⟨s', v', hq', hcontains⟩, hswitches⟩
    cases hq.symm.trans hq'
    refine ⟨hrequest ▸ hcontains, fun switch hmem wanted => ?_⟩
    exact (hswitch switch wanted).mpr (hswitches switch hmem wanted)

namespace Arbiter

/-- A core keeps what it asked for exactly as long as the entries and leaves of the other cores do
not disturb it. -/
theorem serves_iff_undisturbed (memory : Hardware.Memory p.map device)
    (started : Started p device a i) (steps : Steps p device a i ops b j)
    (uncommanded : ∀ o ∈ ops, o.1.watchdog? = none) (opened : b.session? core = some session) :
    (seen p.map device j.events).Serves session ↔
      Passage.Undisturbed (trail p device (ops.map (·.1)) a i) session := by
  have fresh := started.fresh
  obtain ⟨l, rfl, -⟩ := fresh.state
  rw [steps.hardware memory fresh.accepted (.initial l) uncommanded]
  rcases steps.opened_mem_trail fresh.accepted (.initial l) opened with h | ⟨votes, hmem⟩
  · rw [session?_initial] at h
    cases h
  · exact Passage.serves_iff hmem _

theorem serves_iff_undisturbed_two_cores : ∃ a i ops b j session,
    Started Mt8192.platform (.memory fun _ => 0#32) a i ∧
    Steps Mt8192.platform (.memory fun _ => 0#32) a i ops b j ∧ b.session? 0 = some session ∧
    session.options.contains SessionOptions.monitorS1 = true ∧
    Passage.Undisturbed (trail Mt8192.platform (.memory fun _ => 0#32) (ops.map (·.1)) a i)
      session := by
  have serves : (replayAll Mt8192.platform (.memory fun _ => 0#32)
      [.notify .all (.setFlags .firmware), .idleEnter 0 2, .idleEnter 1 2]).any (fun r =>
        let hw := seen Mt8192.map (.memory fun _ => 0#32) r.2.2.events
        r.1.all (fun o => o.1.watchdog?.isNone) && (r.2.1.session? 0).any (fun session =>
          session.options = .monitorS1 && hw.request.contains session.request && hw.monitor)) =
        true := by
    decide +kernel
  obtain ⟨⟨ops, b, j⟩, hrun, h⟩ := (Option.any_eq_true _ _).mp serves
  obtain ⟨a, i, started, steps⟩ := run_of_replayAll hrun
  simp only [Bool.and_eq_true, List.all_eq_true, Option.any_eq_true, decide_eq_true_eq,
    Option.isNone_iff_eq_none] at h
  obtain ⟨huncommanded, session, hopen, ⟨hoptions, hrequest⟩, hmonitor⟩ := h
  refine ⟨a, i, ops, b, j, session, started, steps, hopen, by rw [hoptions]; decide, ?_⟩
  refine (serves_iff_undisturbed (.of_memory Mt8192.map_distinct _) started steps huncommanded
    hopen).mp ⟨hrequest, ?_⟩
  intro switch hmem wanted
  simp only [List.mem_cons, List.not_mem_nil, or_false] at hmem
  rcases hmem with rfl | rfl | rfl
  · change session.options.contains SessionOptions.watchdog = true at wanted
    rw [hoptions] at wanted
    exact absurd wanted (by decide)
  · exact hmonitor
  · change session.options.contains SessionOptions.crystalLowPower = true at wanted
    rw [hoptions] at wanted
    exact absurd wanted (by decide)

/-- Two cores idle at once, and the second one wakes up. The first still sleeps and asked for the
edge monitor, which is off. -/
theorem not_serves_after_leave : ∃ a i ops b j session,
    Started Mt8192.platform (.memory fun _ => 0#32) a i ∧
    Steps Mt8192.platform (.memory fun _ => 0#32) a i ops b j ∧
    (∀ o ∈ ops, o.1.watchdog? = none) ∧ b.session? 0 = some session ∧
    session.options.contains SessionOptions.monitorS1 = true ∧
    (Device.memory (fun _ => 0#32) j.events Mt8192.map.s1Control).getLsbD 0 = false := by
  have disables : (replayAll Mt8192.platform (.memory fun _ => 0#32)
      [.notify .all (.setFlags .firmware), .idleEnter 0 0, .idleEnter 1 0, .leave 1]).any (fun r =>
        r.1.all (fun o => o.1.watchdog?.isNone) && (r.2.1.session? 0).any (fun session =>
          session.options.contains SessionOptions.monitorS1) &&
        !(Device.memory (fun _ => 0#32) r.2.2.events Mt8192.map.s1Control).getLsbD 0) = true := by
    decide +kernel
  obtain ⟨⟨ops, b, j⟩, hrun, h⟩ := (Option.any_eq_true _ _).mp disables
  obtain ⟨a, i, started, steps⟩ := run_of_replayAll hrun
  simp only [Bool.and_eq_true, Bool.not_eq_true', List.all_eq_true, Option.any_eq_true,
    Option.isNone_iff_eq_none] at h
  obtain ⟨⟨huncommanded, session, hopen, hwanted⟩, hoff⟩ := h
  exact ⟨a, i, ops, b, j, session, started, steps, huncommanded, hopen, hwanted, hoff⟩

end Arbiter

end LowPower

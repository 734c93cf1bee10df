import LowPower.Proofs.Arbiter.Matching
import LowPower.Proofs.Hardware.Passages

namespace LowPower

open Hardware (seen)

namespace Session

def suspends (session : Session) : Bool := session.kind = .suspend

def Guarded (session : Session) : Prop :=
  session.options.contains SessionOptions.watchdog = session.suspends

end Session

namespace Constraint

theorem contains_watchdog_options (c : Constraint) (kind : Session.Kind) :
    (c.options kind).contains SessionOptions.watchdog = decide (kind = .suspend) := by
  have variants (variant : Variant) : (variant.options kind).contains SessionOptions.watchdog =
      decide (kind = .suspend) := by
    cases variant <;> cases kind <;> rw [Variant.options] <;> decide
  cases kind with
  | idle =>
    rw [options]
    split
    · exact (Flags.contains_union_of_disjoint _ (by decide)).trans (variants c.variant)
    · exact variants c.variant
  | suspend => exact variants c.variant

theorem guarded_prepare (c : Constraint) {session : Session}
    (h : session.kind = .idle → session.options = ∅) : (c.prepare session).Guarded := by
  have options := c.contains_watchdog_options session.kind
  change (session.options ∪ c.options session.kind).contains SessionOptions.watchdog =
    decide (session.kind = .suspend)
  cases hk : session.kind with
  | idle =>
    rw [h hk, Flags.empty_union, ← hk]
    exact options
  | suspend =>
    rw [hk, SessionOptions.watchdog, Flags.contains_single (by decide)] at options
    rw [SessionOptions.watchdog, Flags.contains_single (by decide), Flags.bits_union,
      BitVec.getLsbD_or, options, decide_eq_true rfl, Bool.or_true]

end Constraint

namespace Arbiter

variable {p : Platform} {device : Device} {a b c d : Arbiter} {i j k l : Journal}
  {op : Operation} {answer : Answer} {ops : List (Operation × Answer)}

theorem guarded_of_entry {e : Entry} {session : Session} (accepted : p.Accepted)
    (coherent : Coherent p a) (entry : op.enters? = some e)
    (h : op.step p device a i = ((.ok answer, b), j)) (opened : b.session? e.core = some session) :
    session.Guarded := by
  rcases session?_of_entry accepted coherent entry h with
    ⟨index, c, u, -, hopened⟩ | ⟨-, hclosed⟩
  · rw [hopened] at opened
    cases opened
    exact c.guarded_prepare fun idle => Operation.idle_extra entry idle
  · cases hclosed.symm.trans opened

def Guarded (a : Arbiter) : Prop := ∀ core session, a.session? core = some session → session.Guarded

theorem Guarded.step (guarded : Guarded a) (accepted : p.Accepted) (coherent : Coherent p a)
    (h : op.step p device a i = ((.ok answer, b), j)) : Guarded b := by
  intro core session opened
  have settles := step_settles accepted coherent h
  by_cases hop : op.core? = some core
  case neg =>
    rw [(settles.kept core hop).1] at opened
    exact guarded core session opened
  cases op with
  | idleEnter =>
    cases hop
    exact guarded_of_entry accepted coherent rfl h opened
  | suspendEnter =>
    cases hop
    exact guarded_of_entry accepted coherent rfl h opened
  | leave =>
    cases hop
    cases (settles.left core rfl).1.symm.trans opened
  | _ => cases hop

theorem Guarded.steps (guarded : Guarded a) (accepted : p.Accepted) (coherent : Coherent p a)
    (h : Steps p device a i ops b j) : Guarded b := by
  induction h with
  | refl => exact guarded
  | step head _ ih =>
    exact ih (guarded.step accepted coherent head) (coherent.step accepted head)

theorem Guarded.passages (ha : Guarded a) (hb : Guarded b) :
    ∀ q ∈ passages a op b, q.session.Guarded := by
  intro q hq
  unfold Arbiter.passages at hq
  split at hq
  · next core _ =>
    simp only [List.mem_append, List.mem_map, Option.mem_toList] at hq
    obtain ⟨session, closed, rfl⟩ | ⟨session, opened, rfl⟩ := hq
    · exact ha core session closed
    · exact hb core session opened
  · cases hq

theorem Guarded.trail (guarded : Guarded a) (accepted : p.Accepted) (coherent : Coherent p a)
    (h : Steps p device a i ops b j) :
    ∀ q ∈ trail p device (ops.map (·.1)) a i, q.session.Guarded := by
  induction h with
  | refl => exact nofun
  | step head _ ih =>
    have after := guarded.step accepted coherent head
    intro q hq
    rw [List.map_cons, Arbiter.trail, head] at hq
    rcases List.mem_append.mp hq with hq | hq
    · exact guarded.passages after q hq
    · exact ih after (coherent.step accepted head) q hq

/-- A run as it goes on after a command which arms the watchdog and which is the latest one for
it. -/
inductive ArmedRun (p : Platform) (device : Device) (c : Arbiter) (k : Journal)
    (ops : List (Operation × Answer)) (d : Arbiter) (l : Journal) : Prop
  | intro {a b : Arbiter} {i j : Journal} {earlier : List (Operation × Answer)} {ticks : Word}
      {answer : Answer} (started : Started p device a i) (before : Steps p device a i earlier b j)
      (command : (Operation.control (.setWatchdog true ticks)).step p device b j =
        ((.ok answer, c), k))
      (after : Steps p device c k ops d l) (uncommanded : ∀ o ∈ ops, o.1.watchdog? = none)

def replayArmed (p : Platform) (device : Device) (before : List Operation) (ticks : Word)
    (asked : List Operation) :
    Option (Arbiter × Journal × List (Operation × Answer) × Arbiter × Journal) := do
  let (_, b, j) ← replayAll p device before
  match (Operation.control (.setWatchdog true ticks)).step p device b j with
  | ((.ok _, c), k) => return (c, k, ← replay p device asked c k)
  | ((.error _, _), _) => none

theorem armedRun_of_replayArmed {before asked : List Operation} {ticks : Word}
    (h : replayArmed p device before ticks asked = some (c, k, ops, d, l))
    (uncommanded : ∀ o ∈ ops, o.1.watchdog? = none) : ArmedRun p device c k ops d l := by
  obtain ⟨⟨earlier, b, j⟩, hbefore, h⟩ := Option.bind_eq_some_iff.mp h
  obtain ⟨a, i, started, steps⟩ := run_of_replayAll hbefore
  dsimp only at h
  split at h
  · next answer _ _ hcommand =>
    obtain ⟨rest, hrest, h⟩ := Option.bind_eq_some_iff.mp h
    cases h
    exact .intro started steps hcommand (steps_of_replay hrest) uncommanded
  · cases h

/-- After a command which arms the watchdog it counts as armed until it is commanded otherwise.
In the hardware it is enabled exactly if no session of a suspended system ended since, or another
one began after the latest which did. -/
theorem watchdog_enabled_iff (memory : Hardware.Memory p.map device)
    (run : ArmedRun p device c k ops d l) :
    d.watchdog.isSome = true ∧
    ((device l.events p.map.pcmControl).getLsbD 4 = true ↔
      ∀ q, Passage.latest (·.session.suspends) (trail p device (ops.map (·.1)) c k) = some q →
        q.isOpening = true) := by
  obtain ⟨started, before, command, after, uncommanded⟩ := run
  obtain ⟨accepted, ⟨ladder, rfl, -⟩, -⟩ := started.fresh
  have unguarded : Guarded (initial ladder) := fun core session h => by
    rw [session?_initial] at h
    cases h
  have coherent := (Reachable.coherent ⟨_, _, _, started, before⟩)
  have guarded := (unguarded.steps accepted (.initial ladder) before).step accepted coherent command
  obtain ⟨ds, course, done⟩ := step_course accepted coherent command
  have coherent' := done.coherent accepted coherent
  constructor
  · rw [Steps.watchdog accepted coherent (.step command after), List.filterMap_cons,
      List.filterMap_eq_nil_iff.mpr uncommanded]
    rfl
  · have enabled : (seen p.map device k.events).watchdog = true := by
      rw [done.hardware memory]
      cases course with
      | control => rfl
      | invalidEntry entry | baseline _ entry | constraint _ _ _ entry => cases entry
    -- Just the sessions of a suspended system want the watchdog, so both see the same passages.
    have relevant : Passage.latest (·.session.suspends) (trail p device (ops.map (·.1)) c k) =
        Passage.latest (fun q => Hardware.Switch.watchdog.wanted q.session)
          (trail p device (ops.map (·.1)) c k) := by
      rw [Passage.latest, Passage.latest]
      congr 1
      exact List.filter_congr fun q hq => (guarded.trail accepted coherent' after q hq).symm
    change Hardware.Switch.watchdog.lit (seen p.map device l.events) ↔ _
    rw [after.hardware memory accepted coherent' uncommanded, Passage.lit_foldl, relevant]
    cases Passage.latest (fun q => Hardware.Switch.watchdog.wanted q.session) _ with
    | none => exact iff_of_true enabled (by rintro _ ⟨⟩)
    | some q => simp

theorem watchdog_enabled_again : ∃ c k ops d l,
    ArmedRun Mt8192.platform (.memory fun _ => 0#32) c k ops d l ∧
    (d.session? 0).any Session.suspends = true ∧ d.watchdog.isSome = true ∧
    ∀ q, Passage.latest (·.session.suspends) (trail Mt8192.platform (.memory fun _ => 0#32)
      (ops.map (·.1)) c k) = some q → q.isOpening = true := by
  have enables : (replayArmed Mt8192.platform (.memory fun _ => 0#32)
      [.notify .all (.setFlags .firmware)] 65536#32
      [.suspendEnter 0 ∅, .leave 0, .suspendEnter 0 ∅]).any (fun r =>
        r.2.2.1.all (fun o => o.1.watchdog?.isNone) &&
        ((r.2.2.2.1.session? 0).any Session.suspends &&
        (Device.memory (fun _ => 0#32) r.2.2.2.2.events Mt8192.map.pcmControl).getLsbD 4)) =
        true := by
    decide +kernel
  obtain ⟨⟨c, k, ops, d, l⟩, hrun, h⟩ := (Option.any_eq_true _ _).mp enables
  simp only [Bool.and_eq_true, List.all_eq_true, Option.isNone_iff_eq_none] at h
  obtain ⟨uncommanded, suspended, enabled⟩ := h
  have run := armedRun_of_replayArmed hrun uncommanded
  obtain ⟨armed, since⟩ := watchdog_enabled_iff (.of_memory Mt8192.map_distinct _) run
  exact ⟨c, k, ops, d, l, run, suspended, armed, since.mp enabled⟩

/-- The watchdog is armed, and the system is suspended and resumed. No command disarmed the
watchdog, and it is off. -/
theorem watchdog_off_while_armed : ∃ c k ops d l,
    ArmedRun Mt8192.platform (.memory fun _ => 0#32) c k ops d l ∧
    d.watchdog.isSome = true ∧
    (Device.memory (fun _ => 0#32) l.events Mt8192.map.pcmControl).getLsbD 4 = false := by
  have disables : (replayArmed Mt8192.platform (.memory fun _ => 0#32)
      [.notify .all (.setFlags .firmware)] 65536#32 [.suspendEnter 0 ∅, .leave 0]).any (fun r =>
        r.2.2.1.all (fun o => o.1.watchdog?.isNone) && (r.2.2.2.1.watchdog.isSome &&
        !(Device.memory (fun _ => 0#32) r.2.2.2.2.events Mt8192.map.pcmControl).getLsbD 4)) =
        true := by
    decide +kernel
  obtain ⟨⟨c, k, ops, d, l⟩, hrun, h⟩ := (Option.any_eq_true _ _).mp disables
  simp only [Bool.and_eq_true, Bool.not_eq_true', List.all_eq_true,
    Option.isNone_iff_eq_none] at h
  obtain ⟨uncommanded, armed, off⟩ := h
  exact ⟨c, k, ops, d, l, armedRun_of_replayArmed hrun uncommanded, armed, off⟩

end Arbiter

end LowPower

import LowPower.Proofs.Register.Name
import LowPower.Proofs.Sequencer.Report

/-!
Views of the history which are about some registers only. The stages of an entry and of a leave are
gone through once for all such views: a view is changed by the stages which write to its registers.
-/

namespace LowPower.Bus

/-- Nothing but a write to one of some registers changes what is seen. -/
structure SeesOnly {γ : Type} (map : Register.Map) (rs : List Register.Name)
    (view : History → γ) : Prop where
  others : ∀ e, (∀ a x, e ≠ .write a x) → Hidden view e
  unseen : ∀ r ∉ rs, ∀ x, Hidden view (.write (map.at r) x)

namespace SeesOnly

variable {α γ : Type} {map : Register.Map} {rs : List Register.Name} {view : History → γ}
  {device : Device} {f g h k : γ → γ} (sees : SeesOnly map rs view)
include sees

theorem reads {x : Action α} (hx : Emits Event.IsRead x) : Acts device view x id := by
  refine .of_emits hx fun e he => sees.others e ?_
  rintro a y rfl
  exact he

theorem read (a : Address) : Acts device view (read a) id := sees.reads (.read fun _ => trivial)

theorem emit {e : Event} (he : ∀ a x, e ≠ .write a x) : Acts device view (emit e) id :=
  .emit (sees.others e he)

theorem write (r : Register.Name) (hr : r ∉ rs) (x : Word) :
    Acts device view (write (map.at r) x) id :=
  .emit (sees.unseen r hr x)

theorem announce (a : Announcement) (allows : Allowance) (hallow : .allowMailbox ∉ rs)
    (hevent : .eventMailbox ∉ rs) : Acts device view (Constraint.announce map a allows) id :=
  .before (.note _) fun _ => .before (sees.write .allowMailbox hallow _) fun _ =>
    sees.write .eventMailbox hevent _

theorem reportArmed (session : Session) :
    Acts device view (Sequencer.reportArmed map session) id :=
  .before (sees.read _) fun _ => .before (.note _) fun _ => .before (sees.read _) fun _ =>
    .before (sees.read _) fun _ => .before (sees.read _) fun _ => .note _

theorem program {session : Session} {votes : ResourceSet}
    (wake : Acts device view (Sequencer.programWake map session) f)
    (flags : Acts device view (Sequencer.programFlags map session votes) g)
    (options : Acts device view (Sequencer.programOptions map session.options) h)
    (kick : Acts device view (Sequencer.kick map session.kind) k) :
    Acts device view (Sequencer.program map session votes) (k ∘ h ∘ g ∘ f) :=
  Acts.congr (.bind wake fun _ => .bind flags fun _ => .bind options fun _ => .after kick fun _ =>
    sees.reportArmed session) fun _ => rfl

theorem launch {votes : ResourceSet} {c : Constraint} {session : Session}
    (hallow : .allowMailbox ∉ rs) (hevent : .eventMailbox ∉ rs)
    (prepared : Acts device view (Bus.write map.powerDownMailbox Constraint.powerDownWord) f)
    (programmed : Acts device view (Sequencer.program map (c.prepare session) votes) g) :
    Acts device view (c.launch map votes session)
      (g ∘ if session.kind = .suspend then f else id) :=
  .before (sees.announce _ _ hallow hevent) fun _ =>
    .bind (.when fun _ => .after prepared fun _ => sees.emit fun _ _ => nofun) fun _ =>
    .before (.note _) fun _ => programmed

theorem markS1 (hflag : .debugFlag ∉ rs) (seen : Bool) (record : Wake.Record) :
    Acts device view (Sequencer.markS1 map seen record) id := by
  unfold Sequencer.markS1
  split
  · exact .before (sees.write .debugFlag hflag _) fun _ => .pure _
  · exact .pure _

theorem wakeUp {session : Session} (hflag : .debugFlag ∉ rs)
    (undone : Acts device view (Sequencer.undoOptions map session.options) f) :
    Acts device view (Sequencer.wakeUp map session) f := by
  refine .after (.after undone fun _ =>
    .before (sees.reads (Sequencer.passive_capture map session).emits) fun _ =>
    .before (sees.markS1 hflag _ _) fun _ => .pure _) fun _ => .before ?_ fun _ => ?_
  · cases session.options.category? with
    | none => exact .pure _
    | some category => exact .note _
  · exact .before (sees.read _) fun _ => .before (sees.read _) fun _ =>
      .before (.note _) fun _ => .pure _

theorem redeliver (record : Wake.Record) (due : List Redelivery) :
    Acts device view (Constraint.redeliver record due) id := by
  induction due with
  | nil => exact .pure _
  | cons r due ih =>
    rw [Constraint.redeliver_cons]
    exact .before (.when_id fun _ => .before (.when_id fun _ => .before (.note _) fun _ => .note _)
      fun _ => sees.emit fun _ _ => nofun) fun _ => ih

theorem resume (c : Constraint) (kind : Session.Kind) (outcome : Wake.Outcome)
    (hallow : .allowMailbox ∉ rs) (hevent : .eventMailbox ∉ rs)
    (finished : Acts device view (Bus.write map.powerDownMailbox 0#32) f) :
    Acts device view (c.resume map kind outcome) (if kind = .suspend then f else id) :=
  .after (.when fun _ => .before (sees.emit fun _ _ => nofun) fun _ => finished) fun _ =>
    .before (sees.announce _ _ hallow hevent) fun _ => sees.redeliver _ _

end SeesOnly

end LowPower.Bus

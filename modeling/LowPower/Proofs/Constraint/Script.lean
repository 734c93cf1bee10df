import LowPower.Proofs.Sequencer.Script

namespace LowPower.Constraint

open Bus (Event Follows Script)
open Bus.Script (given only store within given_le_only mul_le_only single_le_only
  store_le_within within_mono)

variable (map : Register.Map)

def announcing (a : Announcement) (allows : Allowance) : Script :=
  store map.allowMailbox allows.bits * store map.eventMailbox (a.word allows)

def preparing (kind : Session.Kind) : Script :=
  given (kind = .suspend) {[.write map.powerDownMailbox powerDownWord, .prepare]}

def launching (votes : ResourceSet) (c : Constraint) (session : Session) : Script :=
  announcing map .enter (c.entryAllows session.kind) *
    (preparing map session.kind * Sequencer.programming map session votes)

def finishing (kind : Session.Kind) : Script :=
  given (kind = .suspend) {[.finish, .write map.powerDownMailbox 0#32]}

def redelivered (record : Wake.Record) (rs : List Redelivery) : List Event :=
  (rs.filter (redeliveryDue record)).map fun r => .raise r.interrupt

def resuming (c : Constraint) (kind : Session.Kind) (outcome : Wake.Outcome) : Script :=
  finishing map kind * (announcing map .leave c.allows *
    {redelivered outcome.record c.variant.redeliveries})

theorem follows_announce (a : Announcement) (allows : Allowance) :
    Follows (announce map a allows) fun _ => announcing map a allows :=
  .after (.note _) fun _ => .seq (.write _ _) fun _ => .write _ _

theorem follows_launch (votes : ResourceSet) (c : Constraint) (session : Session) :
    Follows (launch map votes c session) fun _ => launching map votes c (c.prepare session) :=
  .seq (follows_announce map _ _) fun _ => .seq (.when fun _ => fun _ _ => ⟨_, rfl, rfl⟩) fun _ =>
    .after (.note _) fun _ => Sequencer.follows_program map (c.prepare session) votes

theorem follows_redeliver (record : Wake.Record) (rs : List Redelivery) :
    Follows (redeliver record rs) fun _ => {redelivered record rs} := by
  induction rs with
  | nil => exact .done ()
  | cons r rs ih =>
    rw [redeliver_cons]
    refine (Follows.seq (.when fun _ => .after (.mono (.when fun _ => .after (.note _) fun _ =>
      .note _) fun _ => ?_) fun _ => .emit _) fun _ => ih).mono fun _ => ?_
    · by_cases h : r.reported = true <;> simp [h]
    · by_cases h : redeliveryDue record r = true
      · rintro _ ⟨_, hes, _, rfl, rfl⟩
        simp only [Bus.Script.given_pos h] at hes
        cases hes
        simp [redelivered, h]
        rfl
      · simp [redelivered, h]

theorem follows_resume (c : Constraint) (kind : Session.Kind) (outcome : Wake.Outcome) :
    Follows (resume map c kind outcome) fun _ => resuming map c kind outcome :=
  .seq (.when fun _ => fun _ _ => ⟨_, rfl, rfl⟩) fun _ => .seq (follows_announce map _ _) fun _ =>
    follows_redeliver _ _

def announced (a : Announcement) : Script := {es | ∃ allows, es ∈ announcing map a allows}

def captured : Script := {es | ∃ r, es = Sequencer.captured map r}

def programmed : List Register.Name :=
  [.coreScratch, .coreMailbox, .wakeMask, .timerValue, .pcmControl, .swFlag0, .swFlag1,
    .sourceRequest, .clockRecord, .watchdogValue, .crystal, .s1Control]

/-- An entry is announced, and the platform is told of a suspend. Then the registers are
programmed, and then the sequence is started. After that only the timer of a suspend is stopped. -/
def entering (kind : Session.Kind) : Script :=
  announced map .enter * (preparing map kind * (within map programmed *
    (Sequencer.kicking map kind * only Event.IsRead)))

/-- The programming is undone, and then the wake is captured. Then the platform is told of the end
of a suspend, the leave is announced, and interrupts are raised again. -/
def leaving (kind : Session.Kind) : Script :=
  within map [.pcmControl, .crystal, .s1Control] * (store map.externalClear 1#32 *
    (captured map * (within map [.debugFlag] *
    (finishing map kind * (announced map .leave * only Event.IsRaise)))))

variable {map}

section

variable {γ : Type} {f : Event → Option γ}
  (hwrite : ∀ x, f (.write map.powerDownMailbox x) = none)
include hwrite

theorem shows_preparing_nil (hprepare : f .prepare = none) (kind : Session.Kind) :
    Bus.Script.Shows f (preparing map kind) [] := .given_nil fun _ => by
  rintro _ rfl
  simp [hwrite, hprepare]

theorem shows_finishing_nil (hfinish : f .finish = none) (kind : Session.Kind) :
    Bus.Script.Shows f (finishing map kind) [] := .given_nil fun _ => by
  rintro _ rfl
  simp [hwrite, hfinish]

end

theorem announcing_le_within (a : Announcement) (allows : Allowance) :
    announcing map a allows ≤ within map [.allowMailbox, .eventMailbox] :=
  mul_le_only (store_le_within .allowMailbox (by decide) _)
    (store_le_within .eventMailbox (by decide) _)

theorem announcing_le (a : Announcement) (allows : Allowance) :
    announcing map a allows ≤ announced map a :=
  fun _ hes => ⟨allows, hes⟩

theorem launching_le (votes : ResourceSet) (c : Constraint) (session : Session) :
    launching map votes c session ≤ entering map session.kind := by
  refine mul_le_mul' (announcing_le _ _) (mul_le_mul' le_rfl ?_)
  -- The stages of the programming are taken together before the sequence is started.
  rw [Sequencer.programming, ← mul_assoc, ← mul_assoc]
  refine mul_le_mul' (mul_le_only (mul_le_only ?_ ?_) ?_) le_rfl
  · exact (Sequencer.programmingWake_le session).trans (within_mono (by decide))
  · exact (Sequencer.programmingFlags_le session votes).trans (within_mono (by decide))
  · exact (Sequencer.programmingOptions_le session.options).trans (within_mono (by decide))

theorem programming_le_within (session : Session) (votes : ResourceSet) :
    Sequencer.programming map session votes ≤ within map (.kick :: programmed) := by
  refine mul_le_only ((Sequencer.programmingWake_le session).trans (within_mono (by decide))) ?_
  refine mul_le_only
    ((Sequencer.programmingFlags_le session votes).trans (within_mono (by decide))) ?_
  refine mul_le_only
    ((Sequencer.programmingOptions_le session.options).trans (within_mono (by decide))) ?_
  exact mul_le_only ((Sequencer.kicking_le session.kind).trans (within_mono (by decide)))
    Bus.Script.reads_le_within

def restored : List Register.Name := [.pcmControl, .crystal, .s1Control, .externalClear, .debugFlag]

theorem waking_le_within (options : SessionOptions) (outcome : Wake.Outcome) :
    Sequencer.waking map options outcome ≤ within map restored := by
  refine mul_le_only ((Sequencer.undoing_le options).trans (mul_le_only (within_mono (by decide))
    (store_le_within .externalClear (by decide) _))) (mul_le_only ?_ ?_)
  · rintro es ⟨r, seen, code, -, hes⟩
    have read : ({Sequencer.captured map r} : Script) ≤ within map restored :=
      single_le_only (by simp [Sequencer.captured, Event.IsWithin])
    exact mul_le_only read
      (given_le_only fun _ => store_le_within .debugFlag (by decide) _) hes
  · exact single_le_only (by simp [Event.IsWithin])

theorem waking_mul_resuming_le (options : SessionOptions) (c : Constraint) (kind : Session.Kind)
    (outcome : Wake.Outcome) :
    Sequencer.waking map options outcome * resuming map c kind outcome ≤ leaving map kind := by
  have captured : Sequencer.capturing map outcome.record *
      {[.read map.interruptStatus outcome.interruptStatus,
        .read map.sourceRequest outcome.sourceRequest]} ≤
      captured map * within map [.debugFlag] := by
    have read : ({[.read map.interruptStatus outcome.interruptStatus,
        .read map.sourceRequest outcome.sourceRequest]} : Script) ≤ within map [.debugFlag] :=
      single_le_only (List.forall_mem_cons.mpr ⟨trivial, List.forall_mem_singleton.mpr trivial⟩)
    rintro _ ⟨_, ⟨r, seen, code, -, fs, rfl, mark, hmark, rfl⟩, es, hes, rfl⟩
    have marked : store map.debugFlag (Sequencer.marked seen r).debugFlag ≤
        within map [.debugFlag] := store_le_within .debugFlag (by decide) _
    dsimp only
    rw [List.append_assoc]
    exact Language.append_mem_mul ⟨r, rfl⟩
      (mul_le_only (given_le_only fun _ => marked) read (Language.append_mem_mul hmark hes))
  have raised : ({redelivered outcome.record c.variant.redeliveries} : Script) ≤
      only Event.IsRaise := by
    refine single_le_only fun e he => ?_
    obtain ⟨r, -, rfl⟩ := List.mem_map.mp he
    exact trivial
  calc Sequencer.waking map options outcome * resuming map c kind outcome
    _ ≤ _ := mul_le_mul' (mul_le_mul' (Sequencer.undoing_le options) captured)
        (mul_le_mul' le_rfl (mul_le_mul' (announcing_le _ _) raised))
    _ = leaving map kind := by simp only [leaving, mul_assoc]

end LowPower.Constraint

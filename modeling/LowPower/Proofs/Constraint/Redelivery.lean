import LowPower.Proofs.Constraint.Script
import LowPower.Proofs.Ladder.Reaction
import LowPower.Proofs.Word

namespace LowPower

open Bus (Event Script)
open Bus.Script (Shows)

def Bus.Event.raised? : Event → Option Interrupt
  | .raise interrupt => some interrupt
  | _ => none

def Bus.raised (h : Bus.History) : List Interrupt := shown Event.raised? h

namespace Redelivery

def Lost (record : Wake.Record) (r : Redelivery) : Prop :=
  ∃ n, r.sources.getLsbD n = true ∧
    (record.event.getLsbD n = true ∨ record.rawStatus.getLsbD n = true)

theorem redeliveryDue_eq_true_iff {record : Wake.Record} {r : Redelivery} :
    Constraint.redeliveryDue record r = true ↔ r.Lost record := by
  rw [Constraint.redeliveryDue, bne_iff_ne, Word.and_ne_zero_iff]
  refine exists_congr fun n => ?_
  rw [BitVec.getLsbD_or, Bool.or_eq_true, and_comm]

instance (record : Wake.Record) : DecidablePred (Lost record) := fun _ =>
  decidable_of_iff _ redeliveryDue_eq_true_iff

def lost (record : Wake.Record) (rs : List Redelivery) : List Interrupt :=
  (rs.filter (Lost record)).map (·.interrupt)

end Redelivery

namespace Constraint

variable {map : Register.Map}

theorem shows_raised_redelivered (record : Wake.Record) (rs : List Redelivery) :
    Shows Event.raised? {redelivered record rs} (Redelivery.lost record rs) := by
  have due : redeliveryDue record = fun r => decide (r.Lost record) := by
    funext r
    exact Bool.eq_iff_iff.mpr (Redelivery.redeliveryDue_eq_true_iff.trans decide_eq_true_iff.symm)
  rintro _ rfl
  rw [redelivered, due, List.filterMap_map, Redelivery.lost, ← List.filterMap_eq_map]
  rfl

theorem shows_raised_within (rs : List Register.Name) {s : Script} (hle : s ≤ .within map rs) :
    Shows Event.raised? s [] :=
  .mono (.within (fun _ _ => rfl) fun _ _ _ => rfl) hle

theorem shows_raised_announcing (a : Announcement) (allows : Allowance) :
    Shows Event.raised? (announcing map a allows) [] :=
  shows_raised_within _ (announcing_le_within a allows)

theorem shows_raised_launching (votes : ResourceSet) (c : Constraint) (session : Session) :
    Shows Event.raised? (launching map votes c session) [] := by
  have prepared : Shows Event.raised? (preparing map session.kind) [] :=
    shows_preparing_nil (fun _ => rfl) rfl _
  exact (shows_raised_announcing _ _).mul
    (prepared.mul (shows_raised_within _ (programming_le_within session votes)))

theorem shows_raised_resuming (c : Constraint) (kind : Session.Kind) (outcome : Wake.Outcome) :
    Shows Event.raised? (resuming map c kind outcome)
      (Redelivery.lost outcome.record c.variant.redeliveries) := by
  have finished : Shows Event.raised? (finishing map kind) [] :=
    shows_finishing_nil (fun _ => rfl) rfl kind
  exact finished.mul ((shows_raised_announcing _ _).mul
    (shows_raised_redelivered outcome.record c.variant.redeliveries))

namespace Variant

def reassign (v : Variant) (rs : List Redelivery) : Variant :=
  match v with
  | .bus26m _ => .bus26m rs
  | _ => v

def assigned (v : Variant) (assignments : List (List Redelivery)) : List Redelivery :=
  match v with
  | .bus26m initial => assignments.getLast?.getD initial
  | _ => []

theorem foldl_reassign (v : Variant) (assignments : List (List Redelivery)) :
    assignments.foldl reassign v = assignments.getLast?.elim v v.reassign := by
  induction assignments generalizing v with
  | nil => rfl
  | cons rs assignments ih =>
    have again (rs' : List Redelivery) : (v.reassign rs).reassign rs' = v.reassign rs' := by
      cases v <;> rfl
    rw [List.foldl_cons, ih, List.getLast?_cons]
    cases assignments.getLast? with
    | none => rfl
    | some last => exact again last

theorem redeliveries_foldl (v : Variant) (assignments : List (List Redelivery)) :
    (assignments.foldl reassign v).redeliveries = v.assigned assignments := by
  rw [foldl_reassign]
  cases v with
  | bus26m initial =>
    change _ = assignments.getLast?.getD initial
    cases assignments.getLast? <;> rfl
  | _ =>
    cases assignments.getLast? <;> rfl

end Variant

def Request.assignments : Request → List (List Redelivery)
  | .redeliver interrupts => [interrupts]
  | _ => []

theorem variant_apply {shape : Clock.Shape} {request : Request} {c c' : Constraint}
    (h : c.apply shape request = .ok c') :
    c'.variant = request.assignments.foldl Variant.reassign c.variant := by
  rw [(changed_of_apply h).variant]
  cases request with
  | redeliver =>
    cases hv : c.variant <;> rfl
  | _ => rfl

theorem reacts_variant (shape : Clock.Shape) : Reacts shape (·.variant) fun v request =>
    request.assignments.foldl Variant.reassign v where
  check _ _ := rfl
  residency _ _ := rfl
  entry _ := rfl
  apply request c := by
    cases h : c.apply shape request with
    | ok c' =>
      rw [afterApply, h]
      exact variant_apply h
    | error failure =>
      rw [afterApply, h]
      cases request with
      | redeliver => cases h
      | _ => rfl

end Constraint

end LowPower

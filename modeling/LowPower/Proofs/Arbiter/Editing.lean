import LowPower.Platform.Mt8192
import LowPower.Proofs.Arbiter.Reaction

namespace LowPower

open Clock (Table)
open Clock.Table (Edit)

namespace Constraint

def Request.edit? : Request → Option Edit
  | .editForbidden entry value on => some ⟨entry, value, on⟩
  | _ => none

def Request.edited (shape : Clock.Shape) (t : Table) (request : Request) : Table :=
  match request.edit? with
  | some e => t.edited shape e
  | none => t

theorem forbidden_putMemoryFlag (c : Constraint) (flag : ConstraintFlags) (on : Bool) :
    (c.putMemoryFlag flag on).forbidden = c.forbidden := by
  rw [putMemoryFlag]
  split <;> rfl

theorem reacts_forbidden (shape : Clock.Shape) :
    Reacts shape (·.forbidden) (Request.edited shape) where
  check _ _ := rfl
  residency _ _ := rfl
  entry _ := rfl
  apply request c := by
    cases request with
    | editForbidden entry value on =>
      change _ = c.forbidden.edited shape ⟨entry, value, on⟩
      simp only [afterApply, apply, Table.edited]
      cases c.forbidden.edit shape entry value on with
      | error fault => rfl
      | ok edited => cases edited <;> rfl
    | flightMode on => exact c.forbidden_putMemoryFlag .flightMode on
    | storageClockOff on => exact c.forbidden_putMemoryFlag .storageClockOff on
    | redeliver interrupts =>
      obtain ⟨variant, status, forbidden⟩ := c
      cases variant <;> rfl
    | _ => rfl

theorem foldl_edited (shape : Clock.Shape) (requests : List Request) (t : Table) :
    requests.foldl (Request.edited shape) t =
      t.editAll shape (requests.filterMap (·.edit?)) := by
  rw [Table.editAll, List.foldl_filterMap]
  congr 1
  funext t request
  rw [Request.edited]
  cases request.edit? <;> rfl

end Constraint

def Operation.edits (n : Nat) (op : Operation) : List Edit := (op.requests n).filterMap (·.edit?)

namespace Arbiter

variable {p : Platform} {device : Device} {a b : Arbiter} {i j : Journal}
  {ops : List (Operation × Answer)}

theorem Steps.forbidden (started : Started p device a i) (steps : Steps p device a i ops b j)
    (n : Nat) : b.ladder.observe (·.forbidden) n = (p.constraints[n]?).map fun c =>
      c.forbidden.editAll p.layout.shape (ops.flatMap (·.1.edits n)) := by
  have accepted := started.fresh.accepted
  obtain ⟨l, rfl, constraints, shape⟩ := started.fresh.state
  have reacts : Constraint.Reacts (initial l).ladder.shape (·.forbidden)
      (Constraint.Request.edited p.layout.shape) := shape ▸ Constraint.reacts_forbidden _
  rw [steps.observe_react accepted (.initial l) reacts]
  change ((l.constraints[n]?).map _).map _ = _
  rw [constraints, List.getElem?_map, Option.map_map, Option.map_map]
  congr 1
  funext c
  change (ops.flatMap (·.1.requests n)).foldl _ c.forbidden = _
  rw [Constraint.foldl_edited, List.filterMap_flatMap]
  rfl

/-- Let the domains and the PLLs of a shape fit in a table. An edit is done exactly if its entry is
in use. It then sets or clears the bits it names and no other ones, and if it is refused then none
changes. Edits of different entries commute, an edit which is repeated changes nothing more, and a
later edit overrides the earlier ones in the bits it names. So after any edits each bit is as the
last one left it which was done and named it, or else as it was. The forbidden tables are edited so
over any run, and nothing else changes them. -/
theorem edits_are_independent :
    (∀ shape : Clock.Shape, shape.Fits → ∀ t : Table,
      (∀ e : Edit,
        (e.Placed shape → ∃ u, t.edit shape e.entry e.value e.on = .ok (some u) ∧
          ∀ x, u.bit x = if e.Names shape x then e.on else t.bit x) ∧
        (¬ e.Placed shape → t.edit shape e.entry e.value e.on = .ok none ∧
          t.edited shape e = t)) ∧
      (∀ e e' : Edit, e.entry ≠ e'.entry →
        t.editAll shape [e, e'] = t.editAll shape [e', e]) ∧
      (∀ e, t.editAll shape [e, e] = t.editAll shape [e]) ∧
      (∀ es e x, (t.editAll shape (es ++ [e])).bit x =
        if e.Decides shape x then e.on else (t.editAll shape es).bit x) ∧
      ∀ es x, (t.editAll shape es).bit x = (Table.decided shape es x).getD (t.bit x)) ∧
    ∀ p device a i ops b j, Started p device a i → Steps p device a i ops b j → ∀ n,
      b.ladder.observe (·.forbidden) n = (p.constraints[n]?).map fun c =>
        c.forbidden.editAll p.layout.shape (ops.flatMap (·.1.edits n)) := by
  refine ⟨fun shape fits t => ⟨fun e => ⟨fun placed => ?_, fun misplaced => ?_⟩, ?_, ?_, ?_, ?_⟩,
    fun _ _ _ _ _ _ _ started steps => steps.forbidden started⟩
  · obtain ⟨u, done⟩ := t.exists_edit fits placed
    exact ⟨u, done, Table.bit_edit done⟩
  · exact ⟨Table.edit_of_le (Nat.not_lt.mp misplaced), Table.edited_of_not_placed misplaced t⟩
  · exact fun e e' other => Table.editAll_comm fits other t
  · exact fun e => Table.editAll_self fits e t
  · intro es e x
    rw [Table.editAll, List.foldl_append]
    exact Table.bit_edited fits e _ x
  · exact fun es x => Table.bit_editAll fits es t x

theorem edits_are_independent_refused : ∃ a i ops b j d,
    Started Mt8192.platform (.memory fun _ => 0#32) a i ∧
    Steps Mt8192.platform (.memory fun _ => 0#32) a i ops b j ∧
    b.ladder.observe (·.forbidden) 1 = some d ∧
    d = Mt8192.syspllForbidden.editAll Mt8192.layout.shape [⟨2, 0x30#32, true⟩, ⟨12, 7#32, true⟩,
      ⟨2, 0x10#32, false⟩, ⟨15, 1#32, true⟩, ⟨12, 0#32, false⟩] ∧
    d.edit Mt8192.layout.shape 15 1#32 true = .ok none ∧
    d.editAll Mt8192.layout.shape [⟨2, 1#32, true⟩, ⟨12, 1#32, false⟩] =
      d.editAll Mt8192.layout.shape [⟨12, 1#32, false⟩, ⟨2, 1#32, true⟩] ∧
    d.bit (.domain ⟨2, by decide⟩ 4) = false ∧ d.bit (.domain ⟨2, by decide⟩ 5) = true ∧
    d.bit (.pll 2) = true := by
  obtain ⟨laws, runs⟩ := edits_are_independent
  have fits : Mt8192.layout.shape.Fits := Mt8192.platform_accepted.layout.fits
  have edits : (replayAll Mt8192.platform (.memory fun _ => 0#32)
      [.notify (.index 1) (.editForbidden 2 0x30#32 true),
        .notify .all (.editForbidden 12 7#32 true),
        .control (.update (.index 1) (.editForbidden 2 0x10#32 false)),
        .notify .all (.editForbidden 15 1#32 true),
        .notify (.index 1) (.editForbidden 12 0#32 false)]).any (fun r =>
          r.1.flatMap (·.1.edits 1) = [⟨2, 0x30#32, true⟩, ⟨12, 7#32, true⟩,
            ⟨2, 0x10#32, false⟩, ⟨15, 1#32, true⟩, ⟨12, 0#32, false⟩]) = true := by
    decide +kernel
  obtain ⟨⟨ops, b, j⟩, hrun, h⟩ := (Option.any_eq_true _ _).mp edits
  obtain ⟨a, i, started, steps⟩ := run_of_replayAll hrun
  have forbidden := runs _ _ _ _ _ _ _ started steps 1
  rw [of_decide_eq_true h] at forbidden
  obtain ⟨-, -, -, -, latest⟩ := laws _ fits Mt8192.syspllForbidden
  refine ⟨a, i, ops, b, j, _, started, steps, forbidden, rfl, ?_, ?_, ?_, ?_, ?_⟩
  · exact (((laws _ fits _).1 ⟨15, 1#32, true⟩).2 (by decide)).1
  · exact (laws _ fits _).2.1 ⟨2, 1#32, true⟩ ⟨12, 1#32, false⟩ (by decide)
  · exact (latest _ _).trans (by decide +kernel)
  · exact (latest _ _).trans (by decide +kernel)
  · exact (latest _ _).trans (by decide +kernel)

end Arbiter

end LowPower

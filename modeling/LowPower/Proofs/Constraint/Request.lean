import LowPower.Proofs.Constraint.Script
import LowPower.Proofs.Flags

namespace LowPower.Constraint

open Bus (Event Script)
open Bus.Script (Shows store_le_within)

variable {map : Register.Map} {r : Register.Name}

section

variable (distinct : map.Distinct)
include distinct

theorem shows_preparing (kind : Session.Kind) (h : r ≠ .powerDownMailbox) :
    Shows (Event.writtenTo? (map.at r)) (preparing map kind) [] := by
  refine shows_preparing_nil (fun x => ?_) rfl kind
  have hidden := Event.writtenTo?_at distinct r .powerDownMailbox x
  rwa [if_neg h.symm] at hidden

theorem shows_finishing (kind : Session.Kind) (h : r ≠ .powerDownMailbox) :
    Shows (Event.writtenTo? (map.at r)) (finishing map kind) [] := by
  refine shows_finishing_nil (fun x => ?_) rfl kind
  have hidden := Event.writtenTo?_at distinct r .powerDownMailbox x
  rwa [if_neg h.symm] at hidden

theorem shows_launching (votes : ResourceSet) (c : Constraint) (session : Session) :
    Shows (Event.writtenTo? map.sourceRequest) (launching map votes c session)
      [(Sequencer.request session votes).bits] := by
  have announced := Shows.unwritten (r := .sourceRequest) distinct _
    (announcing_le_within .enter (c.entryAllows session.kind)) (by decide)
  have prepared := shows_preparing distinct session.kind (r := .sourceRequest) (by decide)
  have wake := Shows.unwritten (r := .sourceRequest) distinct _
    (Sequencer.programmingWake_le session) (by decide)
  have flags : Shows (Event.writtenTo? (map.at .sourceRequest))
      (Sequencer.programmingFlags map session votes)
      ([] ++ ([] ++ [(Sequencer.request session votes).bits])) :=
    .mul (.store_at distinct .sourceRequest .swFlag0 _)
      (.mul (.store_at distinct .sourceRequest .swFlag1 _)
      (.store_at distinct .sourceRequest .sourceRequest _))
  have options := Shows.unwritten (r := .sourceRequest) distinct _
    (Sequencer.programmingOptions_le session.options) (by decide)
  have kicked := Shows.unwritten (r := .sourceRequest) distinct _
    (Sequencer.kicking_le session.kind) (by decide)
  exact announced.mul (prepared.mul (wake.mul (flags.mul (options.mul (kicked.mul (.reads _))))))

end

def undone : List Register.Name :=
  [.pcmControl, .crystal, .s1Control, .externalClear, .debugFlag, .powerDownMailbox,
    .allowMailbox, .eventMailbox]

theorem shows_leaving (distinct : map.Distinct) (kind : Session.Kind) (h : r ∉ undone) :
    Shows (Event.writtenTo? (map.at r)) (leaving map kind) [] := by
  have outside : ∀ {rs}, rs ⊆ undone → r ∉ rs := fun hsub hr => h (hsub hr)
  have read : Shows (Event.writtenTo? (map.at r)) (captured map) [] := by
    rintro _ ⟨record, rfl⟩
    rfl
  have raised : Shows (Event.writtenTo? (map.at r)) (Bus.Script.only Event.IsRaise) [] :=
    .only fun e he => by
      cases e with
      | raise => rfl
      | _ => exact he.elim
  have announced : Shows (Event.writtenTo? (map.at r)) (announced map .leave) [] := by
    rintro es ⟨allows, hes⟩
    exact Shows.unwritten distinct _ (announcing_le_within .leave allows) (outside (by decide)) es
      hes
  have finished := shows_finishing distinct kind (r := r) fun heq => h (by rw [heq]; decide)
  exact .mul (.unwritten distinct _ le_rfl (outside (by decide))) (.mul
    (.unwritten distinct _ (store_le_within .externalClear (List.mem_singleton_self _) _)
      (outside (by decide))) (read.mul (.mul
    (.unwritten distinct _ le_rfl (outside (by decide))) (finished.mul (announced.mul raised)))))

/-- What is requested for a session is what its constraint keeps. The votes add nothing, since the
constraint keeps what is voted for, and so nothing is lost if they are ignored. -/
theorem request_prepare {votes : ResourceSet} {c : Constraint} {session : Session}
    (bare : session.request = ∅) (honoured : c.honours votes = true) :
    Sequencer.request (c.prepare session) votes = c.keeps := by
  have kept : (c.prepare session).request = c.keeps := by
    change session.request ∪ c.keeps = c.keeps
    rw [bare, Flags.empty_union]
  rw [Sequencer.request, kept]
  split
  · rfl
  · exact Flags.union_eq_of_contains honoured

end LowPower.Constraint

import LowPower.Platform.Mt8192
import LowPower.Proofs.Clock.Contents
import LowPower.Proofs.Ladder.Firmware

namespace LowPower

theorem Votes.contains_required_of_le {v u : Votes} (h : ∀ r, v.count r ≤ u.count r) :
    u.required.contains v.required = true := by
  refine contains_required.mpr fun r hr => ?_
  rw [ResourceSet.contains_toSet, getLsbD_required, bne_iff_ne]
  have := h r
  omega

namespace Constraint

structure Eases (c d : Constraint) : Prop where
  keeps : c.keeps = d.keeps
  flags : c.status.flags = d.status.flags
  forbidden : c.forbidden.Within d.forbidden

namespace Eases

variable {c d : Constraint} {live live' : Clock.Table} {required required' : ResourceSet}

theorem refl (c : Constraint) : Eases c c := ⟨rfl, rfl, .refl _⟩

theorem eligible (h : Eases c d) (clocks : live.Within live')
    (eligible : (d.check live').eligible = true) : (c.check live).eligible = true := by
  rw [eligible_check_iff] at eligible ⊢
  rw [h.flags]
  obtain ⟨software, firmware, unblocked⟩ := eligible
  exact ⟨software, firmware, unblocked.imp_right fun apart => apart.of_within clocks h.forbidden⟩

theorem honours (h : Eases c d) (less : required'.contains required = true)
    (honours : d.honours required' = true) : c.honours required = true := by
  rw [Constraint.honours, h.keeps]
  exact Flags.contains_trans honours less

theorem accepts (h : Eases c d) (clocks : live.Within live')
    (less : required'.contains required = true)
    (accepts : Ladder.accepts required' (d.check live') = true) :
    Ladder.accepts required (c.check live) = true := by
  rw [Ladder.accepts, Bool.and_eq_true] at accepts ⊢
  exact ⟨h.eligible clocks accepts.1, h.honours less accepts.2⟩

end Eases

theorem eases_of_edit {shape : Clock.Shape} {c d : Constraint} {entry : Nat} {value : Word}
    (h : c.apply shape (.editForbidden entry value false) = .ok d) : d.Eases c := by
  simp only [apply] at h
  split at h
  · cases h
  · cases h
  · next hedit =>
    cases h
    exact ⟨rfl, rfl, Clock.Table.edit_false_within hedit⟩

end Constraint

namespace Ladder

variable {l m : Ladder} {live live' : Clock.Table} {required required' : ResourceSet}
  {start start' j : Nat}

theorem select?_le (h : List.Forall₂ Constraint.Eases l.constraints m.constraints)
    (clocks : live.Within live') (less : required'.contains required = true)
    (earlier : start ≤ start') (selected : (m.check live').select? start' required' = some j) :
    ∃ i ≤ j, (l.check live).select? start required = some i := by
  classical
  obtain ⟨⟨hj, d, hd, haccepts⟩, -⟩ := (select?_eq_some_iff ..).mp selected
  change (m.constraints.map (·.check live'))[j]? = some d at hd
  rw [List.getElem?_map, Option.map_eq_some_iff] at hd
  obtain ⟨d, hd, rfl⟩ := hd
  obtain ⟨hlt', rfl⟩ := List.getElem?_eq_some_iff.mp hd
  have hlt : j < l.constraints.length := h.length_eq ▸ hlt'
  have eased : l.constraints[j].Eases m.constraints[j] := h.get hlt hlt'
  have hget : (l.check live).constraints[j]? = some (l.constraints[j].check live) := by
    change (l.constraints.map (·.check live))[j]? = _
    rw [List.getElem?_map, List.getElem?_eq_getElem hlt, Option.map_some]
  have accepted := eased.accepts clocks less haccepts
  -- The same place may be selected on the other side, if no earlier one is.
  have found : ∃ k, start ≤ k ∧ ∃ c, (l.check live).constraints[k]? = some c ∧
      accepts required c = true := ⟨j, earlier.trans hj, _, hget, accepted⟩
  have least := Nat.isLeast_find found
  exact ⟨_, least.2 ⟨earlier.trans hj, _, hget, accepted⟩, (select?_eq_some_iff ..).mpr least⟩

/-- Let one ladder have the constraints and the flags of another one and forbid no more, and let no
more be running and no more be required. Then a search from the same place or from an earlier one
selects the same constraint or a deeper one. Less is running when a clock is gated, a mux is parked
or a PLL is stopped, less is required when a vote is withdrawn or released, and less is forbidden
when a mask is relaxed. -/
theorem selection_monotone :
    (∀ (l m : Ladder) (live live' : Clock.Table) (required required' : ResourceSet)
        (start start' : Nat), List.Forall₂ Constraint.Eases l.constraints m.constraints →
      live.Within live' → required'.contains required = true → start ≤ start' →
      ∀ j, (m.check live').select? start' required' = some j →
        ∃ i ≤ j, (l.check live).select? start required = some i) ∧
    (∀ (map : Register.Map) (layout : Clock.Layout) (contents contents' : Address → Word)
        (h h' k k' : Journal) (live live' : Clock.Table), layout.Valid →
      layout.Quieter map contents contents' →
      (layout.snapshot map).run (.constant contents) h = (.ok live, k) →
      (layout.snapshot map).run (.constant contents') h' = (.ok live', k') →
      live.Within live') ∧
    (∀ (votes : Votes) (r : Resource),
      votes.required.contains (votes.withdraw r).required = true ∧
      votes.required.contains (votes.cast r false).required = true) ∧
    ∀ (l : Ladder) (target : Target) (entry : Nat) (value : Word),
      List.Forall₂ Constraint.Eases
        (l.apply target (.editForbidden entry value false)).2.constraints l.constraints := by
  refine ⟨?_, ?_, ?_, ?_⟩
  · exact fun _ _ _ _ _ _ _ _ h clocks less earlier _ => select?_le h clocks less earlier
  · intro map layout contents contents' h h' k k' live live' valid quieter looked looked'
    rw [layout.snapshot_constant valid] at looked looked'
    have seen : layout.tableIn map contents = live := Except.ok.inj (congrArg Prod.fst looked)
    have seen' : layout.tableIn map contents' = live' := Except.ok.inj (congrArg Prod.fst looked')
    rw [← seen, ← seen']
    exact quieter.table
  · intro votes r
    refine ⟨Votes.contains_required_of_le fun s => ?_, Votes.contains_required_of_le fun s => ?_⟩
    · rw [Votes.count_withdraw]
      split <;> omega
    · rw [Votes.count_cast]
      split
      · next heq =>
        subst heq
        exact Nat.sub_le _ _
      · exact le_rfl
  · intro l target entry value
    exact List.Forall₂.flip
      (forall₂_apply (fun c => Constraint.Eases.refl c) fun _ _ => Constraint.eases_of_edit)

theorem selection_monotone_pll_stopped : ∃ (l : Ladder) (live live' : Clock.Table) (k k' : Journal),
    (Mt8192.layout.snapshot Mt8192.map).run (.constant fun _ => 0#32) .empty = (.ok live, k) ∧
    (Mt8192.layout.snapshot Mt8192.map).run
      (.constant fun a => if a = Mt8192.pllBase + 0x0308 then 1#32 else 0#32) .empty =
        (.ok live', k') ∧
    (l.check live').select? 0 Votes.none.required = some 1 ∧
    ∃ i ≤ 1, (l.check live).select? 0 Votes.none.required = some i := by
  obtain ⟨selects, looks, -, -⟩ := selection_monotone
  have valid : Mt8192.layout.Valid := Mt8192.platform_accepted.layout
  have quieter : Mt8192.layout.Quieter Mt8192.map (fun _ => 0#32)
      fun a => if a = Mt8192.pllBase + 0x0308 then 1#32 else 0#32 :=
    ⟨by decide +kernel, by decide +kernel, by decide +kernel, by decide +kernel⟩
  have looked := Mt8192.layout.snapshot_constant valid Mt8192.map (fun _ => 0#32) .empty
  have looked' := Mt8192.layout.snapshot_constant valid Mt8192.map
    (fun a => if a = Mt8192.pllBase + 0x0308 then 1#32 else 0#32) .empty
  let l : Ladder := { empty with constraints := Mt8192.constraints.map Constraint.init }
  have selected : (l.ready.check (Mt8192.layout.tableIn Mt8192.map
      fun a => if a = Mt8192.pllBase + 0x0308 then 1#32 else 0#32)).select? 0
        Votes.none.required = some 1 := by
    decide +kernel
  refine ⟨l.ready, _, _, _, _, looked, looked', selected, ?_⟩
  exact selects l.ready l.ready _ _ _ _ 0 0 (List.forall₂_same.mpr fun c _ => .refl c)
    (looks _ _ _ _ _ _ _ _ _ _ valid quieter looked looked') (by decide) le_rfl 1 selected

end Ladder

end LowPower

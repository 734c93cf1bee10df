import LowPower.Clock.Snapshot
import LowPower.Proofs.Bus.Emission

namespace LowPower.Clock

open Bus (Action Emits Event Passive)

def Probe.survey (bits : Word) (i : Nat) : List Probe → Action Word
  | [] => return bits
  | p :: ps => do
    let control ← Bus.read p.register
    survey (if control.getLsbD 0 then bits ||| BitVec.twoPow 32 i else bits) (i + 1) ps

theorem Probe.run_observeAll (bits : Word) (i : Nat) (ps : List Probe)
    (h : i + ps.length ≤ 32) : (observeAll bits i ps).run = .ok <$> survey bits i ps := by
  induction ps generalizing bits i with
  | nil => rfl
  | cons p ps ih =>
    have hi : ¬ 32 ≤ i := by
      rw [List.length_cons] at h
      omega
    have hrest : i + 1 + ps.length ≤ 32 := by
      rw [List.length_cons] at h
      omega
    rw [observeAll, survey, map_bind]
    change ExceptT.run (ExceptT.lift (Bus.read p.register) >>= _) = _
    rw [ExceptT.run_bind_lift]
    congr 1
    funext control
    by_cases hc : control.getLsbD 0 = true
    · simp only [hc, hi, if_true, if_false]
      exact ih _ _ hrest
    · simp only [hc]
      exact ih _ _ hrest

theorem Probe.lt_of_getLsbD_survey {bits : Word} {i : Nat} {ps : List Probe} {device : Device}
    {j : Journal} {k : Nat} (h : (survey bits i ps device j).1.getLsbD k = true) :
    bits.getLsbD k = true ∨ k < i + ps.length := by
  induction ps generalizing bits i j with
  | nil => exact .inl h
  | cons p ps ih =>
    rw [List.length_cons]
    rcases ih h with hbits | hlt
    · split at hbits
      · rw [BitVec.getLsbD_or, BitVec.getLsbD_twoPow, Bool.or_eq_true, Bool.and_eq_true,
          decide_eq_true_eq, decide_eq_true_eq] at hbits
        exact hbits.imp_right fun h => by omega
      · exact .inl hbits
    · right
      omega

def Layout.observation (map : Register.Map) (l : Layout) : Action Table := do
  let words ← Domain.observeAll map (l.domains.take domainCapacity)
  let plls ← Probe.survey 0#32 0 l.plls
  let table := Table.ofList words plls
  Bus.note (.snapshot table)
  return table

theorem Layout.run_snapshot {l : Layout} (h : l.Valid) (map : Register.Map) :
    (l.snapshot map).run = .ok <$> l.observation map := by
  have hp : 0 + l.plls.length ≤ 32 := by
    have := h.plls
    simp only [probeBound, Table.pllShift] at this
    omega
  rw [snapshot, observation, map_bind]
  change ExceptT.run (ExceptT.lift (Domain.observeAll map _) >>= _) = _
  rw [ExceptT.run_bind_lift]
  congr 1
  funext words
  rw [ExceptT.run_bind, Probe.run_observeAll _ _ _ hp, bind_map_left, map_bind]
  rfl

theorem Layout.lt_of_getLsbD_observation {l : Layout} {map : Register.Map} {device : Device}
    {j : Journal} {k : Nat} (h : (l.observation map device j).1.plls.getLsbD k = true) :
    k < l.plls.length := by
  rcases Probe.lt_of_getLsbD_survey h with hzero | hlt
  · rw [BitVec.getLsbD_zero] at hzero
    cases hzero
  · rwa [Nat.zero_add] at hlt

theorem Domain.passive_observe (status : Word) (d : Domain) : Passive (d.observe status) := by
  unfold observe Mux.isParked
  split
  · split
    · exact .bind (.read _) fun _ => .pure _
    · refine .bind (.bind (.read _) fun _ => .pure _) fun parked => ?_
      split
      · exact .pure _
      · exact .bind (.read _) fun _ => .pure _
  · exact .pure _

theorem Domain.passive_mapM (status : Word) (ds : List Domain) :
    Passive (ds.mapM (observe status)) := by
  induction ds with
  | nil => exact .pure _
  | cons d ds ih =>
    rw [List.mapM_cons]
    exact .bind (passive_observe status d) fun _ => .bind ih fun _ => .pure _

theorem Domain.passive_observeAll (map : Register.Map) (ds : List Domain) :
    Passive (observeAll map ds) :=
  .bind (.read _) fun _ => .bind (.read _) fun _ => passive_mapM _ _

theorem Probe.passive_survey (bits : Word) (i : Nat) (ps : List Probe) :
    Passive (survey bits i ps) := by
  induction ps generalizing bits i with
  | nil => exact .pure _
  | cons p ps ih => exact .bind (.read _) fun _ => ih _ _

theorem Layout.emits_observation (map : Register.Map) (l : Layout) :
    Emits Event.IsRead (l.observation map) :=
  .bind (Domain.passive_observeAll map _).emits fun _ =>
    .bind (Probe.passive_survey _ _ _).emits fun _ => .bind (Emits.note _) fun _ => .pure _

end LowPower.Clock

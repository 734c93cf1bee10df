import LowPower.Platform.Mt8192
import LowPower.Proofs.Bus.Looks
import LowPower.Proofs.Clock.Observation
import LowPower.Proofs.Clock.Order

namespace LowPower

def Device.constant (contents : Address → Word) : Device := fun _ => contents

namespace Clock

variable {contents contents' : Address → Word} {map : Register.Map}

def Domain.wordIn (contents : Address → Word) (status : Word) (d : Domain) : Word :=
  if d.powered status then
    match d.mux with
    | none => d.running (contents d.gate)
    | some m => if m.parkedIn (contents m.register) then 0#32 else d.running (contents d.gate)
  else 0#32

def rails (map : Register.Map) (contents : Address → Word) : Word :=
  contents map.powerStatus ||| contents map.powerStatus2nd

/-- What the registers say is running. -/
def Layout.tableIn (map : Register.Map) (contents : Address → Word) (l : Layout) : Table :=
  .ofList ((l.domains.take domainCapacity).map (Domain.wordIn contents (rails map contents)))
    (Word.ofBits l.plls.length fun i =>
      (l.plls[i]?).any fun p => (contents p.register).getLsbD 0)

def Domain.Off (map : Register.Map) (contents : Address → Word) (d : Domain) : Prop :=
  contents map.powerStatus &&& d.rail = 0#32 ∧ contents map.powerStatus2nd &&& d.rail = 0#32

def Domain.Parked (contents : Address → Word) (d : Domain) : Prop :=
  ∃ m ∈ d.mux, (contents m.register).getLsbD (m.byte % 4 * 8 + 7) = true

instance (d : Domain) : Decidable (d.Off map contents) :=
  inferInstanceAs (Decidable (_ ∧ _))

instance (d : Domain) : Decidable (d.Parked contents) :=
  inferInstanceAs (Decidable (∃ m ∈ d.mux, _))

/-- The registers which are read for a domain: none if it is off, else that of its mux, and its
gate unless it is parked. -/
def Domain.visited (map : Register.Map) (contents : Address → Word) (d : Domain) : List Address :=
  if d.Off map contents then []
  else d.mux.toList.map (·.register) ++ if d.Parked contents then [] else [d.gate]

def Layout.visited (map : Register.Map) (contents : Address → Word) (l : Layout) : List Address :=
  [map.powerStatus, map.powerStatus2nd] ++ l.domains.flatMap (Domain.visited map contents) ++
    l.plls.map (·.register)

theorem Domain.powered_rails_iff (d : Domain) :
    d.powered (rails map contents) = true ↔ ¬ d.Off map contents := by
  have split : rails map contents &&& d.rail =
      (contents map.powerStatus &&& d.rail) ||| (contents map.powerStatus2nd &&& d.rail) :=
    BitVec.and_or_distrib_right
  rw [powered, bne_iff_ne, Ne, split, BitVec.or_eq_zero_iff, Off]

theorem Domain.wordIn_rails (d : Domain) :
    d.wordIn contents (rails map contents) =
      if d.Off map contents ∨ d.Parked contents then 0#32 else d.running (contents d.gate) := by
  by_cases off : d.Off map contents
  · rw [wordIn, if_neg fun powered => d.powered_rails_iff.mp powered off, if_pos (.inl off)]
  · rw [wordIn, if_pos (d.powered_rails_iff.mpr off)]
    cases hm : d.mux with
    | none => simp [off, Parked, hm]
    | some m =>
      have parked_iff : d.Parked contents ↔ m.parkedIn (contents m.register) = true := by
        simp [Parked, hm, Mux.parkedIn]
      by_cases parked : m.parkedIn (contents m.register) = true
      · simp [off, parked_iff, parked]
      · simp [off, parked_iff, parked]

theorem Domain.looks_observe (d : Domain) :
    Bus.Looks contents (d.observe (rails map contents)) (d.visited map contents)
      (d.wordIn contents (rails map contents)) := by
  by_cases off : d.Off map contents
  · have unpowered : ¬ d.powered (rails map contents) = true :=
      fun powered => d.powered_rails_iff.mp powered off
    rw [observe, wordIn, visited, if_neg unpowered, if_neg unpowered, if_pos off]
    exact .pure _
  · have powered := d.powered_rails_iff.mpr off
    rw [observe, wordIn, visited, if_pos powered, if_pos powered, if_neg off]
    have gate : Bus.Looks contents (do return d.running (← Bus.read d.gate)) [d.gate]
        (d.running (contents d.gate)) := .result (.read _) d.running
    cases hm : d.mux with
    | none => simpa [Parked, hm] using gate
    | some m =>
      have asked : Bus.Looks contents m.isParked [m.register] (m.parkedIn (contents m.register)) :=
        .result (.read _) m.parkedIn
      by_cases parked : m.parkedIn (contents m.register) = true
      · have hparked : d.Parked contents := ⟨m, hm, parked⟩
        rw [parked] at asked
        simpa [hparked, parked] using asked.bind (.pure 0#32)
      · have hparked : ¬ d.Parked contents := by
          rintro ⟨m', hm', h⟩
          cases hm.symm.trans hm'
          exact parked h
        rw [Bool.eq_false_iff.mpr parked] at asked
        simpa [hparked, parked] using asked.bind gate

theorem Probe.looks_survey (contents : Address → Word) (bits : Word) (i : Nat) (ps : List Probe)
    (h : i + ps.length ≤ 32) :
    ∃ plls : Word, Bus.Looks contents (survey bits i ps) (ps.map (·.register)) plls ∧
      ∀ k, plls.getLsbD k = (bits.getLsbD k ||
        (decide (i ≤ k) && (ps[k - i]?).any fun p => (contents p.register).getLsbD 0)) := by
  induction ps generalizing bits i with
  | nil => exact ⟨bits, .pure _, by simp⟩
  | cons p ps ih =>
    rw [List.length_cons] at h
    have hbit (k : Nat) : (if (contents p.register).getLsbD 0 then bits ||| BitVec.twoPow 32 i
        else bits).getLsbD k =
          (bits.getLsbD k || (decide (i = k) && (contents p.register).getLsbD 0)) := by
      have hi : i < 32 := by omega
      split <;> simp_all [BitVec.getLsbD_twoPow, -BitVec.getLsbD_eq_getElem]
    obtain ⟨plls, looks, hplls⟩ := ih (if (contents p.register).getLsbD 0 then
      bits ||| BitVec.twoPow 32 i else bits) (i + 1) (by omega)
    refine ⟨plls, .bind (.read p.register) looks, fun k => ?_⟩
    rw [hplls, hbit, Bool.or_assoc]
    congr 1
    rcases Nat.lt_trichotomy k i with hk | rfl | hk
    · simp [show ¬ i ≤ k by omega, show ¬ i + 1 ≤ k by omega, show i ≠ k by omega]
    · simp [show ¬ k + 1 ≤ k by omega]
    · simp [show i ≤ k by omega, show i + 1 ≤ k by omega, show i ≠ k by omega,
        show k - i = (k - (i + 1)) + 1 by omega]

theorem Layout.looks_observation {l : Layout} (valid : l.Valid) :
    Bus.Looks contents (l.observation map) (l.visited map contents) (l.tableIn map contents) := by
  have hp : 0 + l.plls.length ≤ 32 := by
    have := valid.plls
    simp only [probeBound, Table.pllShift] at this
    omega
  obtain ⟨plls, surveyed, hplls⟩ := Probe.looks_survey contents 0#32 0 l.plls hp
  have table : l.tableIn map contents = .ofList
      ((l.domains.take domainCapacity).map (Domain.wordIn contents (rails map contents))) plls := by
    rw [tableIn]
    congr 1
    apply BitVec.eq_of_getLsbD_eq
    intro k hk
    rw [hplls, Word.getLsbD_ofBits, BitVec.getLsbD_zero]
    by_cases hlt : k < l.plls.length
    · simp [hk, hlt]
    · simp [hlt]
  have observed : Bus.Looks contents (Domain.observeAll map l.domains) _ _ :=
    .bind (.read map.powerStatus) (.bind (.read map.powerStatus2nd)
      (.mapM Domain.looks_observe l.domains))
  rw [observation, table, List.take_of_length_le valid.domains]
  exact observed.bind (surveyed.result _)

theorem Device.holds_constant (contents : Address → Word) (h : Bus.History) :
    (Device.constant contents).Holds contents h := fun _ _ _ => rfl

theorem Layout.observation_constant {l : Layout} (valid : l.Valid) (j : Journal) :
    (l.observation map (.constant contents) j).1 = l.tableIn map contents :=
  (l.looks_observation valid _ j (Device.holds_constant contents j.events)).1

theorem Layout.snapshot_constant {l : Layout} (valid : l.Valid) (map : Register.Map)
    (contents : Address → Word) (j : Journal) :
    (l.snapshot map).run (.constant contents) j =
      (.ok (l.tableIn map contents), (l.observation map (.constant contents) j).2) := by
  rw [l.run_snapshot valid, Bus.map_apply, l.observation_constant valid]

theorem Layout.getElem_tableIn {l : Layout} (valid : l.Valid) (i : Nat) (h : i < domainCapacity) :
    (l.tableIn map contents).domains[i] = (l.domains[i]?).elim 0#32 fun d =>
      if d.Off map contents ∨ d.Parked contents then 0#32 else d.running (contents d.gate) := by
  rw [tableIn, List.take_of_length_le valid.domains]
  simp only [Table.ofList, Vector.getElem_ofFn, List.getD_eq_getElem?_getD, List.getElem?_map]
  cases l.domains[i]? with
  | none => rfl
  | some d => exact d.wordIn_rails

theorem Layout.getLsbD_plls_tableIn {l : Layout} (valid : l.Valid) (k : Nat) :
    (l.tableIn map contents).plls.getLsbD k = true ↔
      ∃ p ∈ l.plls[k]?, (contents p.register).getLsbD 0 = true := by
  have fits := valid.plls
  simp only [probeBound, Table.pllShift] at fits
  simp only [tableIn, Table.ofList, Word.getLsbD_ofBits, Bool.and_eq_true, decide_eq_true_eq,
    Option.any_eq_true]
  constructor
  · rintro ⟨-, enabled⟩
    exact enabled
  · rintro ⟨p, hp, enabled⟩
    obtain ⟨hk, -⟩ := List.getElem?_eq_some_iff.mp hp
    exact ⟨⟨by omega, hk⟩, p, hp, enabled⟩

theorem Domain.visited_of_off {d : Domain} (h : d.Off map contents) :
    d.visited map contents = [] :=
  if_pos h

theorem Domain.visited_subset_of_parked {d : Domain} (h : d.Parked contents) :
    d.visited map contents ⊆ d.mux.toList.map (·.register) := by
  rw [visited, if_pos h, List.append_nil]
  split
  · exact List.nil_subset _
  · exact List.Subset.refl _

/-- A snapshot of an accepted layout is taken by reading the registers which are visited, once
each and in turn, and by nothing else. It shows the clocks of every domain which is neither off
nor parked and the PLLs which are enabled. For a domain which is off nothing is read, and for one
which is parked nothing but its mux. -/
theorem Layout.snapshot_shows_running {l : Layout} (accepted : l.validate = .ok ())
    (map : Register.Map) {device : Device} {j : Journal} (holds : device.Holds contents j.events) :
    ∃ table k, (l.snapshot map).run device j = (.ok table, k) ∧
      k.events = Bus.sights contents (l.visited map contents) ++ j.events ∧
      (∀ i (h : i < domainCapacity), table.domains[i] = (l.domains[i]?).elim 0#32 fun d =>
        if d.Off map contents ∨ d.Parked contents then 0#32
        else if d.activeLow then ~~~contents d.gate else contents d.gate) ∧
      (∀ k, table.plls.getLsbD k = true ↔
        ∃ p ∈ l.plls[k]?, (contents p.register).getLsbD 0 = true) ∧
      ∀ d ∈ l.domains, (d.Off map contents → d.visited map contents = []) ∧
        (d.Parked contents → d.visited map contents ⊆ d.mux.toList.map (·.register)) := by
  have valid := validate_eq_ok_iff.mp accepted
  have looks : Bus.Looks contents (l.observation map) _ _ := l.looks_observation valid
  obtain ⟨shows, reads⟩ := looks device j holds
  refine ⟨l.tableIn map contents, (l.observation map device j).2, ?_, reads,
    l.getElem_tableIn valid, l.getLsbD_plls_tableIn valid,
    fun d _ => ⟨d.visited_of_off, d.visited_subset_of_parked⟩⟩
  rw [l.run_snapshot valid, Bus.map_apply, shows]

theorem Layout.snapshot_shows_running_parked : ∃ table k,
    (Mt8192.layout.snapshot Mt8192.map).run (.memory fun a =>
      if a = Mt8192.map.powerStatus then Mt8192.infraRail ||| Mt8192.mmsysRail
      else if a = Mt8192.displayMux.register then 0x80#32
      else if a = Mt8192.pllBase + 0x0268 then 1#32 else 0#32) .empty = (.ok table, k) ∧
    k.events.length = 17 ∧ table.domains[1] = ~~~0#32 ∧ table.domains[7] = 0#32 ∧
    table.plls.getLsbD 1 = true := by
  obtain ⟨table, k, taken, reads, words, plls, -⟩ := Layout.snapshot_shows_running
    (validate_eq_ok_iff.mpr Mt8192.platform_accepted.layout) Mt8192.map
    (Device.holds_memory (fun a =>
      if a = Mt8192.map.powerStatus then Mt8192.infraRail ||| Mt8192.mmsysRail
      else if a = Mt8192.displayMux.register then 0x80#32
      else if a = Mt8192.pllBase + 0x0268 then 1#32 else 0#32) Journal.empty.events)
  refine ⟨table, k, taken, ?_, ?_, ?_, ?_⟩
  · rw [reads]
    decide +kernel
  · rw [words 1 (by decide)]
    decide +kernel
  · rw [words 7 (by decide)]
    decide +kernel
  · rw [plls]
    decide +kernel

/-- Some registers say that nothing runs but what others say is running. -/
structure Layout.Quieter (map : Register.Map) (l : Layout) (contents contents' : Address → Word) :
    Prop where
  powered : ∀ d ∈ l.domains, d.powered (rails map contents) = true →
    d.powered (rails map contents') = true
  parked : ∀ d ∈ l.domains, ∀ m ∈ d.mux, m.parkedIn (contents' m.register) = true →
    m.parkedIn (contents m.register) = true
  gates : ∀ d ∈ l.domains, Word.Within (d.running (contents d.gate)) (d.running (contents' d.gate))
  plls : ∀ p ∈ l.plls, (contents p.register).getLsbD 0 = true →
    (contents' p.register).getLsbD 0 = true

theorem Layout.Quieter.word {l : Layout} (h : l.Quieter map contents contents') {d : Domain}
    (hd : d ∈ l.domains) :
    Word.Within (d.wordIn contents (rails map contents))
      (d.wordIn contents' (rails map contents')) := by
  unfold Domain.wordIn
  split
  · next powered =>
    rw [if_pos (h.powered d hd powered)]
    cases hm : d.mux with
    | none => exact h.gates d hd
    | some m =>
      dsimp only
      split
      · exact Word.within_zero _
      · next running =>
        rw [if_neg fun parked => running (h.parked d hd m hm parked)]
        exact h.gates d hd
  · exact Word.within_zero _

theorem Layout.Quieter.table {l : Layout} (h : l.Quieter map contents contents') :
    (l.tableIn map contents).Within (l.tableIn map contents') := by
  constructor
  · intro i hi
    simp only [tableIn, Table.ofList, Vector.getElem_ofFn, List.getD_eq_getElem?_getD,
      List.getElem?_map]
    cases hd : (l.domains.take domainCapacity)[i]? with
    | none => exact Word.within_zero _
    | some d => exact h.word (List.mem_of_mem_take (List.mem_of_getElem? hd))
  · intro k hk
    simp only [tableIn, Table.ofList, Word.getLsbD_ofBits, Bool.and_eq_true] at hk ⊢
    obtain ⟨hlt, hrunning⟩ := hk
    obtain ⟨p, hp, hrunning⟩ := (Option.any_eq_true _ _).mp hrunning
    refine ⟨hlt, (Option.any_eq_true _ _).mpr ⟨p, hp, ?_⟩⟩
    exact h.plls p (List.mem_of_getElem? hp) hrunning

end Clock

end LowPower

import LowPower.Proofs.Call.Outcome
import LowPower.Proofs.Sequencer.Script

namespace LowPower

open Bus (attempt attempt_bind attempt_map bind_apply map_apply)

namespace Constraint

theorem amount_le_total {l : Ladder} {n : Nat} {c : Constraint} (query : Query)
    (hc : l.constraints[n]? = some c) : c.amount query ≤ l.total query :=
  List.single_le_sum (fun _ _ => Nat.zero_le _) _
    (List.mem_map.mpr ⟨c, List.mem_of_getElem? hc, rfl⟩)

theorem le_of_account_eq_error {c : Constraint} {kind : Session.Kind} {record : Wake.Record}
    {fault : Fault} (h : c.account kind record = .error fault) :
    2 ^ 64 - 2 ^ 32 ≤ c.amount .residency := by
  rw [account] at h
  split at h
  next =>
    rw [addResidency] at h
    split at h
    next overflows =>
      have widened : (record.timer.setWidth 64).toNat = record.timer.toNat :=
        BitVec.toNat_setWidth_of_le (by decide)
      have sum : 2 ^ 64 ≤ c.status.residency.toNat + record.timer.toNat := by
        simpa [BitVec.uaddOverflow, widened] using overflows
      have := record.timer.isLt
      change 2 ^ 64 - 2 ^ 32 ≤ c.status.residency.toNat
      omega
    next => cases h
  next => cases h

end Constraint

namespace Arbiter

variable {p : Platform} {device live : Device} {a : Arbiter} {i j : Journal}

/-- The residencies leave room for one more sleep. -/
def Roomy (a : Arbiter) : Prop := a.ladder.total .residency < 2 ^ 64 - 2 ^ 32

theorem Roomy.not_overfull (roomy : Roomy a) (core : Nat) : ¬ Overfull a core := by
  rintro ⟨session, c, record, -, hc, ha⟩
  have := Constraint.le_of_account_eq_error ha
  have := Constraint.amount_le_total .residency hc
  unfold Roomy at roomy
  omega

theorem Roomy.fits (roomy : Roomy a) : a.ladder.total .residency < 2 ^ 64 :=
  Nat.lt_of_lt_of_le roomy (by decide)

theorem Sized.fits (sized : Sized p a) (accepted : p.Accepted) : a.ladder.shape.Fits :=
  sized.shape ▸ accepted.layout.fits

theorem exists_settled {α : Type} {result : Except Failure α} (h : Unbroken result) :
    ∃ answer, settled result = .ok answer := by
  rcases result with ⟨refusal | fault⟩ | x
  · exact ⟨_, rfl⟩
  · exact absurd rfl (h fault)
  · exact ⟨_, rfl⟩

theorem exists_close (coherent : Coherent p a) (roomy : Roomy a) (core : Nat) (live : Device)
    (j : Journal) : ∃ left b k, attempt (close p core) a live j = ((.ok left, b), k) := by
  rcases close_outcome coherent core live j with ⟨left, -, b, k, hclosed, -⟩ | ⟨-, overfull⟩
  · exact ⟨left, b, k, hclosed⟩
  · exact absurd overfull (roomy.not_overfull core)

theorem exists_enter (accepted : p.Accepted) (coherent : Coherent p a) (roomy : Roomy a)
    (e : Entry) (live : Device) (j : Journal) :
    ∃ depth b k, attempt (enter p e.core e.start e.kind e.extra) a live j =
      ((.ok depth, b), k) := by
  by_cases valid : e.core < p.cores
  · rcases enter_outcome accepted coherent e valid live j with
      ⟨depth, b, k, hentered, -⟩ | ⟨-, overfull⟩
    · exact ⟨depth, b, k, hentered⟩
    · exact absurd overfull (roomy.not_overfull e.core)
  · rw [enter, if_pos (Nat.not_lt.mp valid)]
    exact ⟨_, _, _, rfl⟩

theorem exists_leave (coherent : Coherent p a) (roomy : Roomy a) (core : Nat) (live : Device)
    (j : Journal) : ∃ reason b k, attempt (leave p core) a live j = ((.ok reason, b), k) := by
  rw [attempt_leave]
  split
  · exact ⟨_, _, _, rfl⟩
  · obtain ⟨left, b, k, hclosed⟩ := exists_close coherent roomy core live j
    rw [map_apply, hclosed]
    exact ⟨_, _, _, rfl⟩

theorem exists_control (accepted : p.Accepted) (sized : Sized p a) (roomy : Roomy a)
    (command : Command) (live : Device) (j : Journal) :
    ∃ reply b k, attempt (control p command) a live j = ((.ok reply, b), k) := by
  cases command with
  | setFlavor => exact ⟨_, _, _, rfl⟩
  | setWatchdog => exact ⟨_, _, _, rfl⟩
  | queryPll => exact ⟨_, _, _, rfl⟩
  | update target request =>
    obtain ⟨k, hcontrol, -⟩ := attempt_control_update (p := p) target request a live j
    obtain ⟨answer, hsettled⟩ :=
      exists_settled (Ladder.unbroken_apply (sized.fits accepted) target request)
    rw [hcontrol, hsettled]
    exact ⟨_, _, _, rfl⟩
  | query target query clear =>
    have fits : a.ladder.total query < 2 ^ 64 := by
      by_cases hq : query = .residency
      · exact hq ▸ roomy.fits
      · exact Ladder.total_lt sized.length hq
    obtain ⟨k, hcontrol, -⟩ := attempt_control_query (p := p) target query clear a live j
    obtain ⟨answer, hsettled⟩ := exists_settled (Ladder.unbroken_read fits target clear)
    rw [hcontrol, hsettled]
    exact ⟨_, _, _, rfl⟩

theorem exists_notify (accepted : p.Accepted) (sized : Sized p a) (target : Target)
    (request : Constraint.Request) (live : Device) (j : Journal) :
    ∃ answer b k, (Operation.notify target request).step p live a j = ((.ok answer, b), k) := by
  obtain ⟨notices, -, hnotify⟩ := notify_apply target request a live j
  obtain ⟨result, hsettled⟩ :=
    exists_settled (Ladder.unbroken_apply (sized.fits accepted) target request)
  change ∃ answer b k, attempt (notify target request >>= _) a live j = _
  rw [attempt_bind, bind_apply, hnotify, hsettled]
  rcases result with refusal | ⟨⟩
  · exact ⟨_, _, _, rfl⟩
  · exact ⟨_, _, _, rfl⟩

theorem exists_step (accepted : p.Accepted) (coherent : Coherent p a) (sized : Sized p a)
    (roomy : Roomy a) (op : Operation) (live : Device) (j : Journal) :
    ∃ answer b k, op.step p live a j = ((.ok answer, b), k) := by
  have enters {op : Operation} {e : Entry} (h : op.enters? = some e) :
      ∃ answer b k, op.step p live a j = ((.ok answer, b), k) := by
    obtain ⟨depth, b, k, hentered⟩ := exists_enter accepted coherent roomy e live j
    rw [step_entry h, map_apply, hentered]
    exact ⟨_, _, _, rfl⟩
  cases op with
  | idleEnter => exact enters rfl
  | suspendEnter => exact enters rfl
  | leave core =>
    obtain ⟨reason, b, k, hleft⟩ := exists_leave coherent roomy core live j
    change ∃ answer b k, attempt (Answer.reason <$> leave p core) a live j = _
    rw [attempt_map, map_apply, hleft]
    exact ⟨_, _, _, rfl⟩
  | vote => exact ⟨_, _, _, rfl⟩
  | withdraw => exact ⟨_, _, _, rfl⟩
  | notify target request => exact exists_notify accepted sized target request live j
  | control command =>
    obtain ⟨reply, b, k, hcontrol⟩ := exists_control accepted sized roomy command live j
    change ∃ answer b k, attempt (Answer.reply <$> control p command) a live j = _
    rw [attempt_map, map_apply, hcontrol]
    exact ⟨_, _, _, rfl⟩

/-- Whatever is indexed, shifted or added without a check stays within its range. -/
structure InRange (p : Platform) (a : Arbiter) : Prop where
  core : ∀ core < p.cores, core < coreCapacity
  session : ∀ core session, a.session? core = some session →
    session.core < coreCapacity ∧ session.constraint < a.ladder.length
  domain : ∀ domain < a.ladder.shape.domains, domain < Clock.domainCapacity
  pll : ∀ pll < a.ladder.shape.plls, Clock.Table.pllShift + pll < 30
  place : a.ladder.length ≤ Ladder.capacity
  entries : a.ladder.total .entries < 2 ^ 64
  timer : ∀ timer, (Watchdog.clamp timer).toNat + Watchdog.margin.toNat < 2 ^ 32
  lowPower : ∀ record, a.sequencer.history.lowPower.push? record =
    .ok (a.sequencer.history.lowPower.push record)
  suspend : ∀ record, a.sequencer.history.suspend.push? record =
    .ok (a.sequencer.history.suspend.push record)

theorem Reachable.inRange (reached : Reachable p device a i) : InRange p a where
  core core hcore := Nat.lt_of_lt_of_le hcore reached.accepted.cores
  session core session hs := by
    have coherent := reached.coherent
    refine ⟨?_, coherent.registered core session hs⟩
    rw [coherent.core core session hs]
    exact Nat.lt_of_lt_of_le (coherent.confined core session hs) reached.accepted.cores
  domain domain hdomain := by
    rw [reached.sized.shape] at hdomain
    exact Nat.lt_of_lt_of_le hdomain reached.accepted.layout.domains
  pll pll hpll := by
    rw [reached.sized.shape] at hpll
    have := Nat.lt_trans hpll reached.accepted.layout.plls
    simp only [Clock.Layout.probeBound, Clock.Table.pllShift] at this ⊢
    omega
  place := reached.sized.length
  entries := Ladder.total_lt reached.sized.length nofun
  timer := Watchdog.clamp_add_margin_lt
  lowPower record := Wake.Ring.push?_eq_push (by decide) record _
  suspend record := Wake.Ring.push?_eq_push (by decide) record _

end Arbiter

open Arbiter (Reachable Roomy InRange exists_step)

/-- On a platform which was accepted and in every state which was reached, nothing that is asked
for breaks off while there is room for one more sleep: no operation with any core, hint, target,
entry or value, and no call from either world with anything in its registers, whatever is read from
the device. -/
theorem nothing_breaks_off {p : Platform} {device : Device} {a : Arbiter} {i : Journal}
    (reached : Reachable p device a i) (roomy : a.ladder.total .residency < 2 ^ 64 - 2 ^ 32)
    (live : Device) (j : Journal) :
    InRange p a ∧
    (∀ op : Operation, ∃ answer b k, op.step p live a j = ((.ok answer, b), k)) ∧
    ∀ (world : Call.World) (r : Call.Registers), ∃ result b k,
      attempt (Call.route [Call.service p] world r) a live j = ((.ok result, b), k) := by
  refine ⟨reached.inRange, fun op => ?_, fun world r => ?_⟩
  · exact exists_step reached.accepted reached.coherent reached.sized roomy op live j
  · exact Call.exists_route reached.sized.length (Roomy.fits roomy) world r live j

theorem nothing_breaks_off_all_ones : ∃ a i,
    Reachable Mt8192.platform (fun _ _ => 0xFFFFFFFF#32) a i ∧ (a.session? 0).isSome = true ∧
    ∃ answer b k, (Operation.leave 0).step Mt8192.platform (fun _ _ => 0xFFFFFFFF#32) a i =
      ((.ok answer, b), k) := by
  have roomy : (Arbiter.replayAll Mt8192.platform (fun _ _ => 0xFFFFFFFF#32)
      [.notify .all (.setFlags (.firmware ∪ .residency)), .idleEnter 0 3]).any (fun s =>
        (s.2.1.session? 0).isSome && s.2.1.ladder.total .residency < 2 ^ 64 - 2 ^ 32) = true := by
    decide +kernel
  obtain ⟨⟨ops, a, i⟩, hrun, h⟩ := (Option.any_eq_true _ _).mp roomy
  obtain ⟨hopen, hroomy⟩ := Bool.and_eq_true_iff.mp h
  have reached := Arbiter.reachable_of_replayAll hrun
  obtain ⟨-, operations, -⟩ :=
    nothing_breaks_off reached (of_decide_eq_true hroomy) (fun _ _ => 0xFFFFFFFF#32) i
  exact ⟨a, i, reached, hopen, operations (.leave 0)⟩

end LowPower

import LowPower.Platform.Mt8192
import LowPower.Proofs.Arbiter.Control
import LowPower.Proofs.Arbiter.Run
import LowPower.Proofs.Call.Service

namespace LowPower

open Bus (attempt attempt_bind attempt_liftBus_bind bind_apply)

namespace Arbiter

variable {p : Platform} {device live : Device} {a b : Arbiter} {i j k : Journal}

structure Outcome (a : Arbiter) (j : Journal) (command : Command) (reply : Command.Reply)
    (b : Arbiter) (k : Journal) : Prop where
  bad : reply.status = .bad → b = a ∧ k.events = j.events
  stop : reply.status = .stop ↔
    ∃ i query clear, command = .query (.index i) query clear ∧ i < a.ladder.length

def Oversized (a : Arbiter) (command : Command) : Prop :=
  ∃ clear, command = .query .all .residency clear ∧ 2 ^ 64 ≤ a.ladder.total .residency

theorem control_update (target : Target) {request : Constraint.Request}
    {f : Constraint → Constraint}
    (h : ∀ c, Constraint.apply a.ladder.shape c request = .ok (f c)) (live : Device)
    (j : Journal) :
    ∃ reply b k, attempt (control p (.update target request)) a live j = ((.ok reply, b), k) ∧
      Outcome a j (.update target request) reply b k := by
  obtain ⟨k, hcontrol, hk⟩ := attempt_control_update (p := p) target request a live j
  rw [hcontrol]
  cases target with
  | all =>
    rw [Ladder.apply_all_eq_ok h]
    exact ⟨_, _, _, rfl, nofun, nofun, by simp⟩
  | index i =>
    cases hc : a.ladder.constraints[i]? with
    | some c =>
      rw [Ladder.apply_index_eq_ok h hc]
      exact ⟨_, _, _, rfl, nofun, nofun, by simp⟩
    | none =>
      rw [Ladder.apply_index_eq_refused request hc]
      exact ⟨_, _, _, rfl, fun _ => ⟨rfl, hk⟩, nofun, by simp⟩

theorem control_query (target : Target) (query : Constraint.Query) (clear : Bool)
    (fits : target = .all → a.ladder.total query < 2 ^ 64) (live : Device) (j : Journal) :
    ∃ reply b k, attempt (control p (.query target query clear)) a live j = ((.ok reply, b), k) ∧
      Outcome a j (.query target query clear) reply b k := by
  obtain ⟨k, hcontrol, hk⟩ := attempt_control_query (p := p) target query clear a live j
  rw [hcontrol]
  cases target with
  | all =>
    obtain ⟨reading, hread⟩ := Ladder.read_all_eq_ok clear (fits rfl)
    rw [hread]
    exact ⟨_, _, _, rfl, nofun, nofun, by simp⟩
  | index i =>
    cases hc : a.ladder.constraints[i]? with
    | some c =>
      obtain ⟨reading, hread⟩ := Ladder.read_index_eq_ok query clear hc
      rw [hread]
      refine ⟨_, _, _, rfl, nofun, fun _ => ⟨i, query, clear, rfl, ?_⟩, fun _ => rfl⟩
      exact (List.getElem?_eq_some_iff.mp hc).1
    | none =>
      rw [Ladder.read_index_eq_refused query clear hc]
      refine ⟨_, _, _, rfl, fun _ => ⟨rfl, hk⟩, nofun, ?_⟩
      rintro ⟨_, _, _, ⟨⟩, hi⟩
      exact absurd hi (Nat.not_lt.mpr (List.getElem?_eq_none_iff.mp hc))

theorem control_oversized {command : Command} (h : Oversized a command) (live : Device)
    (j : Journal) :
    ∃ b k, attempt (control p command) a live j = ((.error .addOverflow, b), k) := by
  obtain ⟨clear, rfl, exceeds⟩ := h
  obtain ⟨k, hcontrol, -⟩ := attempt_control_query (p := p) .all .residency clear a live j
  rw [hcontrol, Ladder.read_all_eq_error clear exceeds]
  exact ⟨_, k, rfl⟩

theorem control_outcome {command : Command} (expressible : command.Expressible)
    (sized : a.ladder.length ≤ Ladder.capacity) (fits : ¬ Oversized a command) (live : Device)
    (j : Journal) :
    ∃ reply b k, attempt (control p command) a live j = ((.ok reply, b), k) ∧
      Outcome a j command reply b k := by
  cases command with
  | setFlavor flavor => exact ⟨_, _, _, rfl, nofun, nofun, by simp⟩
  | setWatchdog enable ticks => exact ⟨_, _, _, rfl, nofun, nofun, by simp⟩
  | queryPll => exact ⟨_, _, _, rfl, nofun, nofun, by simp⟩
  | update target request =>
    cases request with
    | setFlags flags =>
      exact control_update (f := fun c => c.setFlags (c.status.flags ∪ flags)) target
        (fun _ => rfl) live j
    | clearFlags flags =>
      exact control_update (f := fun c => c.setFlags (c.status.flags ∩ ~~~flags)) target
        (fun _ => rfl) live j
    | _ => exact expressible.elim
  | query target query clear =>
    refine control_query target query clear (fun hall => ?_) live j
    by_cases hq : query = .residency
    · subst hall hq
      exact Nat.lt_of_not_le fun exceeds => fits ⟨clear, rfl, exceeds⟩
    · exact Ladder.total_lt sized hq

end Arbiter

namespace Call

open Arbiter (Oversized Reachable control_outcome control_oversized)

variable {p : Platform} {device live : Device} {a : Arbiter} {i j : Journal} {world : World}
  {r : Registers} {command : Command}

theorem code_eq_failure_iff {status : Command.Status} :
    BitVec.ofInt 64 status.code = failure ↔ status = .bad := by
  cases status <;> decide

theorem code_eq_stop_iff {status : Command.Status} :
    BitVec.ofInt 64 status.code = BitVec.ofInt 64 (-2) ↔ status = .stop := by
  cases status <;> decide

theorem attempt_route_of_orders (h : Orders world r command) {reply : Command.Reply} {b : Arbiter}
    {k : Journal} (hcontrol : attempt (Arbiter.control p command) a live j = ((.ok reply, b), k)) :
    attempt (route [service p] world r) a live j =
      ((.ok (world, r.answer reply), b), { k with notices := .replied reply :: k.notices }) := by
  rw [route_of_orders h, attempt_bind, bind_apply, hcontrol, h.world]
  rfl

theorem attempt_route_of_oversized (h : Orders world r command) (exceeds : Oversized a command)
    (live : Device) (j : Journal) :
    ∃ b k, attempt (route [service p] world r) a live j = ((.error .addOverflow, b), k) := by
  obtain ⟨b, k, hcontrol⟩ := control_oversized (p := p) exceeds live j
  rw [route_of_orders h, attempt_bind, bind_apply, hcontrol]
  exact ⟨b, k, rfl⟩

theorem Orders.unique {other : Command} (h : Orders world r command) (h' : Orders world r other) :
    command = other := by
  obtain ⟨a, ha, asks⟩ := h.asks
  obtain ⟨a', ha', asks'⟩ := h'.asks
  cases ha.symm.trans ha'
  exact Option.some.inj ((decode_eq_some_iff.mpr asks).symm.trans (decode_eq_some_iff.mpr asks'))

theorem Orders.expressible (h : Orders world r command) : command.Expressible := by
  obtain ⟨a, -, asks⟩ := h.asks
  exact asks.expressible

theorem exists_route (sized : a.ladder.length ≤ Ladder.capacity)
    (fits : a.ladder.total .residency < 2 ^ 64) (world : World) (r : Registers) (live : Device)
    (j : Journal) : ∃ result b k,
      attempt (route [service p] world r) a live j = ((.ok result, b), k) := by
  by_cases ordered : ∃ command, Orders world r command
  case neg =>
    obtain ⟨r', notices, hroute, -⟩ :=
      attempt_route_of_no_order (p := p) (not_exists.mp ordered) a live j
    exact ⟨_, _, _, hroute⟩
  obtain ⟨command, ordered⟩ := ordered
  have within : ¬ Arbiter.Oversized a command :=
    fun ⟨_, _, exceeds⟩ => absurd fits (Nat.not_lt.mpr exceeds)
  obtain ⟨reply, b, k, hcontrol, -⟩ :=
    Arbiter.control_outcome (p := p) ordered.expressible sized within live j
  exact ⟨_, _, _, attempt_route_of_orders ordered hcontrol⟩

/-- Whatever is called, by whichever world and with whatever in the registers: the call breaks off
only if it asks for a sum of residencies which does not fit a word. Otherwise its first result
tells that it failed, and then nothing was changed and nothing was done on the bus, or it is zero,
or it is that of a query which names one constraint. -/
theorem failed_call_changes_nothing (reached : Reachable p device a i) (world : World)
    (r : Registers) (live : Device) (j : Journal) :
    (∃ clear b k, Orders world r (.query .all .residency clear) ∧
      2 ^ 64 ≤ a.ladder.total .residency ∧
      attempt (route [service p] world r) a live j = ((.error .addOverflow, b), k)) ∨
    ∃ r' b k x, attempt (route [service p] world r) a live j = ((.ok (world, r'), b), k) ∧
      r'.toList.head? = some x ∧
      (x = failure → b = a ∧ k.events = j.events) ∧
      (x ≠ failure → x = 0#64 ∨ x = BitVec.ofInt 64 (-2)) ∧
      (x = BitVec.ofInt 64 (-2) ↔ ∃ index query clear,
        Orders world r (.query (.index index) query clear) ∧ index < a.ladder.length) := by
  by_cases ordered : ∃ command, Orders world r command
  case neg =>
    right
    obtain ⟨r', notices, hroute, hfailed⟩ :=
      attempt_route_of_no_order (p := p) (not_exists.mp ordered) a live j
    refine ⟨r', a, _, failure, hroute, hfailed, fun _ => ⟨rfl, rfl⟩, fun h => absurd rfl h,
      fun h => absurd h (by decide), ?_⟩
    rintro ⟨index, query, clear, h, -⟩
    exact absurd ⟨_, h⟩ ordered
  obtain ⟨command, h⟩ := ordered
  by_cases exceeds : Oversized a command
  · left
    obtain ⟨b, k, hroute⟩ := attempt_route_of_oversized (p := p) h exceeds live j
    obtain ⟨clear, rfl, sum⟩ := exceeds
    exact ⟨clear, b, k, h, sum, hroute⟩
  right
  obtain ⟨reply, b, k, hcontrol, outcome⟩ :=
    control_outcome (p := p) h.expressible reached.sized.length exceeds live j
  refine ⟨r.answer reply, b, _, _, attempt_route_of_orders h hcontrol, head?_answer r reply, ?_, ?_,
    ?_⟩
  · exact fun hx => outcome.bad (code_eq_failure_iff.mp hx)
  · intro hx
    cases hstatus : reply.status with
    | ok => exact .inl (by decide)
    | bad => exact absurd (code_eq_failure_iff.mpr hstatus) hx
    | stop => exact .inr rfl
  · rw [code_eq_stop_iff, outcome.stop]
    constructor
    · rintro ⟨index, query, clear, rfl, hi⟩
      exact ⟨index, query, clear, h, hi⟩
    · rintro ⟨index, query, clear, h', hi⟩
      exact ⟨index, query, clear, h.unique h', hi⟩

def statusQuery (target : Word64) : Registers :=
  ((((Registers.empty.put 0 0xC2000515#64).put 1 0xDA010000#64).put 2 CallAction.get.bits).put 3
    target).put 4 0xD0000000#64 |>.useAll

theorem failed_call_changes_nothing_asleep : ∃ a i r' b k,
    Reachable Mt8192.platform (.memory fun _ => 0#32) a i ∧ (a.session? 0).isSome = true ∧
    attempt (route [service Mt8192.platform] .nonSecure (statusQuery 9#64)) a
      (.memory fun _ => 0#32) i = ((.ok (.nonSecure, r'), b), k) ∧
    r'.toList.head? = some failure ∧ b = a ∧ k.events = i.events := by
  have fails : (Arbiter.replayAll Mt8192.platform (.memory fun _ => 0#32)
      [.notify .all (.setFlags .firmware), .idleEnter 0 0]).any (fun s =>
        (s.2.1.session? 0).isSome && match (attempt (route [service Mt8192.platform] .nonSecure
          (statusQuery 9#64)) s.2.1 (.memory fun _ => 0#32) s.2.2).1.1 with
          | .ok (_, r') => r'.toList.head? == some failure
          | .error _ => false) = true := by
    decide +kernel
  obtain ⟨⟨ops, a, i⟩, hrun, h⟩ := (Option.any_eq_true _ _).mp fails
  obtain ⟨hopen, hfails⟩ := Bool.and_eq_true_iff.mp h
  have reached := Arbiter.reachable_of_replayAll hrun
  rcases failed_call_changes_nothing reached .nonSecure (statusQuery 9#64) (.memory fun _ => 0#32) i
    with ⟨clear, b, k, -, -, hbroken⟩ | ⟨r', b, k, x, hroute, hx, inert, -, -⟩
  · rw [hbroken] at hfails
    cases hfails
  · rw [hroute] at hfails
    obtain rfl : x = failure := Option.some.inj (hx.symm.trans (eq_of_beq hfails))
    obtain ⟨hb, hk⟩ := inert rfl
    exact ⟨a, i, r', b, k, reached, hopen, hroute, hx, hb, hk⟩

end Call

end LowPower

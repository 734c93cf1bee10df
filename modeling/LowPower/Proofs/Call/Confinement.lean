import LowPower.Proofs.Arbiter.Script
import LowPower.Proofs.Call.Outcome
import LowPower.Proofs.Sequencer.Report

/-!
What calls cannot reach. No sequence of calls touches more of the arbiter than the flavor, the
watchdog, the named flags and the residencies, which it can only clear, or uses other registers
than those of the timer and the watchdog and the one which tells the mode of the PLLs.
-/

namespace LowPower

open Bus (Emits Event attempt attempt_bind bind_apply)

def Register.Map.Permits (map : Register.Map) : Event → Prop
  | .read a _ => a ∈ [map.timerValue, map.watchdogValue, map.pcmControl, map.pllMode]
  | .write a _ => a ∈ [map.timerValue, map.watchdogValue, map.pcmControl]
  | _ => False

structure Constraint.Confined (c d : Constraint) : Prop where
  variant : d.variant = c.variant
  forbidden : d.forbidden = c.forbidden
  entries : d.status.entries = c.status.entries
  blocked : d.status.blocked = c.status.blocked
  latch : d.status.latch = c.status.latch
  flags : ∀ i, d.status.flags.bits.getLsbD i = true →
    c.status.flags.bits.getLsbD i = true ∨ ConstraintFlags.vocabulary.Names i
  residency : d.status.residency = c.status.residency ∨ d.status.residency = 0#64

structure Ladder.Confined (l m : Ladder) : Prop where
  constraints : List.Forall₂ Constraint.Confined l.constraints m.constraints
  shape : m.shape = l.shape
  registered : m.registered = l.registered

structure Arbiter.Confined (p : Platform) (a : Arbiter) (i : Journal) (b : Arbiter)
    (j : Journal) : Prop where
  ladder : a.ladder.Confined b.ladder
  votes : b.votes = a.votes
  sequencer : b.sequencer = a.sequencer
  clocks : b.clocks = a.clocks
  sessions : b.sessions = a.sessions
  events : ∃ es, j.events = es ++ i.events ∧ ∀ e ∈ es, p.map.Permits e

namespace Constraint.Confined

variable {c d e : Constraint}

theorem refl (c : Constraint) : Confined c c :=
  ⟨rfl, rfl, rfl, rfl, rfl, fun _ => .inl, .inl rfl⟩

theorem trans (h : Confined c d) (h' : Confined d e) : Confined c e where
  variant := h'.variant.trans h.variant
  forbidden := h'.forbidden.trans h.forbidden
  entries := h'.entries.trans h.entries
  blocked := h'.blocked.trans h.blocked
  latch := h'.latch.trans h.latch
  flags i hi := (h'.flags i hi).elim (h.flags i) .inr
  residency := by
    rcases h'.residency with kept | cleared
    · rw [kept]
      exact h.residency
    · exact .inr cleared

theorem setFlags {flags : ConstraintFlags} (h : ∀ i, flags.bits.getLsbD i = true →
      c.status.flags.bits.getLsbD i = true ∨ ConstraintFlags.vocabulary.Names i) :
    Confined c (c.setFlags flags) :=
  ⟨rfl, rfl, rfl, rfl, rfl, h, .inl rfl⟩

theorem afterRead (query : Query) (clear : Bool) (c : Constraint) :
    Confined c (c.afterRead query clear) := by
  rw [Constraint.afterRead]
  split
  · exact ⟨rfl, rfl, rfl, rfl, rfl, fun _ => .inl, .inr rfl⟩
  · exact refl c

end Constraint.Confined

namespace Ladder

section

variable {R : Constraint → Constraint → Prop} {query : Constraint.Query} {clear : Bool}
  {cs : List Constraint}

theorem forall₂_readAll (refl : ∀ c, R c c) (h : ∀ c, R c (c.afterRead query clear))
    (reading : Constraint.Reading) (cs : List Constraint) :
    List.Forall₂ R cs (readAll query clear reading cs).2 := by
  induction cs generalizing reading with
  | nil => exact .nil
  | cons c cs ih =>
    rw [readAll]
    split
    next => exact List.forall₂_same.mpr fun c _ => refl c
    next next _ => exact .cons (h c) (ih next)

theorem forall₂_trans {ds es : List Constraint} (trans : ∀ {c d e}, R c d → R d e → R c e)
    (h : List.Forall₂ R cs ds) (h' : List.Forall₂ R ds es) : List.Forall₂ R cs es := by
  induction h generalizing es with
  | nil => exact h'
  | cons head _ ih =>
    cases h' with
    | cons head' tail' => exact .cons (trans head head') (ih tail')

end

namespace Confined

variable {l m n : Ladder}

theorem refl (l : Ladder) : Confined l l :=
  ⟨List.forall₂_same.mpr fun c _ => .refl c, rfl, rfl⟩

theorem trans (h : Confined l m) (h' : Confined m n) : Confined l n where
  constraints := forall₂_trans .trans h.constraints h'.constraints
  shape := h'.shape.trans h.shape
  registered := h'.registered.trans h.registered

theorem apply {request : Constraint.Request} (target : Target) (l : Ladder)
    (h : ∀ c c', Constraint.apply l.shape c request = .ok c' → c.Confined c') :
    Confined l (l.apply target request).2 :=
  ⟨forall₂_apply .refl h, shape_apply _ _ _, registered_apply _ _ _⟩

theorem read (target : Target) (query : Constraint.Query) (clear : Bool) (l : Ladder) :
    Confined l (l.read target query clear).2 := by
  cases target with
  | all => exact ⟨forall₂_readAll .refl (.afterRead query clear) _ l.constraints, rfl, rfl⟩
  | index i =>
    cases hc : l.constraints[i]? with
    | none =>
      rw [read_index_eq_refused query clear hc]
      exact refl l
    | some c =>
      obtain ⟨reading, hread⟩ := read_index_eq_ok query clear hc
      rw [hread]
      exact ⟨forall₂_set .refl hc (.afterRead query clear c), rfl, rfl⟩

theorem length_eq (h : Confined l m) : m.length = l.length := h.constraints.length_eq.symm

theorem total_le (h : Confined l m) : m.total .residency ≤ l.total .residency := by
  have amount_le {c d : Constraint} (h : c.Confined d) :
      d.amount .residency ≤ c.amount .residency := by
    change d.status.residency.toNat ≤ c.status.residency.toNat
    rcases h.residency with kept | cleared
    · rw [kept]
    · rw [cleared]
      exact Nat.zero_le _
  have amounts : List.Forall₂ (· ≤ ·) (m.constraints.map (·.amount .residency))
      (l.constraints.map (·.amount .residency)) := by
    rw [List.forall₂_map_left_iff, List.forall₂_map_right_iff]
    exact List.Forall₂.flip (h.constraints.imp fun c d => amount_le)
  exact amounts.sum_le_sum

end Confined

end Ladder

theorem Constraint.confined_apply {shape : Clock.Shape} {target : Target} {request : Request}
    (expressible : (Command.update target request).Expressible) (c c' : Constraint)
    (h : c.apply shape request = .ok c') : c.Confined c' := by
  cases request with
  | setFlags flags =>
    cases h
    refine .setFlags fun i hi => ?_
    rw [Flags.bits_union, BitVec.getLsbD_or, Bool.or_eq_true] at hi
    exact hi.imp_right (expressible.2 i)
  | clearFlags flags =>
    cases h
    refine .setFlags fun i hi => .inl ?_
    rw [Flags.bits_inter, BitVec.getLsbD_and, Bool.and_eq_true] at hi
    exact hi.1
  | _ => exact expressible.elim

namespace Watchdog

variable {map : Register.Map}

theorem emits_putControl (bits : Word) (on : Bool) : Emits map.Permits (putControl map bits on) :=
  .bind (Emits.read fun _ => by simp [Register.Map.Permits]) fun _ =>
    Emits.write (by simp [Register.Map.Permits])

theorem emits_put (on : Bool) : Emits map.Permits (put map on) := by
  cases on with
  | false => exact emits_putControl _ _
  | true =>
    change Emits map.Permits (arm map)
    rw [arm_eq]
    exact .bind (emits_putControl _ _) fun _ =>
      .bind (Emits.read fun _ => by simp [Register.Map.Permits]) fun _ =>
      .bind (.when fun _ => Emits.write (by simp [Register.Map.Permits])) fun _ =>
      .bind (Emits.write (by simp [Register.Map.Permits])) fun _ => emits_putControl _ _

end Watchdog

namespace Arbiter

variable {p : Platform} {live : Device} {a b c : Arbiter} {i j k : Journal} {command : Command}

namespace Confined

theorem of_ladder {l : Ladder} (h : a.ladder.Confined l) (events : j.events = i.events) :
    Confined p a i { a with ladder := l } j :=
  ⟨h, rfl, rfl, rfl, rfl, [], events, nofun⟩

theorem of_events (a : Arbiter) (events : j.events = i.events) : Confined p a i a j :=
  of_ladder (.refl _) events

theorem refl (a : Arbiter) (j : Journal) : Confined p a j a j := of_events a rfl

theorem trans (h : Confined p a i b j) (h' : Confined p b j c k) : Confined p a i c k where
  ladder := h.ladder.trans h'.ladder
  votes := h'.votes.trans h.votes
  sequencer := h'.sequencer.trans h.sequencer
  clocks := h'.clocks.trans h.clocks
  sessions := h'.sessions.trans h.sessions
  events := by
    obtain ⟨es, hes, permitted⟩ := h.events
    obtain ⟨fs, hfs, permitted'⟩ := h'.events
    refine ⟨fs ++ es, ?_, fun e he => ?_⟩
    · rw [hfs, hes, List.append_assoc]
    · exact (List.mem_append.mp he).elim (permitted' e) (permitted e)

end Confined

theorem Does.confined (expressible : command.Expressible)
    (hd : Does p live command.deed a i b j) : Confined p a i b j := by
  cases command with
  | setFlavor flavor =>
    cases hd
    exact ⟨.refl _, rfl, rfl, rfl, rfl, [], rfl, nofun⟩
  | setWatchdog enable ticks =>
    cases hd with
    | setWatchdog _ _ timed put =>
    refine ⟨.refl _, rfl, rfl, rfl, rfl, ?_⟩
    have emits : Emits p.map.Permits
        (Bus.write p.map.timerValue ticks >>= fun _ => Watchdog.put p.map enable) :=
      .bind (Emits.write (by simp [Register.Map.Permits])) fun _ => Watchdog.emits_put enable
    have events := emits live i
    rw [bind_apply, timed, put] at events
    exact events
  | queryPll =>
    cases hd with
    | readPll looked =>
    refine ⟨.refl _, rfl, rfl, rfl, rfl, ?_⟩
    have emits : Emits p.map.Permits (Bus.read p.map.pllMode) :=
      Emits.read fun _ => by simp [Register.Map.Permits]
    have events := emits live i
    rw [looked] at events
    exact events
  | update target request =>
    cases hd
    exact .of_ladder (.apply target _ (Constraint.confined_apply expressible)) rfl
  | query target query clear =>
    cases hd
    exact .of_ladder (.read target query clear _) rfl

theorem Does.confined_report (hd : Does p live .report a i b j) : Confined p a i b j := by
  cases hd
  exact .of_events a rfl

theorem control_confined (expressible : command.Expressible) {reply : Command.Reply}
    (h : attempt (control p command) a live i = ((.ok reply, b), j)) : Confined p a i b j := by
  cases control_does h with
  | cons commanded rest =>
    cases rest with
    | cons done rest =>
      cases rest with
      | cons reported rest =>
        cases rest
        exact commanded.confined_report.trans ((done.confined expressible).trans
          reported.confined_report)

end Arbiter

namespace Call

open Arbiter (Confined Reachable)

/-- A state and a journal which are reached by some calls, none of which breaks off. -/
inductive Calls (p : Platform) (live : Device) :
    Arbiter → Journal → List (World × Registers) → Arbiter → Journal → Prop
  | refl (a : Arbiter) (j : Journal) : Calls p live a j [] a j
  | call {a b c : Arbiter} {i j k : Journal} {world : World} {r : Registers}
      {result : World × Registers} {calls : List (World × Registers)}
      (head : attempt (route [service p] world r) a live i = ((.ok result, b), j))
      (tail : Calls p live b j calls c k) : Calls p live a i ((world, r) :: calls) c k

variable {p : Platform} {device live : Device} {a b : Arbiter} {i j : Journal} {world : World}
  {r : Registers} {result : World × Registers} {calls : List (World × Registers)}

theorem route_confined
    (h : attempt (route [service p] world r) a live i = ((.ok result, b), j)) :
    Confined p a i b j := by
  by_cases ordered : ∃ command, Orders world r command
  case neg =>
    obtain ⟨r', notices, hroute, -⟩ :=
      attempt_route_of_no_order (p := p) (not_exists.mp ordered) a live i
    cases hroute.symm.trans h
    exact .of_events a rfl
  obtain ⟨command, ordered⟩ := ordered
  rw [route_of_orders ordered, attempt_bind, bind_apply] at h
  cases hcontrol : attempt (Arbiter.control p command) a live i with
  | mk outcome k =>
    rw [hcontrol] at h
    obtain ⟨fault | reply, b'⟩ := outcome
    · cases h
    · cases h
      exact (Arbiter.control_confined ordered.expressible hcontrol).trans (.of_events _ rfl)

theorem Calls.confined (h : Calls p live a i calls b j) : Confined p a i b j := by
  induction h with
  | refl a j => exact .refl a j
  | call head _ ih => exact (route_confined head).trans ih

theorem exists_calls (sized : a.ladder.length ≤ Ladder.capacity)
    (fits : a.ladder.total .residency < 2 ^ 64) (calls : List (World × Registers)) (live : Device)
    (i : Journal) : ∃ b j, Calls p live a i calls b j := by
  induction calls generalizing a i with
  | nil => exact ⟨a, i, .refl a i⟩
  | cons call calls ih =>
    obtain ⟨world, r⟩ := call
    obtain ⟨result, b, j, head⟩ := exists_route (p := p) sized fits world r live i
    have ladder := (route_confined head).ladder
    obtain ⟨c, k, tail⟩ := ih (ladder.length_eq ▸ sized) (ladder.total_le.trans_lt fits) j
    exact ⟨c, k, .call head tail⟩

/-- Any calls from either world, one after the other, keep what they cannot reach, and none of them
breaks off while the residencies have a sum which fits a word. A call from the secure world changes
nothing at all. -/
theorem calls_are_confined (reached : Reachable p device a i) (live : Device) (j : Journal) :
    (∀ calls b k, Calls p live a j calls b k → Confined p a j b k) ∧
    (a.ladder.total .residency < 2 ^ 64 → ∀ calls, ∃ b k, Calls p live a j calls b k) ∧
    ∀ (r : Registers) (b : Arbiter) (k : Journal),
      attempt (route [service p] .secure r) b live k =
        ((.ok (.secure, r.setInt notSupported), b), k) := by
  refine ⟨fun _ _ _ => Calls.confined, fun fits calls => ?_, fun r b k => ?_⟩
  · exact exists_calls reached.sized.length fits calls live j
  · by_cases control : IsControl r
    · rw [route, owner?_of_isControl control]
      rfl
    · rw [route, owner?_of_not_isControl control]
      rfl

theorem calls_are_confined_asleep : ∃ a i b k,
    Reachable Mt8192.platform (.memory fun _ => 0#32) a i ∧ (a.session? 0).isSome = true ∧
    Calls Mt8192.platform (.memory fun _ => 0#32) a i
      [(.nonSecure, statusQuery 0xFFFFFFFF#64), (.secure, statusQuery 0#64)] b k ∧
    Confined Mt8192.platform a i b k := by
  have fits : (Arbiter.replayAll Mt8192.platform (.memory fun _ => 0#32)
      [.notify .all (.setFlags .firmware), .idleEnter 0 0]).any (fun s =>
        (s.2.1.session? 0).isSome && s.2.1.ladder.total .residency < 2 ^ 64) = true := by
    decide +kernel
  obtain ⟨⟨ops, a, i⟩, hrun, h⟩ := (Option.any_eq_true _ _).mp fits
  obtain ⟨hopen, hfits⟩ := Bool.and_eq_true_iff.mp h
  have reached := Arbiter.reachable_of_replayAll hrun
  obtain ⟨confined, complete, -⟩ := calls_are_confined reached (.memory fun _ => 0#32) i
  obtain ⟨b, k, calls⟩ := complete (of_decide_eq_true hfits)
    [(.nonSecure, statusQuery 0xFFFFFFFF#64), (.secure, statusQuery 0#64)]
  exact ⟨a, i, b, k, reached, hopen, calls, confined _ b k calls⟩

end Call

end LowPower

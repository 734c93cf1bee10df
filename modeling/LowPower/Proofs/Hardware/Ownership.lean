import LowPower.Platform.Mt8192
import LowPower.Proofs.Arbiter.Run
import LowPower.Proofs.Hardware.Program

namespace LowPower

open Hardware (seen)

namespace Hardware

/-- Something which sessions switch on, and which a session switches off when it ends. -/
structure Switch where
  lit : Hardware → Prop
  wanted : Session → Bool
  commanded : Bool
  lit_arm : ∀ session votes hw, lit (arm session votes hw) ↔ lit hw ∨ wanted session = true
  lit_disarm : ∀ session hw, lit (disarm session hw) ↔ lit hw ∧ wanted session = false
  lit_command : ∀ on hw, lit { hw with watchdog := on } ↔
    if commanded then on = true else lit hw

namespace Switch

def crystal : Switch where
  lit hw := hw.crystal ≠ 0#32
  wanted session := session.options.contains SessionOptions.crystalLowPower
  commanded := false
  lit_arm session votes hw := by
    cases h : session.options.contains SessionOptions.crystalLowPower <;> simp [arm, h]
  lit_disarm session hw := by
    cases h : session.options.contains SessionOptions.crystalLowPower <;> simp [disarm, h]
  lit_command on hw := Iff.rfl

def crystalLowPower : Switch where
  lit hw := hw.crystal = 1#32
  wanted session := session.options.contains SessionOptions.crystalLowPower
  commanded := false
  lit_arm session votes hw := by
    cases h : session.options.contains SessionOptions.crystalLowPower <;> simp [arm, h]
  lit_disarm session hw := by
    cases h : session.options.contains SessionOptions.crystalLowPower <;> simp [disarm, h]
  lit_command on hw := Iff.rfl

def monitor : Switch where
  lit hw := hw.monitor = true
  wanted session := session.options.contains SessionOptions.monitorS1
  commanded := false
  lit_arm session votes hw := by simp [arm]
  lit_disarm session hw := by simp [disarm]
  lit_command on hw := Iff.rfl

def watchdog : Switch where
  lit hw := hw.watchdog = true
  wanted session := session.options.contains SessionOptions.watchdog
  commanded := true
  lit_arm session votes hw := by simp [arm]
  lit_disarm session hw := by simp [disarm]
  lit_command on hw := Iff.rfl

def powerDown : Switch where
  lit hw := hw.powerDown ≠ 0#32
  wanted session := session.kind = .suspend
  commanded := false
  lit_arm session votes hw := by
    by_cases h : session.kind = .suspend <;> simp [arm, h, Constraint.powerDownWord]
  lit_disarm session hw := by
    by_cases h : session.kind = .suspend <;> simp [disarm, h]
  lit_command on hw := Iff.rfl

end Switch

end Hardware

def Operation.watchdog? : Operation → Option Bool
  | .control (.setWatchdog enable _) => some enable
  | _ => none

theorem Operation.watchdog?_of_enters? {op : Operation} {e : Entry} (h : op.enters? = some e) :
    op.watchdog? = none := by
  cases op with
  | idleEnter => rfl
  | suspendEnter => rfl
  | _ => cases h

namespace Arbiter

variable {p : Platform} {device : Device} {a b : Arbiter} {i j : Journal} {d : Deed}
  {ds : List Deed} {op : Operation} {answer : Answer} {ops : List (Operation × Answer)}
  {switch : Hardware.Switch}

def Deed.watchdog? : Deed → Option Bool
  | .setWatchdog enable _ => some enable
  | _ => none

def Deed.act (hw : Hardware) : Deed → Hardware
  | .wake _ _ session _ => hw.disarm session
  | .arm _ _ session votes => hw.arm session votes
  | .setWatchdog enable _ => { hw with watchdog := enable }
  | _ => hw

theorem Does.hardware (memory : Hardware.Memory p.map device) (hd : Does p device d a i b j) :
    seen p.map device j.events = d.act (seen p.map device i.events) := by
  cases hd with
  | look looked => exact (memory.reads (p.layout.emits_observation p.map)).done looked
  | wake _ _ ended _ resumed =>
    have hended := (memory.acts_wakeUp _).done ended
    rw [Hardware.disarm_ending] at hended
    have hresumed := (memory.acts_resume _ _ _).done resumed
    rw [hresumed, hended]
    rfl
  | arm _ _ _ _ launched => exact (memory.acts_launch _ _ _).done launched
  | setWatchdog enable ticks timed put =>
    have htimed := (memory.unseen .timerValue (by decide) ticks).done timed
    have hput := (memory.acts_putWatchdog enable).done put
    rw [hput, htimed]
    rfl
  | readPll looked => exact (memory.read _).done looked
  | _ => rfl

theorem Does.watchdog (hd : Does p device d a i b j) :
    b.watchdog.isSome = d.watchdog?.getD a.watchdog.isSome := by
  cases hd with
  | setWatchdog enable => cases enable <;> rfl
  | _ => rfl

/-- An open session, or the latest command, wants a switch to be on. -/
inductive Wants (switch : Hardware.Switch) (a : Arbiter) : Prop
  | session {core : Nat} {session : Session} (opened : a.session? core = some session)
      (wanted : switch.wanted session = true)
  | command (commanded : switch.commanded = true) (armed : a.watchdog.isSome = true)

namespace Wants

theorem kept (h : Wants switch a)
    (hsession : ∀ core session, a.session? core = some session → switch.wanted session = true →
      b.session? core = some session) (hwatchdog : b.watchdog.isSome = a.watchdog.isSome) :
    Wants switch b := by
  cases h with
  | session opened wanted => exact .session (hsession _ _ opened wanted) wanted
  | command commanded armed => exact .command commanded (hwatchdog.trans armed)

theorem exists_session (h : Wants switch a) (uncommanded : switch.commanded = false) :
    ∃ core session, a.session? core = some session ∧ switch.wanted session = true := by
  cases h with
  | session opened wanted => exact ⟨_, _, opened, wanted⟩
  | command commanded => cases uncommanded.symm.trans commanded

theorem not_of_closed (closed : ∀ core, a.session? core = none) (h : a.watchdog.isSome = false) :
    ¬ Wants switch a := by
  intro wants
  cases wants with
  | session opened => cases (closed _).symm.trans opened
  | command _ armed => cases h.symm.trans armed

end Wants

def Owned (switch : Hardware.Switch) (a : Arbiter) (hw : Hardware) : Prop :=
  switch.lit hw → Wants switch a

theorem Does.owned (memory : Hardware.Memory p.map device) (accepted : p.Accepted)
    (hd : Does p device d a i b j) (coherent : Coherent p a)
    (owned : Owned switch a (seen p.map device i.events)) :
    Owned switch b (seen p.map device j.events) := by
  intro lit
  rw [hd.hardware memory] at lit
  have hsession := hd.session? accepted coherent
  have hwatchdog := hd.watchdog
  cases hd with
  | @wake _ _ _ _ core _ _ session _ opened =>
    obtain ⟨lit, unwanted⟩ := (switch.lit_disarm session _).mp lit
    refine (owned lit).kept (fun other s hs wanted => ?_) rfl
    -- The session which ended is not the one which wants the switch.
    have hne : core ≠ other := by
      rintro rfl
      rw [opened] at hs
      cases hs
      rw [unwanted] at wanted
      cases wanted
    rw [hsession]
    simp [Deed.session?, hne, hs]
  | @arm _ _ _ core _ _ _ _ _ free =>
    rcases (switch.lit_arm _ _ _).mp lit with lit | wanted
    · refine (owned lit).kept (fun other s hs _ => ?_) rfl
      have hne : core ≠ other := by
        rintro rfl
        rw [free] at hs
        cases hs
      rw [hsession]
      simp [Deed.session?, hne, hs]
    · have hopen := hsession core
      rw [Deed.session?, if_pos rfl] at hopen
      exact .session hopen wanted
  | setWatchdog enable =>
    have lit := (switch.lit_command enable _).mp lit
    split at lit
    · next hc => exact .command hc (hwatchdog.trans lit)
    · next hc =>
      obtain ⟨core, s, hs, wanted⟩ := (owned lit).exists_session (Bool.eq_false_iff.mpr hc)
      exact .session hs wanted
  | _ => exact (owned lit).kept (fun _ _ hs _ => hs) rfl

theorem DoesAll.watchdog (h : DoesAll p device ds a i b j) :
    b.watchdog.isSome = (ds.filterMap (·.watchdog?)).getLastD a.watchdog.isSome := by
  induction h with
  | nil => rfl
  | @cons _ _ _ _ _ _ d _ head _ ih =>
    rw [ih, head.watchdog, List.filterMap_cons]
    cases d.watchdog? with
    | none => rfl
    | some enable => exact List.getLastD_cons.symm

theorem Closing.watchdog {core : Nat} {left : Option Session} (h : Closing a core left ds) :
    ds.filterMap (·.watchdog?) = [] := by
  cases h with
  | idle => rfl
  | wake => rfl

theorem Course.watchdog (h : Course p a op ds answer) :
    ds.filterMap (·.watchdog?) = op.watchdog?.toList := by
  cases h with
  | invalidEntry entry =>
    rw [Operation.watchdog?_of_enters? entry]
    rfl
  | baseline _ entry _ closing =>
    rw [Operation.watchdog?_of_enters? entry, List.filterMap_cons_none rfl, List.filterMap_append,
      closing.watchdog]
    rfl
  | constraint _ _ _ entry _ closing =>
    rw [Operation.watchdog?_of_enters? entry, List.filterMap_cons_none rfl, List.filterMap_append,
      closing.watchdog]
    rfl
  | leave _ closing => exact closing.watchdog
  | control command => cases command <;> rfl
  | _ => rfl

theorem Steps.watchdog (accepted : p.Accepted) (coherent : Coherent p a)
    (h : Steps p device a i ops b j) :
    b.watchdog.isSome = (ops.filterMap (·.1.watchdog?)).getLastD a.watchdog.isSome := by
  induction h with
  | refl => rfl
  | @step a b _ _ _ _ _ op _ head _ ih =>
    obtain ⟨ds, course, done⟩ := step_course accepted coherent head
    rw [ih (done.coherent accepted coherent), done.watchdog, course.watchdog, List.filterMap_cons]
    cases op.watchdog? with
    | none => rfl
    | some enable => exact List.getLastD_cons.symm

/-- With plain memory behind the shared registers, and all of them off at first, each is on only
while a session or the latest command for the watchdog wants it. -/
theorem registers_owned (memory : Hardware.Memory p.map device)
    (crystal : device [] p.map.crystal = 0#32)
    (monitor : (device [] p.map.s1Control).getLsbD 0 = false)
    (watchdog : (device [] p.map.pcmControl).getLsbD 4 = false)
    (powerDown : device [] p.map.powerDownMailbox = 0#32)
    (started : Started p device a i) (steps : Steps p device a i ops b j) :
    let commanded := (ops.filterMap (·.1.watchdog?)).getLast? = some true
    (device j.events p.map.crystal ≠ 0#32 → ∃ core session, b.session? core = some session ∧
      session.options.contains SessionOptions.crystalLowPower = true) ∧
    ((device j.events p.map.s1Control).getLsbD 0 = true → ∃ core session,
      b.session? core = some session ∧
      session.options.contains SessionOptions.monitorS1 = true) ∧
    ((device j.events p.map.pcmControl).getLsbD 4 = true → (∃ core session,
      b.session? core = some session ∧
      session.options.contains SessionOptions.watchdog = true) ∨ commanded) ∧
    (device j.events p.map.powerDownMailbox ≠ 0#32 → ∃ core session,
      b.session? core = some session ∧ session.kind = .suspend) ∧
    ((∀ core, b.session? core = none) → ¬ commanded →
      device j.events p.map.crystal = 0#32 ∧ (device j.events p.map.s1Control).getLsbD 0 = false ∧
      (device j.events p.map.pcmControl).getLsbD 4 = false ∧
      device j.events p.map.powerDownMailbox = 0#32) := by
  have fresh := started.fresh
  obtain ⟨l, rfl, -⟩ := fresh.state
  -- One induction over the parts of the run serves all four switches.
  have owned : ∀ switch : Hardware.Switch, ¬ switch.lit (seen p.map device []) →
      Owned switch b (seen p.map device j.events) := by
    intro switch off
    refine (steps.invariant (I := fun a j => Owned switch a (seen p.map device j.events))
      fresh.accepted (fun hd coherent h => hd.owned memory fresh.accepted coherent h)
      (.initial l) ?_).2
    rw [fresh.events]
    exact fun lit => absurd lit off
  have hcommanded : b.watchdog.isSome = true →
      (ops.filterMap (·.1.watchdog?)).getLast? = some true := by
    rw [steps.watchdog fresh.accepted (.initial l), List.getLastD_eq_getLast?]
    cases (ops.filterMap (·.1.watchdog?)).getLast? with
    | none => exact nofun
    | some enable => exact fun h => congrArg some h
  have hcrystal := owned .crystal (fun h => h crystal)
  have hmonitor := owned .monitor (fun h => Bool.noConfusion (monitor.symm.trans h))
  have hwatchdog := owned .watchdog (fun h => Bool.noConfusion (watchdog.symm.trans h))
  have hpowerDown := owned .powerDown (fun h => h powerDown)
  refine ⟨fun lit => (hcrystal lit).exists_session rfl,
    fun lit => (hmonitor lit).exists_session rfl,
    fun lit => ?_, fun lit => ?_, fun closed uncommanded => ?_⟩
  · cases hwatchdog lit with
    | session opened wanted => exact .inl ⟨_, _, opened, wanted⟩
    | command _ armed => exact .inr (hcommanded armed)
  · obtain ⟨core, session, hs, wanted⟩ := (hpowerDown lit).exists_session rfl
    exact ⟨core, session, hs, of_decide_eq_true wanted⟩
  · have hoff : b.watchdog.isSome = false :=
      Bool.eq_false_iff.mpr fun h => uncommanded (hcommanded h)
    exact ⟨Decidable.of_not_not fun lit => Wants.not_of_closed closed hoff (hcrystal lit),
      Bool.eq_false_iff.mpr fun lit => Wants.not_of_closed closed hoff (hmonitor lit),
      Bool.eq_false_iff.mpr fun lit => Wants.not_of_closed closed hoff (hwatchdog lit),
      Decidable.of_not_not fun lit => Wants.not_of_closed closed hoff (hpowerDown lit)⟩

theorem registers_owned_idling : ∃ b j, Reachable Mt8192.platform (.memory fun _ => 0#32) b j ∧
    (Device.memory (fun _ => 0#32) j.events Mt8192.map.s1Control).getLsbD 0 = true ∧
    ∃ core session, b.session? core = some session ∧
      session.options.contains SessionOptions.monitorS1 = true := by
  have enables : (replayAll Mt8192.platform (.memory fun _ => 0#32)
      [.notify .all (.setFlags .firmware), .idleEnter 0 0]).any (fun r =>
        (Device.memory (fun _ => 0#32) r.2.2.events Mt8192.map.s1Control).getLsbD 0) = true := by
    decide +kernel
  obtain ⟨⟨ops, b, j⟩, hrun, hmonitor⟩ := (Option.any_eq_true _ _).mp enables
  obtain ⟨a, i, started, steps⟩ := run_of_replayAll hrun
  have owned := registers_owned (.of_memory Mt8192.map_distinct _) rfl rfl rfl rfl started steps
  exact ⟨b, j, reachable_of_replayAll hrun, hmonitor, owned.2.1 hmonitor⟩

end Arbiter

end LowPower

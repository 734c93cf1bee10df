import LowPower.Proofs.Arbiter.Request
import LowPower.Proofs.Hardware.Controls
import LowPower.Proofs.Hardware.Watchdog

namespace LowPower.Arbiter

open Bus (attempt attempt_bind)
open Controls (seen)

variable {α β : Type}

def withSettings (flavor : SuspendFlavor) (watchdog : Option Word) (a : Arbiter) : Arbiter :=
  { a with flavor, watchdog }

/-- Whatever the settings for suspend sessions are, an action does the same and leaves them as they
are. -/
def Indifferent (x : Action α) : Prop :=
  ∀ flavor watchdog a, attempt x (a.withSettings flavor watchdog) =
    (fun r => (r.1, r.2.withSettings flavor watchdog)) <$> attempt x a

namespace Indifferent

variable {x : Action α} {f : α → Action β}

theorem pure (a : α) : Indifferent (Pure.pure a : Action α) := fun _ _ _ => rfl

theorem throw (fault : Fault) : Indifferent (throw fault : Action α) := fun _ _ _ => rfl

theorem bind (hx : Indifferent x) (hf : ∀ a, Indifferent (f a)) : Indifferent (x >>= f) := by
  intro flavor watchdog a
  rw [attempt_bind, attempt_bind, hx, bind_map_left, map_bind]
  congr 1
  funext r
  rcases r with ⟨⟨fault⟩ | ⟨value⟩, b⟩
  · rfl
  · exact hf value flavor watchdog b

theorem get {f : Arbiter → Action β}
    (same : ∀ flavor watchdog a, f (a.withSettings flavor watchdog) = f a)
    (hf : ∀ a, Indifferent (f a)) : Indifferent (MonadState.get >>= f) := by
  intro flavor watchdog a
  change attempt (f (a.withSettings flavor watchdog)) (a.withSettings flavor watchdog) = _
  rw [same]
  exact hf a flavor watchdog a

theorem modify {g : Arbiter → Arbiter}
    (same : ∀ flavor watchdog a, g (a.withSettings flavor watchdog) =
      (g a).withSettings flavor watchdog) : Indifferent (modify g : Action PUnit) := by
  intro flavor watchdog a
  funext device j
  exact congrArg (fun b => (((.ok ⟨⟩ : Except Fault PUnit), b), j)) (same flavor watchdog a)

theorem onBus (x : Bus.Action α) : Indifferent (liftM x : Action α) := fun _ _ _ => rfl

theorem ofExcept (x : Except Fault α) : Indifferent (liftExcept x : Action α) := by
  cases x with
  | ok a => exact pure a
  | error fault => exact throw fault

theorem onSequencer (x : Sequencer.Action α) : Indifferent (onSequencer x) := fun _ _ _ => rfl

theorem keeps (h : Indifferent x) {a b : Arbiter} {device : Device} {i j : Journal}
    {result : Except Fault α} (done : attempt x a device i = ((result, b), j)) :
    b.flavor = a.flavor ∧ b.watchdog = a.watchdog := by
  have same := h a.flavor a.watchdog a
  change attempt x a = _ at same
  rw [same, Bus.map_apply] at done
  cases done
  exact ⟨rfl, rfl⟩

end Indifferent

variable (p : Platform) (core : Nat)

theorem indifferent_close : Indifferent (close p core) := by
  refine .get (fun _ _ _ => rfl) fun a => ?_
  cases a.session? core with
  | none => exact .pure none
  | some session =>
    refine .bind (.modify fun _ _ _ => rfl) fun _ => .get (fun _ _ _ => rfl) fun b => ?_
    exact .bind (.onSequencer _) fun result => .bind (.ofExcept result) fun _ =>
      .bind (.modify fun _ _ _ => rfl) fun _ => .pure _

theorem indifferent_refresh : Indifferent (refresh p) :=
  .bind (.onBus _) fun result => .bind (.ofExcept result) fun _ => .modify fun _ _ _ => rfl

theorem indifferent_choose (start : Nat) (kind : Session.Kind) :
    Indifferent (choose start kind) := by
  intro flavor watchdog a
  rw [attempt_choose, attempt_choose]
  rfl

theorem indifferent_openSession (index : Nat) (extra : SessionOptions) :
    Indifferent (openSession p core index .idle extra) :=
  .get (fun _ _ _ => rfl) fun _ => .bind (.onSequencer _) fun _ =>
    .modify fun _ _ _ => rfl

theorem indifferent_arrive (start : Nat) (extra : SessionOptions) :
    Indifferent (arrive p core start .idle extra) := by
  refine .bind (indifferent_refresh p) fun _ => .bind (indifferent_choose start .idle) ?_
  rintro (⟨⟩ | index)
  · exact .bind (.onBus _) fun _ => .pure _
  · exact .bind (indifferent_openSession p core index extra) fun _ => .pure _

theorem indifferent_idleEnter (hint : Nat) : Indifferent (idleEnter p core hint) := by
  by_cases valid : core < p.cores
  · intro flavor watchdog a
    rw [idleEnter, attempt_enter _ _ _ _ valid, attempt_enter _ _ _ _ valid, map_bind]
    congr 1
    funext _
    rw [indifferent_close p core flavor watchdog a, bind_map_left, map_bind]
    congr 1
    funext r
    rcases r with ⟨⟨fault⟩ | ⟨left⟩, b⟩
    · rfl
    · exact indifferent_arrive p core hint ∅ flavor watchdog b
  · rw [idleEnter, enter, if_pos (Nat.not_lt.mp valid)]
    exact .bind (.onBus _) fun _ => .pure _

section

variable {p : Platform} {device live : Device} {a b : Arbiter} {i j k : Journal} {core : Nat}
  {left : Option Session} {ds : List Deed}

theorem Closing.settings (h : Closing a core left ds) (done : DoesAll p device ds a i b j) :
    b.flavor = a.flavor ∧ b.watchdog = a.watchdog := by
  cases h with
  | idle =>
    cases done
    exact ⟨rfl, rfl⟩
  | wake =>
    cases done with
    | cons head tail =>
      cases tail
      cases head
      exact ⟨rfl, rfl⟩

theorem Closing.controls (memory : Controls.Memory p.map device) (h : Closing a core left ds)
    (done : DoesAll p device ds a i b j) :
    ∃ watched, seen p.map device j.events = { seen p.map device i.events with watched } := by
  cases h with
  | idle =>
    cases done
    exact ⟨_, rfl⟩
  | wake =>
    cases done with
    | cons head tail =>
      cases tail
      cases head with
      | wake _ _ ended _ resumed =>
        rw [(memory.acts_resume _ _ _).done resumed, (memory.acts_wakeUp _).done ended, id,
          Controls.undo]
        split
        · exact ⟨false, rfl⟩
        · exact ⟨_, rfl⟩

theorem newSession_congr (hflavor : b.flavor = a.flavor) (hwatchdog : b.watchdog = a.watchdog)
    (core index : Nat) (kind : Session.Kind) (extra : SessionOptions) :
    b.newSession p core index kind extra = a.newSession p core index kind extra := by
  cases kind with
  | idle => rfl
  | suspend => rw [newSession, newSession, power, power, hflavor, hwatchdog]

theorem Does.arm_controls (memory : Controls.Memory p.map device) {c : Constraint}
    {session : Session} {required : ResourceSet}
    (h : Does p device (.arm core c session required) a i b j) :
    a.ladder.constraints[session.constraint]? = some c ∧
      seen p.map device j.events = (seen p.map device i.events).program session := by
  cases h with
  | arm _ _ registered _ launched =>
    exact ⟨registered, (memory.acts_launch _ _ _).done launched⟩

theorem entry_controls (memory : Controls.Memory p.map live) (reached : Reachable p device a i)
    (e : Entry) {index : Nat}
    (entered : attempt (enter p e.core e.start e.kind e.extra) a live j =
      ((.ok (.constraint index), b), k)) :
    ∃ (c : Constraint) (watched : Bool), a.ladder.observe (·.variant) index = some c.variant ∧
      seen p.map live k.events = Controls.program
        (c.prepare (a.newSession p e.core index e.kind e.extra))
        { seen p.map live j.events with watched } := by
  have valid : e.core < p.cores := by
    apply Nat.lt_of_not_le
    intro invalid
    rw [enter, if_pos invalid] at entered
    cases entered
  rcases enter_completes reached.accepted reached.coherent e valid live j with
    ⟨depth, b', k', hentered, completes⟩ | ⟨b', k', hbroken⟩
  · cases hentered.symm.trans entered
    cases completes with
    | @constraint _ ds u _ l m _ clocks _ c _ _ _ _ _ closing done looked _ armed =>
      obtain ⟨registered, programmed⟩ := armed.arm_controls memory
      have hvariant : (u.ladder.check clocks).observe (·.variant) index = some c.variant :=
        congrArg (Option.map Constraint.variant) registered
      rw [Ladder.observe_check fun _ => rfl, closing.variant done] at hvariant
      obtain ⟨hflavor, hwatchdog⟩ := closing.settings done
      obtain ⟨watched, hclosed⟩ := closing.controls memory done
      have hlooked := (memory.seesOnly.reads (p.layout.emits_observation p.map)).done looked
      have same : (u.refreshed clocks).newSession p e.core index e.kind e.extra =
          a.newSession p e.core index e.kind e.extra := newSession_congr hflavor hwatchdog ..
      refine ⟨c, watched, hvariant, ?_⟩
      rw [programmed, same]
      change Controls.program _ (seen p.map live m.events) = _
      rw [hlooked, id, hclosed]
  · cases hbroken.symm.trans entered

/-- The flags of a suspend. They keep audio alive if the flavor says so, or if the caller or the
constraint asks for it. -/
def suspendPcm (a : Arbiter) (extra : SessionOptions) (variant : Constraint.Variant) :
    PcmSettings :=
  if a.flavor = .sleep ∨ extra.contains SessionOptions.audioSuspend = true ∨
      (variant.options .suspend).contains SessionOptions.audioSuspend = true then
    SuspendFlavor.sleep.pcm
  else SuspendFlavor.powerDown.pcm

/-- The timer of a suspend: that of the platform, or that of the watchdog, or the one which was
there before. The watchdog must fit behind it. -/
def suspendTimer (p : Platform) (a : Arbiter) (before : Word) : Word :=
  Watchdog.clamp <|
    if p.suspend.timerTicks ≠ 0#32 then p.suspend.timerTicks
    else
      match a.watchdog with
      | some ticks => if ticks ≠ 0#32 then ticks else before
      | none => before

theorem suspendTimer_eq (before : Word) :
    a.suspendTimer p before = Watchdog.clamp (if (a.power p .suspend).timerTicks = 0#32 then before
      else (a.power p .suspend).timerTicks) := by
  by_cases hticks : p.suspend.timerTicks = 0#32
  · cases hwatchdog : a.watchdog with
    | none => simp [suspendTimer, power, hticks, hwatchdog]
    | some ticks => simp [suspendTimer, power, hticks, hwatchdog]
  · simp [suspendTimer, power, hticks]

theorem sessionPcm_suspend (c : Constraint) (extra : SessionOptions) :
    c.sessionPcm .suspend (extra ∪ c.options .suspend) a.flavor.pcm =
      a.suspendPcm extra c.variant := by
  have asked : (extra ∪ c.options .suspend).contains SessionOptions.audioSuspend =
      (extra.contains SessionOptions.audioSuspend ||
        (c.variant.options .suspend).contains SessionOptions.audioSuspend) := by
    simp only [SessionOptions.audioSuspend, Flags.contains_single (show 3 < 32 by decide),
      Flags.bits_union, BitVec.getLsbD_or]
    rfl
  rw [Constraint.sessionPcm, suspendPcm, asked]
  cases a.flavor <;> simp

theorem program_idle (c : Constraint) (core index : Nat) (ctl : Controls) :
    ctl.program (c.prepare (a.newSession p core index .idle ∅)) =
      { ctl with
        flags := c.variant.idlePcm.flags.bits
        flags1 := c.variant.idlePcm.flags1.bits
        timer := if p.idle.timerTicks = 0#32 then ctl.timer else p.idle.timerTicks
        timed := ctl.timed || p.idle.timerTicks != 0#32 } := by
  have unguarded : (c.prepare (a.newSession p core index .idle ∅)).options.contains
      SessionOptions.watchdog = false := c.guarded_prepare fun _ => rfl
  have ticks : (c.prepare (a.newSession p core index .idle ∅)).power.timerTicks =
      p.idle.timerTicks := rfl
  have pcm : (c.prepare (a.newSession p core index .idle ∅)).power.pcm = c.variant.idlePcm := rfl
  have kind : (c.prepare (a.newSession p core index .idle ∅)).kind = .idle := rfl
  simp only [Controls.program, unguarded, ticks, pcm, kind]
  by_cases hticks : p.idle.timerTicks = 0#32
  · simp [hticks, Controls.putFlags]
  · simp [hticks, Controls.putFlags, Controls.startTimer]

theorem program_suspend (c : Constraint) (core index : Nat) (extra : SessionOptions)
    (ctl : Controls) :
    ctl.program (c.prepare (a.newSession p core index .suspend extra)) =
      { flags := (a.suspendPcm extra c.variant).flags.bits
        flags1 := (a.suspendPcm extra c.variant).flags1.bits
        timer := a.suspendTimer p ctl.timer
        timed := false
        limit := a.suspendTimer p ctl.timer + Watchdog.margin
        watched := true
        wakes := false } := by
  have guarded : (c.prepare (a.newSession p core index .suspend extra)).options.contains
      SessionOptions.watchdog = true := c.guarded_prepare nofun
  have ticks : (c.prepare (a.newSession p core index .suspend extra)).power.timerTicks =
      (a.power p .suspend).timerTicks := rfl
  have pcm : (c.prepare (a.newSession p core index .suspend extra)).power.pcm =
      a.suspendPcm extra c.variant := sessionPcm_suspend c extra
  have kind : (c.prepare (a.newSession p core index .suspend extra)).kind = .suspend := rfl
  simp only [Controls.program, guarded, ticks, pcm, kind, suspendTimer_eq]
  by_cases hticks : (a.power p .suspend).timerTicks = 0#32
  · simp [hticks, Controls.putFlags, Controls.armWatchdog]
  · simp [hticks, Controls.putFlags, Controls.armWatchdog, Controls.startTimer]

/-- Idle entries do not go by the settings for suspend sessions. Whatever these are, an idle entry
does and answers the same and leaves the settings alone, and it is programmed with the flags of its
constraint and the idle timer of the platform. A suspend entry is programmed with the flags and the
timer to which the settings resolve. Its timer is then stopped, and the watchdog resets the system a
margin after it. -/
theorem settings_only_for_suspends (memory : Controls.Memory p.map live) :
    (∀ (a b : Arbiter) flavor watchdog core hint j result k,
      attempt (idleEnter p core hint) a live j = ((result, b), k) →
      attempt (idleEnter p core hint) (a.withSettings flavor watchdog) live j =
          ((result, b.withSettings flavor watchdog), k) ∧
        b.flavor = a.flavor ∧ b.watchdog = a.watchdog) ∧
    (∀ device a i core hint j index b k, Reachable p device a i →
      attempt (idleEnter p core hint) a live j = ((.ok (.constraint index), b), k) →
      ∃ c watched, a.ladder.constraints[index]? = some c ∧
        seen p.map live k.events =
          { seen p.map live j.events with
            flags := c.variant.idlePcm.flags.bits
            flags1 := c.variant.idlePcm.flags1.bits
            timer :=
              if p.idle.timerTicks = 0#32 then (seen p.map live j.events).timer
              else p.idle.timerTicks
            timed := (seen p.map live j.events).timed || p.idle.timerTicks != 0#32
            watched }) ∧
    ∀ device a i core extra j index b k, Reachable p device a i →
      attempt (suspendEnter p core extra) a live j = ((.ok (.constraint index), b), k) →
      ∃ c, a.ladder.constraints[index]? = some c ∧
        seen p.map live k.events =
          { flags := (a.suspendPcm extra c.variant).flags.bits
            flags1 := (a.suspendPcm extra c.variant).flags1.bits
            timer := a.suspendTimer p (seen p.map live j.events).timer
            timed := false
            limit := a.suspendTimer p (seen p.map live j.events).timer + Watchdog.margin
            watched := true
            wakes := false } := by
  refine ⟨?_, ?_, ?_⟩
  · intro a b flavor watchdog core hint j result k entered
    have indifferent := indifferent_idleEnter p core hint
    refine ⟨?_, indifferent.keeps entered⟩
    rw [indifferent flavor watchdog a, Bus.map_apply, entered]
  · intro device a i core hint j index b k reached entered
    obtain ⟨c, watched, variant, told⟩ :=
      entry_controls memory reached ⟨core, hint, .idle, ∅⟩ entered
    obtain ⟨c', hc', hvariant⟩ := Option.map_eq_some_iff.mp variant
    refine ⟨c', watched, hc', ?_⟩
    rw [told, hvariant]
    exact program_idle c core index _
  · intro device a i core extra j index b k reached entered
    obtain ⟨c, watched, variant, told⟩ :=
      entry_controls memory reached ⟨core, 0, .suspend, extra⟩ entered
    obtain ⟨c', hc', hvariant⟩ := Option.map_eq_some_iff.mp variant
    refine ⟨c', hc', ?_⟩
    rw [told, hvariant]
    exact program_suspend c core index extra _

theorem settings_only_for_suspends_armed : ∃ (a : Arbiter) (i : Journal) (k l : Journal),
    Reachable Mt8192.platform (.memory fun _ => 0#32) a i ∧ a.watchdog = some 100#32 ∧
    (∃ b, attempt (suspendEnter Mt8192.platform 0 ∅) a (.memory fun _ => 0#32) i =
      ((.ok (.constraint 0), b), k)) ∧
    (seen Mt8192.map (.memory fun _ => 0#32) k.events).timer = 100#32 ∧
    (∃ b, attempt (idleEnter Mt8192.platform 0 0) a (.memory fun _ => 0#32) .empty =
      ((.ok (.constraint 0), b), l) ∧ attempt (idleEnter Mt8192.platform 0 0)
        (a.withSettings .sleep none) (.memory fun _ => 0#32) .empty =
          ((.ok (.constraint 0), b.withSettings .sleep none), l)) ∧
    (seen Mt8192.map (.memory fun _ => 0#32) l.events).timer = 0#32 := by
  have enters : (replayAll Mt8192.platform (.memory fun _ => 0#32)
      [.notify .all (.setFlags .firmware), .control (.setWatchdog true 100#32)]).any (fun r =>
        r.2.1.watchdog = some 100#32 &&
        (attempt (suspendEnter Mt8192.platform 0 ∅) r.2.1 (.memory fun _ => 0#32)
          r.2.2).1.1 = .ok (.constraint 0) &&
        (attempt (idleEnter Mt8192.platform 0 0) r.2.1 (.memory fun _ => 0#32)
          .empty).1.1 = .ok (.constraint 0)) = true := by
    decide +kernel
  obtain ⟨⟨ops, a, i⟩, hrun, h⟩ := (Option.any_eq_true _ _).mp enters
  simp only [Bool.and_eq_true, decide_eq_true_eq] at h
  obtain ⟨⟨armed, hsuspended⟩, hidled⟩ := h
  have reached := reachable_of_replayAll hrun
  obtain ⟨same, idle, suspend⟩ := settings_only_for_suspends (p := Mt8192.platform)
    (.of_memory Mt8192.map_distinct fun _ => 0#32)
  have suspended : attempt (suspendEnter Mt8192.platform 0 ∅) a (.memory fun _ => 0#32) i =
      ((.ok (.constraint 0), _), _) := Prod.ext (Prod.ext hsuspended rfl) rfl
  have idled : attempt (idleEnter Mt8192.platform 0 0) a (.memory fun _ => 0#32) .empty =
      ((.ok (.constraint 0), _), _) := Prod.ext (Prod.ext hidled rfl) rfl
  obtain ⟨c, -, resolved⟩ := suspend _ a i 0 ∅ i 0 _ _ reached suspended
  obtain ⟨d, watched, -, untimed⟩ := idle _ a i 0 0 .empty 0 _ _ reached idled
  have ticks (before : Word) : a.suspendTimer Mt8192.platform before = 100#32 := by
    rw [suspendTimer, armed]
    rfl
  refine ⟨a, i, _, _, reached, armed, ⟨_, suspended⟩, ?_,
    ⟨_, idled, (same _ _ .sleep none _ _ _ _ _ idled).1⟩, ?_⟩
  · exact (congrArg Controls.timer resolved).trans (ticks _)
  · exact congrArg Controls.timer untimed

end

end LowPower.Arbiter

import LowPower.Proofs.Hardware.View
import LowPower.Proofs.Sequencer.Script

namespace LowPower

open Bus (Acts Emits Event Hidden SeesOnly)

@[ext]
structure Controls where
  flags : Word
  flags1 : Word
  timer : Word
  timed : Bool
  limit : Word
  watched : Bool
  wakes : Bool

namespace Controls

def ofRegisters (value : Register.Name → Word) : Controls where
  flags := value .swFlag0
  flags1 := value .swFlag1
  timer := value .timerValue
  timed := (value .pcmControl).getLsbD 5
  limit := value .watchdogValue
  watched := (value .pcmControl).getLsbD 4
  wakes := (value .pcmControl).getLsbD 9

def seen (map : Register.Map) (device : Device) (h : Bus.History) : Controls :=
  ofRegisters fun r => device h (map.at r)

def registers : List Register.Name :=
  [.swFlag0, .swFlag1, .timerValue, .pcmControl, .watchdogValue]

/-- The registers are plain memory, each in its own place. -/
structure Memory (map : Register.Map) (device : Device) : Prop where
  distinct : map.Distinct
  remembers : ∀ r ∈ registers, device.RemembersAt (map.at r)

theorem Memory.of_memory {map : Register.Map} (distinct : map.Distinct)
    (initial : Address → Word) : Memory map (.memory initial) :=
  ⟨distinct, fun _ _ _ => rfl⟩

def write (x : Word) (ctl : Controls) : Register.Name → Controls
  | .swFlag0 => { ctl with flags := x }
  | .swFlag1 => { ctl with flags1 := x }
  | .timerValue => { ctl with timer := x }
  | .pcmControl =>
    { ctl with timed := x.getLsbD 5, watched := x.getLsbD 4, wakes := x.getLsbD 9 }
  | .watchdogValue => { ctl with limit := x }
  | _ => ctl

def startTimer (ticks : Word) (ctl : Controls) : Controls :=
  { ctl with timer := ticks, timed := true }

def armWatchdog (ctl : Controls) : Controls :=
  { ctl with
    timer := Watchdog.clamp ctl.timer
    limit := Watchdog.clamp ctl.timer + Watchdog.margin
    watched := true
    wakes := false }

def putFlags (pcm : PcmSettings) (ctl : Controls) : Controls :=
  { ctl with flags := pcm.flags.bits, flags1 := pcm.flags1.bits }

/-- What an entry tells the sequencer. The timer of a suspend is only used by the watchdog. -/
def program (session : Session) (ctl : Controls) : Controls :=
  let ticks := session.power.timerTicks
  let ctl := if ticks ≠ 0#32 then ctl.startTimer ticks else ctl
  let ctl := ctl.putFlags session.power.pcm
  let ctl := if session.options.contains SessionOptions.watchdog then ctl.armWatchdog else ctl
  if session.kind = .suspend then { ctl with timed := false } else ctl

def undo (options : SessionOptions) (ctl : Controls) : Controls :=
  if options.contains SessionOptions.watchdog then { ctl with watched := false } else ctl

variable {map : Register.Map} {device : Device}

namespace Memory

theorem seen_write (memory : Memory map device) (r : Register.Name) (x : Word)
    (h : Bus.History) :
    seen map device (.write (map.at r) x :: h) = (seen map device h).write x r := by
  have kept {s : Register.Name} (hs : s ∈ registers) :=
    (memory.remembers s hs).write_at memory.distinct r x h
  have hf := kept (s := .swFlag0) (by decide)
  have hg := kept (s := .swFlag1) (by decide)
  have ht := kept (s := .timerValue) (by decide)
  have hc := kept (s := .pcmControl) (by decide)
  have hw := kept (s := .watchdogValue) (by decide)
  simp only [seen, ofRegisters, hf, hg, ht, hc, hw]
  cases r <;> rfl

theorem hidden (memory : Memory map device) {e : Event} (he : ∀ b x, e ≠ .write b x) :
    Hidden (seen map device) e := by
  intro h
  have hkept : ∀ r ∈ registers, device (e :: h) (map.at r) = device h (map.at r) := fun r hr =>
    (memory.remembers r hr).other he h
  have hf := hkept .swFlag0 (by decide)
  have hg := hkept .swFlag1 (by decide)
  have ht := hkept .timerValue (by decide)
  have hc := hkept .pcmControl (by decide)
  have hw := hkept .watchdogValue (by decide)
  simp only [seen, ofRegisters, hf, hg, ht, hc, hw]

theorem acts_write (memory : Memory map device) (r : Register.Name) (x : Word) :
    Acts device (seen map device) (Bus.write (map.at r) x) (·.write x r) :=
  .emit fun h => memory.seen_write r x h

theorem seesOnly (memory : Memory map device) : SeesOnly map registers (seen map device) where
  others _ he := memory.hidden he
  unseen r hr x h := by
    rw [memory.seen_write]
    revert hr
    cases r with
    | swFlag0 | swFlag1 | timerValue | pcmControl | watchdogValue =>
      exact fun hr => absurd (by decide) hr
    | _ => exact fun _ => rfl

theorem unseen (memory : Memory map device) (r : Register.Name) (hr : r ∉ registers) (x : Word) :
    Acts device (seen map device) (Bus.write (map.at r) x) id :=
  memory.seesOnly.write r hr x

theorem read (memory : Memory map device) (a : Address) :
    Acts device (seen map device) (Bus.read a) id :=
  memory.seesOnly.read a

theorem acts_readTimer (memory : Memory map device) {α : Type} {y : Word → Bus.Action α}
    {f : Word → Controls → Controls}
    (hy : ∀ timer, Acts device (seen map device) (y timer) (f timer)) :
    Acts device (seen map device) (Bus.read map.timerValue >>= y) fun ctl => f ctl.timer ctl := by
  intro j
  rw [Bus.bind_apply, hy]
  exact congrArg (f (device j.events map.timerValue)) (memory.read map.timerValue j)

theorem acts_putControl (memory : Memory map device) (bits : Word) (on : Bool) :
    Acts device (seen map device) (Watchdog.putControl map bits on) fun ctl => { ctl with
      timed := if on then ctl.timed || bits.getLsbD 5 else ctl.timed && !bits.getLsbD 5
      watched := if on then ctl.watched || bits.getLsbD 4 else ctl.watched && !bits.getLsbD 4
      wakes := if on then ctl.wakes || bits.getLsbD 9 else ctl.wakes && !bits.getLsbD 9 } := by
  intro j
  have unread : seen map device (.read map.pcmControl (device j.events map.pcmControl) ::
      j.events) = seen map device j.events := memory.read map.pcmControl j
  rw [Watchdog.putControl_eq]
  change seen map device (.write (map.at .pcmControl) (Watchdog.controlWord bits on
    (device j.events (map.at .pcmControl))) :: .read _ _ :: j.events) = _
  rw [memory.seen_write, unread]
  simp only [write, Watchdog.getLsbD_controlWord _ _ _ (show 5 < 16 by decide),
    Watchdog.getLsbD_controlWord _ _ _ (show 4 < 16 by decide),
    Watchdog.getLsbD_controlWord _ _ _ (show 9 < 16 by decide)]
  rfl

theorem acts_switchTimer (memory : Memory map device) (on : Bool) :
    Acts device (seen map device) (Watchdog.putControl map Watchdog.timerEnable on) fun ctl =>
      { ctl with timed := on } :=
  (memory.acts_putControl Watchdog.timerEnable on).congr fun ctl => by
    cases on <;> simp [Watchdog.timerEnable]

theorem acts_switchWatchdog (memory : Memory map device) (on : Bool) :
    Acts device (seen map device) (Watchdog.putControl map Watchdog.watchdogEnable on) fun ctl =>
      { ctl with watched := on } :=
  (memory.acts_putControl Watchdog.watchdogEnable on).congr fun ctl => by
    cases on <;> simp [Watchdog.watchdogEnable]

theorem acts_switchWakes (memory : Memory map device) (on : Bool) :
    Acts device (seen map device) (Watchdog.putControl map Watchdog.watchdogWakes on) fun ctl =>
      { ctl with wakes := on } :=
  (memory.acts_putControl Watchdog.watchdogWakes on).congr fun ctl => by
    cases on <;> simp [Watchdog.watchdogWakes]

theorem acts_armWatchdog (memory : Memory map device) :
    Acts device (seen map device) (Watchdog.arm map) armWatchdog := by
  rw [Watchdog.arm_eq]
  have shorten (timer : Word) : Acts device (seen map device)
      (Bus.when (Watchdog.timerMax < timer) do Bus.write map.timerValue Watchdog.timerMax)
      fun ctl => { ctl with
        timer := if Watchdog.timerMax < timer then Watchdog.timerMax else ctl.timer } :=
    (Acts.when fun _ => memory.acts_write .timerValue _).congr fun ctl => by
      split <;> rfl
  exact Acts.congr (.bind (memory.acts_switchWakes false) fun _ =>
    memory.acts_readTimer fun timer => .bind (shorten timer) fun _ =>
    .bind (memory.acts_write .watchdogValue _) fun _ =>
    memory.acts_switchWatchdog true) fun _ => rfl

theorem acts_programWake (memory : Memory map device) (session : Session) :
    Acts device (seen map device) (Sequencer.programWake map session)
      (if session.power.timerTicks ≠ 0#32 then startTimer session.power.timerTicks else id) := by
  rw [Sequencer.programWake_eq]
  exact .before (memory.unseen .coreScratch (by decide) _) fun _ =>
    .before (memory.unseen .coreMailbox (by decide) _) fun _ =>
    .before (memory.unseen .wakeMask (by decide) _) fun _ => .when fun _ =>
    .bind (memory.acts_write .timerValue _) fun _ => memory.acts_switchTimer true

theorem acts_programFlags (memory : Memory map device) (session : Session) (votes : ResourceSet) :
    Acts device (seen map device) (Sequencer.programFlags map session votes)
      (putFlags session.power.pcm) :=
  .bind (memory.acts_write .swFlag0 _) fun _ => .after (memory.acts_write .swFlag1 _) fun _ =>
    memory.unseen .sourceRequest (by decide) _

theorem acts_monitor (memory : Memory map device) (f : Word → Word) :
    Acts device (seen map device)
      (do Bus.write map.s1Control (f (← Bus.read map.s1Control))) id :=
  .before (memory.read _) fun _ => memory.unseen .s1Control (by decide) _

theorem acts_programOptions (memory : Memory map device) (options : SessionOptions) :
    Acts device (seen map device) (Sequencer.programOptions map options)
      (if options.contains SessionOptions.watchdog then armWatchdog else id) := by
  rw [Sequencer.programOptions_eq]
  exact .before (.when_id fun _ => memory.unseen .clockRecord (by decide) _) fun _ =>
    .after (.when fun _ => memory.acts_armWatchdog) fun _ =>
    .before (.when_id fun _ => memory.unseen .crystal (by decide) _) fun _ =>
    .when_id fun _ => memory.acts_monitor (· ||| 1#32)

theorem acts_kick (memory : Memory map device) (kind : Session.Kind) :
    Acts device (seen map device) (Sequencer.kick map kind)
      (if kind = .suspend then ({ · with timed := false }) else id) := by
  rw [Sequencer.kick_eq]
  exact .before (memory.unseen .kick (by decide) _) fun _ =>
    .before (memory.unseen .kick (by decide) _) fun _ =>
    .when fun _ => memory.acts_switchTimer false

theorem acts_program (memory : Memory map device) (session : Session) (votes : ResourceSet) :
    Acts device (seen map device) (Sequencer.program map session votes) (program session) := by
  refine Acts.congr (memory.seesOnly.program (memory.acts_programWake session)
    (memory.acts_programFlags session votes) (memory.acts_programOptions session.options)
    (memory.acts_kick session.kind)) fun ctl => ?_
  simp only [Function.comp_apply, program]
  split <;> split <;> split <;> rfl

theorem acts_launch (memory : Memory map device) (votes : ResourceSet) (c : Constraint)
    (session : Session) :
    Acts device (seen map device) (c.launch map votes session) (program (c.prepare session)) := by
  refine Acts.congr (memory.seesOnly.launch (by decide) (by decide)
    (memory.unseen .powerDownMailbox (by decide) _) (memory.acts_program _ votes)) fun ctl => ?_
  rw [ite_self]
  rfl

theorem acts_stopMonitor (memory : Memory map device) (options : SessionOptions) :
    Acts device (seen map device) (Sequencer.stopMonitor map options) id := by
  unfold Sequencer.stopMonitor
  split
  · exact .before (memory.acts_monitor (· &&& ~~~1#32)) fun _ =>
      .before (memory.read _) fun _ => .pure _
  · exact .pure _

theorem acts_undoOptions (memory : Memory map device) (options : SessionOptions) :
    Acts device (seen map device) (Sequencer.undoOptions map options) (undo options) := by
  rw [Sequencer.undoOptions_eq]
  refine Acts.congr (.after (.when fun _ => memory.acts_switchWatchdog false) fun _ =>
    .before (.when_id fun _ => memory.unseen .crystal (by decide) _) fun _ =>
    .before (memory.acts_stopMonitor options) fun _ =>
    .before (memory.unseen .externalClear (by decide) _) fun _ => .pure _) fun ctl => ?_
  rw [undo]
  split <;> rfl

theorem acts_wakeUp (memory : Memory map device) (session : Session) :
    Acts device (seen map device) (Sequencer.wakeUp map session) (undo session.options) :=
  memory.seesOnly.wakeUp (by decide) (memory.acts_undoOptions session.options)

theorem acts_resume (memory : Memory map device) (c : Constraint) (kind : Session.Kind)
    (outcome : Wake.Outcome) :
    Acts device (seen map device) (c.resume map kind outcome) id :=
  (memory.seesOnly.resume c kind outcome (by decide) (by decide)
    (memory.unseen .powerDownMailbox (by decide) _)).congr fun ctl => by rw [ite_self]

end Memory

end Controls

end LowPower

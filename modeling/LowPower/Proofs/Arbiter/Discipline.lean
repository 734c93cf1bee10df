import LowPower.Platform.Mt8192
import LowPower.Proofs.Arbiter.Manner
import LowPower.Proofs.Sequencer.Discipline

namespace LowPower

open Bus (Event Follows attempt attempt_liftBus_bind attempt_map attempt_modify_bind attempt_pure)

def Bus.since (earlier later : History) : List Event :=
  (later.take (later.length - earlier.length)).reverse

theorem Bus.since_append (es : List Event) (h : History) : since h (es.reverse ++ h) = es := by
  simp [since]

namespace Arbiter

variable {p : Platform}

/-- The state and the journal after some operations. An operation which broke off is followed by the
next one. -/
def performAll (p : Platform) (device : Device) :
    List Operation → Arbiter → Journal → Arbiter × Journal
  | [], a, i => (a, i)
  | op :: ops, a, i =>
    let r := op.step p device a i
    performAll p device ops r.1.2 r.2

def accesses (p : Platform) (device : Device) :
    List Operation → Arbiter → Journal → List (List Event)
  | [], _, _ => []
  | op :: ops, a, i =>
    let r := op.step p device a i
    Bus.since i.events r.2.events :: accesses p device ops r.1.2 r.2

theorem step_disciplined (distinct : p.map.Distinct) (device : Device) (op : Operation)
    (a : Arbiter) (i : Journal) : ∃ es ∈ Watchdog.disciplined p.map,
      (op.step p device a i).2.events = es.reverse ++ i.events :=
  (Manner.disciplined distinct).perform op a device i

theorem run_disciplined (distinct : p.map.Distinct) (device : Device) (ops : List Operation)
    (a : Arbiter) (i : Journal) :
    (performAll p device ops a i).2.events =
        (accesses p device ops a i).flatten.reverse ++ i.events ∧
      ∀ es ∈ accesses p device ops a i, es ∈ Watchdog.disciplined p.map := by
  induction ops generalizing a i with
  | nil => exact ⟨rfl, nofun⟩
  | cons op ops ih =>
    obtain ⟨es, hes, events⟩ := step_disciplined distinct device op a i
    obtain ⟨later, hlater⟩ := ih (op.step p device a i).1.2 (op.step p device a i).2
    have done : Bus.since i.events (op.step p device a i).2.events = es := by
      rw [events, Bus.since_append]
    rw [performAll, accesses, done]
    refine ⟨?_, List.forall_mem_cons.mpr ⟨hes, hlater⟩⟩
    rw [later, events, List.flatten_cons, List.reverse_append, List.append_assoc]

theorem follows_setWatchdog (p : Platform) (enable : Bool) (ticks : Word) (a : Arbiter) :
    Follows (attempt ((Operation.control (.setWatchdog enable ticks)).perform p) a) fun _ =>
      .store p.map.timerValue ticks *
        if enable then Watchdog.arming p.map
        else Watchdog.switching p.map Watchdog.watchdogEnable false := by
  simp only [Operation.perform, control, setWatchdog, attempt_map, bind_assoc,
    attempt_liftBus_bind, attempt_modify_bind, attempt_pure, map_bind]
  exact .after (.note _) fun _ => .seq (.write _ _) fun _ =>
    .last (Watchdog.follows_put _ _) fun _ => .done _

theorem accesses_arm (p : Platform) (device : Device) (ticks : Word) (a : Arbiter) (i : Journal) :
    ∃ earlier read, accesses p device [.control (.setWatchdog true ticks)] a i =
      [earlier ++ [.read p.map.pcmControl read, .write p.map.pcmControl
        (Watchdog.controlWord Watchdog.watchdogEnable true read)]] := by
  obtain ⟨es, hes, events⟩ := follows_setWatchdog p true ticks a device i
  obtain ⟨_, rfl, fs, hfs, rfl⟩ := Language.mem_mul.mp hes
  obtain ⟨first, timer, read, rfl⟩ := Watchdog.exists_limiting hfs
  have done := congrArg (Bus.since i.events) events
  rw [Bus.since_append, ← List.append_assoc] at done
  exact ⟨_, read, congrArg (· :: []) done⟩

/-- Every write to the control register carries the key and follows a read of the register, of which
it changes one bit at most. It never makes the watchdog wake, and where it enables the watchdog, the
same operation has limited it just before. The command which arms the watchdog does enable it. -/
theorem control_writes_disciplined (distinct : p.map.Distinct) (device : Device)
    (ops : List Operation) (a : Arbiter) (i : Journal) :
    (performAll p device ops a i).2.events =
        (accesses p device ops a i).flatten.reverse ++ i.events ∧
      (∀ es ∈ accesses p device ops a i, es ∈ Watchdog.disciplined p.map) ∧
      ∀ ticks, ∃ earlier read, accesses p device [.control (.setWatchdog true ticks)] a i =
        [earlier ++ [.read p.map.pcmControl read, .write p.map.pcmControl
          (Watchdog.controlWord Watchdog.watchdogEnable true read)]] := by
  obtain ⟨complete, disciplined⟩ := run_disciplined distinct device ops a i
  exact ⟨complete, disciplined, fun ticks => accesses_arm p device ticks a i⟩

theorem control_writes_disciplined_long_timer :
    Mt8192.platform.map.Distinct ∧
    accesses Mt8192.platform (.memory fun _ => 0#32)
        [.control (.setWatchdog true 0xFFFFFFFF#32)] (initial .empty) .empty =
      [[.write Mt8192.map.timerValue 0xFFFFFFFF#32,
        .read Mt8192.map.pcmControl 0#32, .write Mt8192.map.pcmControl 0x0B160000#32,
        .read Mt8192.map.timerValue 0xFFFFFFFF#32, .write Mt8192.map.timerValue 0xFFFD7FFF#32,
        .write Mt8192.map.watchdogValue 0xFFFFFFFF#32,
        .read Mt8192.map.pcmControl 0x0B160000#32,
        .write Mt8192.map.pcmControl 0x0B160010#32]] ∧
    ∀ es ∈ accesses Mt8192.platform (.memory fun _ => 0#32)
        [.control (.setWatchdog true 0xFFFFFFFF#32)] (initial .empty) .empty,
      es ∈ Watchdog.disciplined Mt8192.platform.map :=
  ⟨Mt8192.map_distinct, by decide +kernel,
    (control_writes_disciplined Mt8192.map_distinct _ _ _ _).2.1⟩

end Arbiter

end LowPower

import LowPower.Proofs.Hardware.Frame

/-!
The registers which all cores share, where each gives back what was written to it last. Of the
control registers only the enables are seen.
-/

namespace LowPower

open Bus (Acts Emits Event Hidden SeesOnly)

def Device.RemembersAt (device : Device) (a : Address) : Prop :=
  ∀ h, device h a = Device.memory (device []) h a

namespace Device.RemembersAt

variable {device : Device} {a : Address}

theorem write (remembers : device.RemembersAt a) (b : Address) (x : Word) (h : Bus.History) :
    device (.write b x :: h) a = if b = a then x else device h a := by
  rw [remembers (_ :: h), remembers h, Device.memory, Device.memory, Bus.written?_write]
  split
  · rfl
  · rfl

theorem other (remembers : device.RemembersAt a) {e : Event} (he : ∀ b x, e ≠ .write b x)
    (h : Bus.History) : device (e :: h) a = device h a := by
  rw [remembers (_ :: h), remembers h]
  cases e with
  | write b x => exact absurd rfl (he b x)
  | _ => rfl

theorem write_at {map : Register.Map} (distinct : map.Distinct) {r : Register.Name}
    (remembers : device.RemembersAt (map.at r)) (s : Register.Name) (x : Word) (h : Bus.History) :
    device (.write (map.at s) x :: h) (map.at r) = if s = r then x else device h (map.at r) := by
  rw [remembers.write]
  simp only [distinct.at_eq_iff]

end Device.RemembersAt

@[ext]
structure Hardware where
  crystal : Word
  monitor : Bool
  watchdog : Bool
  powerDown : Word
  request : ResourceSet

namespace Hardware

def ofRegisters (value : Register.Name → Word) : Hardware where
  crystal := value .crystal
  monitor := (value .s1Control).getLsbD 0
  watchdog := (value .pcmControl).getLsbD 4
  powerDown := value .powerDownMailbox
  request := ⟨value .sourceRequest⟩

def seen (map : Register.Map) (device : Device) (h : Bus.History) : Hardware :=
  ofRegisters fun r => device h (map.at r)

def registers : List Register.Name :=
  [.crystal, .s1Control, .pcmControl, .powerDownMailbox, .sourceRequest]

/-- The shared registers are plain memory, each in its own place. -/
structure Memory (map : Register.Map) (device : Device) : Prop where
  distinct : map.Distinct
  remembers : ∀ r ∈ registers, device.RemembersAt (map.at r)

theorem Memory.of_memory {map : Register.Map} (distinct : map.Distinct)
    (initial : Address → Word) : Memory map (.memory initial) :=
  ⟨distinct, fun _ _ _ => rfl⟩

def write (x : Word) (hw : Hardware) : Register.Name → Hardware
  | .crystal => { hw with crystal := x }
  | .s1Control => { hw with monitor := x.getLsbD 0 }
  | .pcmControl => { hw with watchdog := x.getLsbD 4 }
  | .powerDownMailbox => { hw with powerDown := x }
  | .sourceRequest => { hw with request := ⟨x⟩ }
  | _ => hw

variable {map : Register.Map} {device : Device}

theorem Memory.device_write (memory : Memory map device) {r : Register.Name} (hr : r ∈ registers)
    (s : Register.Name) (x : Word) (h : Bus.History) :
    device (.write (map.at s) x :: h) (map.at r) = if s = r then x else device h (map.at r) :=
  (memory.remembers r hr).write_at memory.distinct s x h

theorem Memory.seen_write (memory : Memory map device) (r : Register.Name) (x : Word)
    (h : Bus.History) :
    seen map device (.write (map.at r) x :: h) = (seen map device h).write x r := by
  have hc := memory.device_write (r := .crystal) (by decide) r x h
  have hm := memory.device_write (r := .s1Control) (by decide) r x h
  have hw := memory.device_write (r := .pcmControl) (by decide) r x h
  have hp := memory.device_write (r := .powerDownMailbox) (by decide) r x h
  have hs := memory.device_write (r := .sourceRequest) (by decide) r x h
  simp only [seen, ofRegisters, hc, hm, hw, hp, hs]
  cases r <;> rfl

theorem Memory.hidden (memory : Memory map device) {e : Event} (he : ∀ b x, e ≠ .write b x) :
    Hidden (seen map device) e := by
  intro h
  have hkept : ∀ r ∈ registers, device (e :: h) (map.at r) = device h (map.at r) := fun r hr =>
    (memory.remembers r hr).other he h
  have hc := hkept .crystal (by decide)
  have hm := hkept .s1Control (by decide)
  have hw := hkept .pcmControl (by decide)
  have hp := hkept .powerDownMailbox (by decide)
  have hs := hkept .sourceRequest (by decide)
  simp only [seen, ofRegisters, hc, hm, hw, hp, hs]

namespace Memory

theorem hidden_read (memory : Memory map device) (a : Address) (x : Word) :
    Hidden (seen map device) (.read a x) :=
  memory.hidden fun _ _ => nofun

theorem acts_write (memory : Memory map device) (r : Register.Name) (x : Word) :
    Acts device (seen map device) (Bus.write (map.at r) x) (·.write x r) :=
  .emit fun h => memory.seen_write r x h

theorem seesOnly (memory : Memory map device) : SeesOnly map registers (seen map device) where
  others _ he := memory.hidden he
  unseen r hr x h := by
    rw [memory.seen_write]
    revert hr
    cases r with
    | crystal | s1Control | pcmControl | powerDownMailbox | sourceRequest =>
      exact fun hr => absurd (by decide) hr
    | _ => exact fun _ => rfl

theorem unseen (memory : Memory map device) (r : Register.Name) (hr : r ∉ registers) (x : Word) :
    Acts device (seen map device) (Bus.write (map.at r) x) id :=
  memory.seesOnly.write r hr x

theorem reads (memory : Memory map device) {α : Type} {x : Bus.Action α}
    (hx : Emits Event.IsRead x) : Acts device (seen map device) x id :=
  memory.seesOnly.reads hx

theorem read (memory : Memory map device) (a : Address) :
    Acts device (seen map device) (Bus.read a) id :=
  memory.seesOnly.read a

theorem acts_modify (memory : Memory map device) (r : Register.Name) (f : Word → Word) :
    ∀ j, seen map device ((do Bus.write (map.at r) (f (← Bus.read (map.at r)))) device j).2.events =
      (seen map device j.events).write (f (device j.events (map.at r))) r := by
  intro j
  change seen map device (.write (map.at r) _ :: .read (map.at r) _ :: j.events) = _
  rw [memory.seen_write, memory.hidden_read]

theorem acts_putControl (memory : Memory map device) (bits : Word) (on : Bool) :
    Acts device (seen map device) (Watchdog.putControl map bits on) fun hw =>
      { hw with watchdog := if on then hw.watchdog || bits.getLsbD 4
          else hw.watchdog && !bits.getLsbD 4 } := by
  intro j
  have hkey : Watchdog.key.getLsbD 4 = false := by decide
  have hlower : (0x0000FFFF#32).getLsbD 4 = true := by decide
  refine (memory.acts_modify .pcmControl _ j).trans (congrArg (Hardware.mk _ _ · _ _) ?_)
  rw [BitVec.getLsbD_or, hkey, Bool.false_or]
  cases on with
  | true =>
    change ((_ &&& 0x0000FFFF#32) ||| bits).getLsbD 4 = _
    rw [BitVec.getLsbD_or, BitVec.getLsbD_and, hlower, Bool.and_true]
    rfl
  | false =>
    change ((_ &&& 0x0000FFFF#32) &&& ~~~bits).getLsbD 4 = _
    rw [BitVec.getLsbD_and, BitVec.getLsbD_and, hlower, Bool.and_true, BitVec.getLsbD_not]
    rfl

theorem acts_setMonitor (memory : Memory map device) :
    Acts device (seen map device) (Bus.setBits map.s1Control 1#32) fun hw =>
      { hw with monitor := true } := by
  intro j
  refine (memory.acts_modify .s1Control _ j).trans (congrArg (Hardware.mk _ · _ _ _) ?_)
  change (_ ||| 1#32).getLsbD 0 = true
  rw [BitVec.getLsbD_or]
  exact Bool.or_true _

theorem acts_clearMonitor (memory : Memory map device) :
    Acts device (seen map device) (Bus.clearBits map.s1Control 1#32) fun hw =>
      { hw with monitor := false } := by
  intro j
  refine (memory.acts_modify .s1Control _ j).trans (congrArg (Hardware.mk _ · _ _ _) ?_)
  change (_ &&& ~~~1#32).getLsbD 0 = false
  rw [BitVec.getLsbD_and]
  exact Bool.and_false _

end Memory

end Hardware

end LowPower

import LowPower.Bus
import LowPower.Register.Map

/-!
The timer and the watchdog of the power sequencer. Their control register takes a write only
together with a key. When armed, the watchdog fires a fixed margin after the timer and resets
the system; it never wakes it.
-/

namespace LowPower.Watchdog

def key : Word := 0x0B160000#32

def timerEnable : Word := 0x00000020#32
def watchdogEnable : Word := 0x00000010#32

def watchdogWakes : Word := 0x00000200#32

/-- The time from the timer to the watchdog, in ticks of 32 kHz. -/
def margin : Word := 0x00028000#32

def timerMax : Word := 0xFFFD7FFF#32

def clamp (timer : Word) : Word := if timerMax < timer then timerMax else timer

theorem toNat_clamp (timer : Word) : (clamp timer).toNat = min timer.toNat timerMax.toNat := by
  rw [clamp]
  split
  next h => exact (Nat.min_eq_right (Nat.le_of_lt (BitVec.lt_def.mp h))).symm
  next h => exact (Nat.min_eq_left (BitVec.le_def.mp (BitVec.not_lt.mp h))).symm

def putControl (map : Register.Map) (bits : Word) (on : Bool) : Bus.Action Unit := do
  let lower := (← Bus.read map.pcmControl) &&& 0x0000FFFF#32
  Bus.write map.pcmControl (key ||| if on then lower ||| bits else lower &&& ~~~bits)

def arm (map : Register.Map) : Bus.Action Unit := do
  putControl map watchdogWakes false
  let timer ← Bus.read map.timerValue
  if timerMax < timer then Bus.write map.timerValue timerMax
  Bus.write map.watchdogValue (clamp timer + margin)
  putControl map watchdogEnable true

def disarm (map : Register.Map) : Bus.Action Unit := putControl map watchdogEnable false

def put (map : Register.Map) (on : Bool) : Bus.Action Unit :=
  if on then arm map else disarm map

end LowPower.Watchdog

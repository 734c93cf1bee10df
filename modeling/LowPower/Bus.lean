import LowPower.Notice

/-!
The register bus and the platform behind it. What was done is a history, latest event first. What
a read gives is up to the device, which may look at all that happened before. Plain memory is the
device which gives back what was written last.
-/

namespace LowPower

namespace Bus

inductive Event
  | read (address : Address) (value : Word)
  | write (address : Address) (value : Word)
  | raise (interrupt : Interrupt)
  | prepare
  | finish
deriving DecidableEq

abbrev History := List Event

def written? (a : Address) : History → Option Word
  | [] => none
  | .write b x :: h => if b = a then some x else written? a h
  | _ :: h => written? a h

theorem written?_write (a b : Address) (x : Word) (h : History) :
    written? a (.write b x :: h) = if b = a then some x else written? a h := rfl

end Bus

/-- The answer to a read, given what happened before. -/
abbrev Device := Bus.History → Address → Word

/-- Gives back what was written last, and `initial` before the first write. -/
def Device.memory (initial : Address → Word) : Device := fun h a =>
  (Bus.written? a h).getD (initial a)

structure Journal where
  events : Bus.History
  notices : List Notice

def Journal.empty : Journal := ⟨[], []⟩

namespace Bus

abbrev Action := ReaderT Device (StateM Journal)

def emit (e : Event) : Action Unit := fun _ j => ((), { j with events := e :: j.events })

def note (n : Notice) : Action Unit := fun _ j => ((), { j with notices := n :: j.notices })

def noteAll : List Notice → Action Unit
  | [] => return ()
  | n :: ns => do
    note n
    noteAll ns

def read (a : Address) : Action Word := fun device j =>
  let x := device j.events a
  (x, { j with events := .read a x :: j.events })

def write (a : Address) (x : Word) : Action Unit := emit (.write a x)

def setBits (a : Address) (bits : Word) : Action Unit := do
  write a ((← read a) ||| bits)

def clearBits (a : Address) (bits : Word) : Action Unit := do
  write a ((← read a) &&& ~~~bits)

end Bus

end LowPower

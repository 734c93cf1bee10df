import LowPower.Bus
import LowPower.Clock.Layout
import LowPower.Register.Map

namespace LowPower.Clock

open Bus (Action)

def Mux.parkedIn (m : Mux) (config : Word) : Bool := config.getLsbD (m.byte % 4 * 8 + 7)

def Mux.isParked (m : Mux) : Action Bool := return m.parkedIn (← Bus.read m.register)

def Domain.running (d : Domain) (gate : Word) : Word := if d.activeLow then ~~~gate else gate

def Domain.powered (d : Domain) (status : Word) : Bool := status &&& d.rail != 0#32

def Domain.observe (status : Word) (d : Domain) : Action Word := do
  if d.powered status then
    match d.mux with
    | none => return d.running (← Bus.read d.gate)
    -- Behind a parked mux the gate is not read, and the domain counts as stopped.
    | some m => if ← m.isParked then return 0#32 else return d.running (← Bus.read d.gate)
  else return 0#32

def Probe.observeAll (bits : Word) (i : Nat) : List Probe → ExceptT Fault Action Word
  | [] => return bits
  | p :: ps => do
    let control ← Bus.read p.register
    if control.getLsbD 0 then
      if 32 ≤ i then throw .shiftOverflow
      observeAll (bits ||| BitVec.twoPow 32 i) (i + 1) ps
    else observeAll bits (i + 1) ps

def Domain.observeAll (map : Register.Map) (ds : List Domain) : Action (List Word) := do
  let status ← Bus.read map.powerStatus
  let status2nd ← Bus.read map.powerStatus2nd
  ds.mapM (observe (status ||| status2nd))

/-- What is running now. Domains beyond the capacity of a table are not observed. -/
def Layout.snapshot (map : Register.Map) (l : Layout) : ExceptT Fault Action Table := do
  let words ← Domain.observeAll map (l.domains.take domainCapacity)
  let plls ← Probe.observeAll 0#32 0 l.plls
  let table := Table.ofList words plls
  Bus.note (.snapshot table)
  return table

end LowPower.Clock

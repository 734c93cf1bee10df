import LowPower.Constraint.Cycle

namespace LowPower

structure Ladder where
  constraints : List Constraint
  shape : Clock.Shape
  registered : Bool
deriving DecidableEq

namespace Ladder

def capacity : Nat := 8

def empty : Ladder := ⟨[], ⟨0, 0⟩, false⟩

def length (l : Ladder) : Nat := l.constraints.length

def addAll (l : Ladder) : List Constraint → ExceptT Fault Bus.Action Ladder
  | [] => return l
  | c :: cs => do
    let c := c.init
    Bus.note (.registered c.name l.length)
    if l.length < capacity then addAll { l with constraints := l.constraints ++ [c] } cs
    else throw .tooManyConstraints

def register (constraints : List Constraint) (shape : Clock.Shape) (l : Ladder) :
    ExceptT Fault Bus.Action Ladder := do
  if l.registered then throw .registeredTwice
  addAll { l with shape, registered := true } constraints

def check (live : Clock.Table) (l : Ladder) : Ladder :=
  { l with constraints := l.constraints.map (·.check live) }

/-- Applies a request to each constraint in turn, up to the first failure. -/
def applyAll (shape : Clock.Shape) (request : Constraint.Request) :
    List Constraint → Except Failure Unit × List Constraint
  | [] => (.ok (), [])
  | c :: cs =>
    match c.apply shape request with
    | .error failure => (.error failure, c :: cs)
    | .ok c =>
      let (result, cs) := applyAll shape request cs
      (result, c :: cs)

def apply (target : Target) (request : Constraint.Request) (l : Ladder) :
    Except Failure Unit × Ladder :=
  match target with
  | .all =>
    let (result, constraints) := applyAll l.shape request l.constraints
    (result, { l with constraints })
  | .index i =>
    match l.constraints[i]? with
    | none => (.error (.refused (.unknownConstraint (BitVec.ofNat 32 i))), l)
    | some c =>
      match c.apply l.shape request with
      | .error failure => (.error failure, l)
      | .ok c => (.ok (), { l with constraints := l.constraints.set i c })

def targeted (target : Target) (l : Ladder) : List Constraint :=
  match target with
  | .all => l.constraints
  | .index i => l.constraints[i]?.toList

def update (target : Target) (request : Constraint.Request) (l : Ladder) :
    Bus.Action (Except Failure Unit × Ladder) := do
  Bus.noteAll ((l.targeted target).flatMap (·.notices request))
  return l.apply target request

def accepts (required : ResourceSet) (c : Constraint) : Bool := c.eligible && c.honours required

def select? (start : Nat) (required : ResourceSet) (l : Ladder) : Option Nat :=
  ((l.constraints.drop start).findIdx? (accepts required)).map (start + ·)

def choose (start : Nat) (required : ResourceSet) (kind : Session.Kind) (l : Ladder) :
    Bus.Action (Option Nat) := do
  let choice := l.select? start required
  Bus.note (.selected choice start required kind)
  return choice

def readAll (query : Constraint.Query) (clear : Bool) (reading : Constraint.Reading) :
    List Constraint → Except Fault Constraint.Reading × List Constraint
  | [] => (.ok reading, [])
  | c :: cs =>
    match reading.add c with
    | .error fault => (.error fault, c :: cs)
    | .ok reading =>
      let (result, cs) := readAll query clear reading cs
      (result, (if clear ∧ query = .residency then c.clearResidency else c) :: cs)

def read (target : Target) (query : Constraint.Query) (clear : Bool) (l : Ladder) :
    Except Failure Constraint.Reading × Ladder :=
  match target with
  | .all =>
    let (result, constraints) := readAll query clear (.zero query) l.constraints
    (result.mapError .broken, { l with constraints })
  | .index i =>
    match l.constraints[i]? with
    | none => (.error (.refused (.unknownConstraint (BitVec.ofNat 32 i))), l)
    | some c =>
      let (result, cs) := readAll query clear (.zero query) [c]
      (result.mapError .broken, { l with constraints := l.constraints.set i (cs.headD c) })

def enter (map : Register.Map) (votes : ResourceSet) (i : Nat) (session : Session) (l : Ladder) :
    Sequencer.Action (Ladder × Session) := do
  match l.constraints[i]? with
  | none =>
    Bus.note (.enterUnknown i)
    return (l, session)
  | some c =>
    let session ← c.enter map votes session
    return ({ l with constraints := l.constraints.set i c.countEntry }, session)

def leave (map : Register.Map) (i : Nat) (session : Session) (l : Ladder) :
    ExceptT Fault Sequencer.Action (Ladder × Session) := do
  match l.constraints[i]? with
  | none =>
    Bus.note (.leaveUnknown i)
    return (l, session)
  | some c =>
    let (c, session) ← c.leave map session
    return ({ l with constraints := l.constraints.set i c }, session)

end Ladder

end LowPower

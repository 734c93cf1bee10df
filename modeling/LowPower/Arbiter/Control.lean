import LowPower.Arbiter.Basic

namespace LowPower.Arbiter

def vote (resource : Resource) (requested : Bool) : Action Unit := do
  modify fun a => { a with votes := a.votes.cast resource requested }
  Bus.note (.voted resource ((← get).votes.count resource))

def withdraw (resource : Resource) : Action Unit :=
  modify fun a => { a with votes := a.votes.withdraw resource }

def settle {α : Type} : Except Failure α → Action (Except Refusal α)
  | .ok x => return .ok x
  | .error (.refused refusal) => return .error refusal
  | .error (.broken fault) => throw fault

def notify (target : Target) (request : Constraint.Request) : Action (Except Refusal Unit) := do
  let a ← get
  let (result, ladder) ← a.ladder.update target request
  set { a with ladder }
  settle result

def read (target : Target) (query : Constraint.Query) (clear : Bool) :
    Action (Except Refusal Constraint.Reading) := do
  let a ← get
  let (result, ladder) := a.ladder.read target query clear
  set { a with ladder }
  settle result

def setWatchdog (p : Platform) (enable : Bool) (ticks : Word) : Action Unit := do
  Bus.write p.map.timerValue ticks
  Watchdog.put p.map enable
  modify fun a => { a with watchdog := if enable then some ticks else none }

/-- The mode of the physical PLLs: zero if software controls the first one only, and the register
otherwise. -/
def pllMode (register : Word) : Word64 :=
  if register.getLsbD 14 && !register.getLsbD 15 then 0#64 else register.setWidth 64

def queryStatus : Target → Command.Status
  | .all => .ok
  | .index _ => .stop

def control (p : Platform) (command : Command) : Action Command.Reply := do
  Bus.note (.commanded command)
  match command with
  | .setFlavor flavor =>
    modify fun a => { a with flavor }
    return .ok
  | .setWatchdog enable ticks =>
    setWatchdog p enable ticks
    return .ok
  | .queryPll => return ⟨.ok, pllMode (← Bus.read p.map.pllMode)⟩
  | .update target request =>
    match ← notify target request with
    | .ok () => return .ok
    | .error refusal =>
      Bus.note (.rejected request target refusal)
      return .bad
  | .query target query clear =>
    match ← read target query clear with
    | .ok reading => return ⟨queryStatus target, reading.value⟩
    | .error refusal =>
      Bus.note (.queryFailed target refusal)
      return .bad

end LowPower.Arbiter

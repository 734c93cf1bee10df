import LowPower.Arbiter.Basic

/-!
Entering the deepest constraint that may be entered, and leaving it after the wake. A core which
enters while its session is still open leaves that session first.
-/

namespace LowPower.Arbiter

inductive Depth
  | constraint (index : Nat)
  | baseline
deriving DecidableEq

/-- What a session of the given kind is programmed with. A platform without a timer for suspend
takes that of the watchdog. -/
def power (p : Platform) (a : Arbiter) : Session.Kind → PowerControl
  | .idle => p.idle
  | .suspend =>
    { p.suspend with
      pcm := a.flavor.pcm
      timerTicks :=
        if p.suspend.timerTicks = 0#32 then a.watchdog.getD 0#32 else p.suspend.timerTicks }

def close (p : Platform) (core : Nat) : Action (Option Session) := do
  match (← get).session? core with
  | none => return none
  | some session =>
    -- The session is taken before it is left, so it stays closed where the leave breaks off.
    modify (setSession core none)
    let ladder := (← get).ladder
    let result ← onSequencer (ladder.leave p.map session.constraint session).run
    let (ladder, session) ← liftExcept result
    modify fun a => { a with ladder }
    return some session

def refresh (p : Platform) : Action Unit := do
  let clocks ← liftExcept (← (p.layout.snapshot p.map).run)
  modify fun a => { a with clocks, ladder := a.ladder.check clocks }

def choose (start : Nat) (kind : Session.Kind) : Action (Option Nat) := do
  let a ← get
  if kind = .suspend then Constraint.reportBlocked a.ladder.constraints
  a.ladder.choose start a.votes.required kind

def openSession (p : Platform) (core index : Nat) (kind : Session.Kind) (extra : SessionOptions) :
    Action Unit := do
  let a ← get
  let session := { Session.new core index kind (a.power p kind) with options := extra }
  let (ladder, session) ← onSequencer (a.ladder.enter p.map a.votes.required index session)
  modify fun a => { a with ladder }.setSession core (some session)

def enter (p : Platform) (core start : Nat) (kind : Session.Kind) (extra : SessionOptions) :
    Action Depth := do
  if p.cores ≤ core then
    Bus.note (.invalidEntry kind core)
    return .baseline
  if ((← get).session? core).isSome then
    Bus.note (.unwinding core)
    let _ ← close p core
  refresh p
  match ← choose start kind with
  | none =>
    Bus.note (.noneEligible core kind)
    return .baseline
  | some index =>
    openSession p core index kind extra
    return .constraint index

def idleEnter (p : Platform) (core hint : Nat) : Action Depth := enter p core hint .idle ∅

def suspendEnter (p : Platform) (core : Nat) (extra : SessionOptions) : Action Depth :=
  enter p core 0 .suspend extra

def leave (p : Platform) (core : Nat) : Action Wake.Reason := do
  if p.cores ≤ core then
    Bus.note (.invalidLeave core)
    return .none
  let session ← close p core
  return ((session.bind (·.wake)).map (·.reason)).getD .none

end LowPower.Arbiter

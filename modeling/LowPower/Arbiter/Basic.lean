import LowPower.Platform
import LowPower.Votes

namespace LowPower

structure Arbiter where
  ladder : Ladder
  votes : Votes
  sequencer : Sequencer
  flavor : SuspendFlavor
  /-- The ticks of the timer while the watchdog is armed by a command. -/
  watchdog : Option Word
  clocks : Clock.Table
  sessions : Vector (Option Session) coreCapacity
deriving DecidableEq

namespace Arbiter

abbrev Action := ExceptT Fault (StateT Arbiter Bus.Action)

def session? (a : Arbiter) (core : Nat) : Option Session := a.sessions[core]?.join

def setSession (core : Nat) (session : Option Session) (a : Arbiter) : Arbiter :=
  { a with sessions := a.sessions.setIfInBounds core session }

theorem session?_setSession (a : Arbiter) (core other : Nat) (s : Option Session) :
    (a.setSession core s).session? other =
      if core = other ∧ core < coreCapacity then s else a.session? other := by
  by_cases h : core = other
  · subst h
    by_cases hc : core < coreCapacity <;> simp [session?, setSession, hc]
  · simp [session?, setSession, h]

def validate (p : Platform) : Except Fault Unit :=
  if coreCapacity < p.cores then .error (.tooManyCores p.cores) else p.layout.validate

theorem validate_eq_ok_iff {p : Platform} :
    validate p = .ok () ↔ p.cores ≤ coreCapacity ∧ p.layout.Valid := by
  by_cases h : coreCapacity < p.cores
  · simp [validate, h, Nat.not_le.mpr h]
  · simp [validate, h, Nat.not_lt.mp h, Clock.Layout.validate_eq_ok_iff]

def initial (ladder : Ladder) : Arbiter where
  ladder := ladder
  votes := .none
  sequencer := .new
  flavor := .powerDown
  watchdog := none
  clocks := .empty
  sessions := Vector.replicate coreCapacity none

def start (p : Platform) : ExceptT Fault Bus.Action Arbiter := do
  liftExcept (validate p)
  let ladder ← Ladder.empty.register p.constraints p.layout.shape
  Bus.note (.ready ladder.length)
  return initial ladder

def onSequencer {α : Type} (x : Sequencer.Action α) : Action α := do
  let (result, sequencer) ← x.run (← get).sequencer
  modify fun a => { a with sequencer }
  return result

end Arbiter

end LowPower

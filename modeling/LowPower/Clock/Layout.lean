import LowPower.Clock.Table

namespace LowPower.Clock

/-- A clock mux which, while it is parked, hides a gating register. -/
structure Mux where
  register : Address
  /-- Which byte of the register belongs to the mux, modulo four. -/
  byte : Nat
deriving DecidableEq

structure Domain where
  name : String
  /-- The power status bits of the rail. A domain without power is not read. -/
  rail : Word
  gate : Address
  /-- The gating register reads one for a clock which is gated. -/
  activeLow : Bool
  mux : Option Mux
deriving DecidableEq

structure Probe where
  name : String
  register : Address
deriving DecidableEq

structure Layout where
  domains : List Domain
  plls : List Probe
deriving DecidableEq

namespace Layout

def shape (l : Layout) : Shape := ⟨l.domains.length, l.plls.length⟩

def probeBound : Nat := 30 - Table.pllShift

/-- Every domain has a word and every PLL a bit below the mark of a blocked report. -/
structure Valid (l : Layout) : Prop where
  domains : l.domains.length ≤ domainCapacity
  plls : l.plls.length < probeBound

def validate (l : Layout) : Except Fault Unit :=
  if domainCapacity < l.domains.length then .error (.tooManyDomains l.domains.length)
  else if l.plls.length < probeBound then .ok ()
  else .error (.tooManyProbes l.plls.length)

theorem validate_eq_ok_iff {l : Layout} : l.validate = .ok () ↔ l.Valid := by
  rw [validate]
  split
  next h => exact ⟨nofun, fun v => absurd v.domains (Nat.not_le.mpr h)⟩
  next h =>
    split
    next hp => exact ⟨fun _ => ⟨Nat.not_lt.mp h, hp⟩, fun _ => rfl⟩
    next hp => exact ⟨nofun, fun v => absurd v.plls hp⟩

end Layout

end LowPower.Clock

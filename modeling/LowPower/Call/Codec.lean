import LowPower.Control.Command

namespace LowPower

namespace CallAction

def vocabulary : Vocabulary 64 where
  title := "Action"
  names := [(0, "SET"), (1, "CLR"), (2, "GET")]

end CallAction

abbrev CallAction := Flags CallAction.vocabulary

namespace CallAction

def set : CallAction := .single _ 0
def clear : CallAction := .single _ 1
def get : CallAction := .single _ 2

end CallAction

namespace Call

inductive Subsystem
  | cores
  | diagnostics
  | sequencer
deriving DecidableEq

namespace Subsystem

def code : Subsystem → Nat
  | .cores => 0
  | .diagnostics => 1
  | .sequencer => 2

def ofNat? : Nat → Option Subsystem
  | 0 => some .cores
  | 1 => some .diagnostics
  | 2 => some .sequencer
  | _ => none

end Subsystem

inductive SequencerFunction
  | flavor
  | watchdog
  | pllMode
deriving DecidableEq

namespace SequencerFunction

def code : SequencerFunction → Nat
  | .flavor => 0
  | .watchdog => 1
  | .pllMode => 2

def ofNat? : Nat → Option SequencerFunction
  | 0 => some .flavor
  | 1 => some .watchdog
  | 2 => some .pllMode
  | _ => none

end SequencerFunction

inductive DiagnosticsFunction
  | constraints
deriving DecidableEq

namespace DiagnosticsFunction

def code : DiagnosticsFunction → Nat
  | .constraints => 0

def ofNat? : Nat → Option DiagnosticsFunction
  | 0 => some .constraints
  | _ => none

end DiagnosticsFunction

def magic : Word := 0xDA000000#32

def identifier (user : Subsystem) (function : Word) : Word64 :=
  (magic ||| (BitVec.ofNat 32 user.code &&& 0x000000FF#32) <<< 16 |||
    (function &&& 0x0000FFFF#32)).setWidth 64

structure Arguments where
  id : Word64
  action : Word64
  arg1 : Word64
  arg2 : Word64
deriving DecidableEq

def narrow? (w : Nat) (x : Word64) : Option (BitVec w) :=
  if (x.setWidth w).setWidth 64 = x then some (x.setWidth w) else none

def flavorBit : Nat := 27

def decodeSequencer (function : SequencerFunction) (action : CallAction) (arg : Word64) :
    Option Command :=
  match function with
  | .flavor =>
    if arg.getLsbD flavorBit then
      if action.contains CallAction.set then some (.setFlavor .sleep)
      else if action.contains CallAction.clear then some (.setFlavor .powerDown)
      else none
    else none
  | .watchdog =>
    if action.meets (CallAction.set ∪ CallAction.clear) then
      (narrow? 32 arg).map (.setWatchdog (action.contains CallAction.set))
    else none
  | .pllMode => if action.contains CallAction.get then some .queryPll else none

/-- A call which does not read sets or clears flags, all of which must have names. -/
def decodeDiagnostics (action : CallAction) (target : Target) (arg : Word64) : Option Command :=
  if action.contains CallAction.get then do
    let query ← Constraint.Query.ofCode? (← narrow? 32 arg)
    return .query target query (action.contains CallAction.clear)
  else do
    let flags ← Flags.ofBits? (← narrow? 16 arg)
    if action.contains CallAction.set then return .update target (.setFlags flags)
    else if action.contains CallAction.clear then return .update target (.clearFlags flags)
    else none

def decode (a : Arguments) : Option Command := do
  let id ← narrow? 32 a.id
  -- The other bits of the upper byte are not looked at.
  if id &&& magic = magic then
    let user ← Subsystem.ofNat? (id.extractLsb' 16 8).toNat
    let function := (id.extractLsb' 0 16).toNat
    let action := Flags.truncate a.action
    match user with
    | .cores => none
    | .sequencer => decodeSequencer (← SequencerFunction.ofNat? function) action a.arg2
    | .diagnostics =>
      match ← DiagnosticsFunction.ofNat? function with
      | .constraints => decodeDiagnostics action (.ofWord (← narrow? 32 a.arg1)) a.arg2
  else none

def targetWord : Target → Word64
  | .all => Target.allWord.setWidth 64
  | .index i => BitVec.ofNat 64 i

/-- The call which asks for a command. The requests of which no call can ask have none. -/
def encode : Command → Option Arguments
  | .setFlavor .sleep =>
    some ⟨identifier .sequencer 0#32, CallAction.set.bits, 0#64, BitVec.twoPow 64 flavorBit⟩
  | .setFlavor .powerDown =>
    some ⟨identifier .sequencer 0#32, CallAction.clear.bits, 0#64, BitVec.twoPow 64 flavorBit⟩
  | .setWatchdog enable ticks =>
    let action := if enable then CallAction.set else CallAction.clear
    some ⟨identifier .sequencer 1#32, action.bits, 0#64, ticks.setWidth 64⟩
  | .queryPll => some ⟨identifier .sequencer 2#32, CallAction.get.bits, 0#64, 0#64⟩
  | .query target query clear =>
    let action := if clear then CallAction.get ∪ CallAction.clear else CallAction.get
    some ⟨identifier .diagnostics 0#32, action.bits, targetWord target, query.code.setWidth 64⟩
  | .update target (.setFlags flags) =>
    some ⟨identifier .diagnostics 0#32, CallAction.set.bits, targetWord target,
      flags.bits.setWidth 64⟩
  | .update target (.clearFlags flags) =>
    some ⟨identifier .diagnostics 0#32, CallAction.clear.bits, targetWord target,
      flags.bits.setWidth 64⟩
  | .update _ _ => none

end Call

end LowPower

import LowPower.Word

namespace LowPower.Call

inductive CallType
  | fast32
  | fast64
  | yielding
deriving DecidableEq

namespace CallType

def bits : CallType → Word
  | .fast32 => 0x80000000#32
  | .fast64 => 0xC0000000#32
  | .yielding => 0x00000000#32

end CallType

@[ext]
structure FunctionId where
  raw : Word
deriving DecidableEq

namespace FunctionId

def siliconPartner : Nat := 2

def new (type : CallType) (entity : Nat) (number : BitVec 16) : FunctionId :=
  ⟨type.bits ||| (BitVec.ofNat 32 entity <<< 24 &&& 0x3F000000#32) ||| number.setWidth 32⟩

def entity (f : FunctionId) : Nat := (f.raw.extractLsb' 24 6).toNat

def number (f : FunctionId) : Nat := (f.raw.extractLsb' 0 16).toNat

def type (f : FunctionId) : CallType :=
  if f.raw.getLsbD 31 then if f.raw.getLsbD 30 then .fast64 else .fast32 else .yielding

def isFast (f : FunctionId) : Bool := f.type != .yielding

def hint : Word := 0x00010000#32

def setHint (f : FunctionId) : FunctionId := ⟨f.raw ||| hint⟩

def clearHint (f : FunctionId) : FunctionId := ⟨f.raw &&& ~~~hint⟩

def reserved : Word := 0x00FE0000#32

def valid (f : FunctionId) : Bool := !f.isFast || f.raw &&& reserved == 0#32

def within (entity first last : Nat) (f : FunctionId) : Bool :=
  f.entity == entity && first ≤ f.number && f.number ≤ last && f.isFast

end FunctionId

end LowPower.Call

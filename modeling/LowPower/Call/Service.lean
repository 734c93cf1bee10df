import LowPower.Arbiter.Control
import LowPower.Call.Codec
import LowPower.Call.Routing

namespace LowPower.Call

def controlNumber : BitVec 16 := 0x0515#16

def controlId : FunctionId := .new .fast64 FunctionId.siliconPartner controlNumber

def reply (p : Platform) : List Word64 → Arbiter.Action Command.Reply
  | _ :: id :: action :: arg1 :: arg2 :: _ => do
    match decode ⟨id, action, arg1, arg2⟩ with
    | some command => Arbiter.control p command
    | none =>
      Bus.note (.malformedCall id action)
      return .bad
  | _ => return .bad

def handle (p : Platform) (r : Registers) : Arbiter.Action Registers := do
  let reply ← reply p r.toList
  Bus.note (.replied reply)
  return r.setPair (BitVec.ofInt 64 reply.status.code) reply.value

def service (p : Platform) : Service Arbiter.Action where
  owns := FunctionId.within FunctionId.siliconPartner controlNumber.toNat controlNumber.toNat
  nonSecure := fun r => return (.nonSecure, ← handle p r)
  secure := unsupported .secure

end LowPower.Call

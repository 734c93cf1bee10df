import LowPower.Call.FunctionId
import LowPower.Call.Registers

namespace LowPower.Call

inductive World
  | nonSecure
  | secure
deriving DecidableEq

def World.text : World → String
  | .nonSecure => "NonSecure"
  | .secure => "Secure"

def notSupported : Int := -1

abbrev Handler (m : Type → Type) := Registers → m (World × Registers)

def unsupported {m : Type → Type} [Monad m] (world : World) : Handler m :=
  fun r => return (world, r.setInt notSupported)

structure Service (m : Type → Type) where
  owns : FunctionId → Bool
  nonSecure : Handler m
  secure : Handler m

def Service.handler {m : Type → Type} (s : Service m) : World → Handler m
  | .nonSecure => s.nonSecure
  | .secure => s.secure

/-- The function which is called: the lower half of the first value, without the hint. -/
def function? (r : Registers) : Option FunctionId :=
  r.toList.head?.map fun x => FunctionId.clearHint ⟨x.setWidth 32⟩

def owner? {m : Type → Type} (services : List (Service m)) (r : Registers) :
    Option (Service m) :=
  (function? r).bind fun f => if f.valid then services.find? (·.owns f) else none

def route {m : Type → Type} [Monad m] (services : List (Service m)) (world : World) : Handler m :=
  fun r =>
    match owner? services r with
    | some s => s.handler world r
    | none => unsupported world r

end LowPower.Call

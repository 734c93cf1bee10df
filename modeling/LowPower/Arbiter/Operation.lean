import LowPower.Arbiter.Control
import LowPower.Arbiter.Cycle

namespace LowPower

inductive Operation
  | idleEnter (core hint : Nat)
  | suspendEnter (core : Nat) (extra : SessionOptions)
  | leave (core : Nat)
  | vote (resource : Resource) (requested : Bool)
  | withdraw (resource : Resource)
  | notify (target : Target) (request : Constraint.Request)
  | control (command : Command)
deriving DecidableEq

inductive Answer
  | none
  | depth (depth : Arbiter.Depth)
  | reason (reason : Wake.Reason)
  | updated (refusal : Option Refusal)
  | reply (reply : Command.Reply)
deriving DecidableEq

namespace Operation

def perform (p : Platform) : Operation → Arbiter.Action Answer
  | .idleEnter core hint => .depth <$> Arbiter.idleEnter p core hint
  | .suspendEnter core extra => .depth <$> Arbiter.suspendEnter p core extra
  | .leave core => .reason <$> Arbiter.leave p core
  | .vote resource requested => (fun _ => .none) <$> Arbiter.vote resource requested
  | .withdraw resource => (fun _ => .none) <$> Arbiter.withdraw resource
  | .notify target request => do
    match ← Arbiter.notify target request with
    | .ok () => return .updated .none
    | .error refusal => return .updated (some refusal)
  | .control command => .reply <$> Arbiter.control p command

def step (p : Platform) (device : Device) (op : Operation) (a : Arbiter) (j : Journal) :
    (Except Fault Answer × Arbiter) × Journal :=
  (((op.perform p).run.run a).run device).run j

end Operation

/-- A state and a journal which are reached on a device from a state and a journal, by the given
operations, none of which breaks off. -/
inductive Arbiter.Steps (p : Platform) (device : Device) :
    Arbiter → Journal → List (Operation × Answer) → Arbiter → Journal → Prop
  | refl (a : Arbiter) (j : Journal) : Steps p device a j [] a j
  | step {a b c : Arbiter} {i j k : Journal} {ops : List (Operation × Answer)}
      {op : Operation} {answer : Answer} (head : op.step p device a i = ((.ok answer, b), j))
      (tail : Steps p device b j ops c k) : Steps p device a i ((op, answer) :: ops) c k

def Arbiter.Started (p : Platform) (device : Device) (a : Arbiter) (j : Journal) : Prop :=
  ((start p).run.run device).run .empty = (.ok a, j)

def Arbiter.Reachable (p : Platform) (device : Device) (a : Arbiter) (j : Journal) : Prop :=
  ∃ b i ops, Started p device b i ∧ Steps p device b i ops a j

end LowPower

import LowPower.Call.Service
import LowPower.Proofs.Bus.Attempt
import LowPower.Proofs.Call.Codec

namespace LowPower.Call

open Bus (attempt attempt_bind attempt_liftBus_bind bind_apply)

def failure : Word64 := BitVec.allOnes 64

def Registers.arguments? (r : Registers) : Option Arguments :=
  match r.toList with
  | _ :: id :: action :: arg1 :: arg2 :: _ => some ⟨id, action, arg1, arg2⟩
  | _ => none

def Registers.answer (r : Registers) (reply : Command.Reply) : Registers :=
  r.setPair (BitVec.ofInt 64 reply.status.code) reply.value

def IsControl (r : Registers) : Prop :=
  ∃ f, function? r = some f ∧ f.valid = true ∧
    f.within FunctionId.siliconPartner controlNumber.toNat controlNumber.toNat = true

/-- A call orders a command if it comes from the normal world, through the right function and
with arguments which ask for the command. -/
structure Orders (world : World) (r : Registers) (command : Command) : Prop where
  world : world = .nonSecure
  control : IsControl r
  asks : ∃ a, r.arguments? = some a ∧ Asks a command

theorem head?_setInt (r : Registers) (i : Int) :
    (r.setInt i).toList.head? = some (BitVec.ofInt 64 i) := by
  simp [Registers.setInt, Registers.setValue, Registers.toList,
    List.head?_eq_getElem?]

theorem head?_answer (r : Registers) (reply : Command.Reply) :
    (r.answer reply).toList.head? = some (BitVec.ofInt 64 reply.status.code) := by
  simp [Registers.answer, Registers.setPair, Registers.toList,
    List.head?_eq_getElem?]

variable {p : Platform} {world : World} {r : Registers} {command : Command}

theorem owner?_of_isControl (h : IsControl r) : owner? [service p] r = some (service p) := by
  obtain ⟨f, hf, valid, within⟩ := h
  rw [owner?, hf, Option.bind_some, if_pos valid]
  exact List.find?_cons_of_pos within

theorem owner?_of_not_isControl (h : ¬ IsControl r) : owner? [service p] r = none := by
  rw [owner?]
  cases hf : function? r with
  | none => rfl
  | some f =>
    rw [Option.bind_some]
    split
    next valid =>
      have outside : ¬ f.within _ controlNumber.toNat controlNumber.toNat = true :=
        fun within => h ⟨f, hf, valid, within⟩
      exact List.find?_cons_of_neg outside
    next => rfl

theorem reply_of_asks {a : Arguments} (h : r.arguments? = some a) (asks : Asks a command) :
    reply p r.toList = Arbiter.control p command := by
  unfold Registers.arguments? at h
  split at h
  next hvalues =>
    cases h
    rw [hvalues, reply, decode_eq_some_iff.mpr asks]
  next => cases h

theorem attempt_reply_of_malformed (h : ∀ a, r.arguments? = some a → decode a = none)
    (a : Arbiter) (device : Device) (j : Journal) :
    ∃ notices, attempt (reply p r.toList) a device j =
      ((.ok .bad, a), { j with notices := notices ++ j.notices }) := by
  unfold Registers.arguments? at h
  split at h
  next id action arg1 arg2 _ hvalues =>
    rw [hvalues, reply, h _ rfl]
    exact ⟨[.malformedCall id action], rfl⟩
  next hvalues =>
    unfold reply
    split
    next => exact (hvalues _ _ _ _ _ _ ‹_›).elim
    next => exact ⟨[], rfl⟩

theorem route_of_orders (h : Orders world r command) :
    route [service p] world r = do
      let reply ← Arbiter.control p command
      Bus.note (.replied reply)
      return (.nonSecure, r.answer reply) := by
  obtain ⟨rfl, control, a, ha, asks⟩ := h
  rw [route, owner?_of_isControl control]
  change (do return (World.nonSecure, ← handle p r)) = _
  rw [handle, reply_of_asks ha asks]
  simp
  rfl

theorem attempt_route_of_no_order (h : ∀ command, ¬ Orders world r command) (a : Arbiter)
    (device : Device) (j : Journal) :
    ∃ r' notices, attempt (route [service p] world r) a device j =
      ((.ok (world, r'), a), { j with notices := notices ++ j.notices }) ∧
      r'.toList.head? = some failure := by
  by_cases control : IsControl r
  case neg =>
    rw [route, owner?_of_not_isControl control]
    exact ⟨_, [], rfl, head?_setInt r notSupported⟩
  rw [route, owner?_of_isControl control]
  cases world with
  | secure => exact ⟨_, [], rfl, head?_setInt r notSupported⟩
  | nonSecure =>
    have malformed (x : Arguments) (hx : r.arguments? = some x) : decode x = none := by
      rw [Option.eq_none_iff_forall_not_mem]
      exact fun command hc => h command ⟨rfl, control, x, hx, decode_eq_some_iff.mp hc⟩
    obtain ⟨notices, hreply⟩ := attempt_reply_of_malformed (p := p) malformed a device j
    refine ⟨r.answer .bad, .replied .bad :: notices, ?_, head?_answer r .bad⟩
    change attempt (handle p r >>= fun r => pure (World.nonSecure, r)) a device j = _
    rw [handle, attempt_bind, attempt_bind, bind_assoc, bind_apply, hreply]
    rfl

end LowPower.Call

import LowPower.Proofs.Call.Outcome

namespace LowPower.Call

open Arbiter (Reachable)
open Bus (attempt attempt_bind attempt_map bind_apply map_apply)

/-- The function a call is of: the lower half of its first value without the hint. -/
structure CallOf (r : Registers) (f : FunctionId) : Prop where
  value : ∃ x, r.toList.head? = some x ∧
    ∀ k, f.raw.getLsbD k = (decide (k < 32) && decide (k ≠ 16) && x.getLsbD k)

/-- Who is to handle a call: the first of the services which owns its function, or nobody. -/
inductive Routed {m : Type → Type} (services : List (Service m)) (r : Registers) :
    Option (Service m) → Prop
  | owned {f : FunctionId} {s : Service m} {before after : List (Service m)} (calls : CallOf r f)
      (unreserved : f.raw.getLsbD 31 = true → ∀ k, 17 ≤ k → k ≤ 23 → f.raw.getLsbD k = false)
      (listed : services = before ++ s :: after) (first : ∀ t ∈ before, t.owns f = false)
      (owns : s.owns f = true) : Routed services r (some s)
  | empty (nothing : r.toList = []) : Routed services r none
  | reserved {f : FunctionId} {k : Nat} (calls : CallOf r f) (fast : f.raw.getLsbD 31 = true)
      (lower : 17 ≤ k) (upper : k ≤ 23) (set : f.raw.getLsbD k = true) : Routed services r none
  | unowned {f : FunctionId} (calls : CallOf r f) (foreign : ∀ s ∈ services, s.owns f = false) :
    Routed services r none

namespace FunctionId

variable {f : FunctionId}

theorem isFast_eq (f : FunctionId) : f.isFast = f.raw.getLsbD 31 := by
  rw [isFast, type]
  cases f.raw.getLsbD 31 <;> cases f.raw.getLsbD 30 <;> rfl

theorem getLsbD_reserved {k : Nat} : reserved.getLsbD k = true ↔ 17 ≤ k ∧ k ≤ 23 := by
  by_cases hk : k < 32
  · revert k
    decide
  · rw [BitVec.getLsbD_of_ge _ _ (Nat.not_lt.mp hk)]
    exact ⟨nofun, fun h => absurd (Nat.lt_of_le_of_lt h.2 (by decide)) hk⟩

theorem getLsbD_hint (k : Nat) : hint.getLsbD k = decide (k = 16) := by
  rw [show hint = BitVec.twoPow 32 16 by decide, BitVec.getLsbD_twoPow]
  simp [eq_comm]

theorem valid_iff : f.valid = true ↔
    (f.raw.getLsbD 31 = true → ∀ k, 17 ≤ k → k ≤ 23 → f.raw.getLsbD k = false) := by
  have clear : f.raw &&& reserved = 0#32 ↔
      ∀ k, 17 ≤ k → k ≤ 23 → f.raw.getLsbD k = false := by
    constructor
    · intro h k lower upper
      have := congrArg (BitVec.getLsbD · k) h
      simpa [BitVec.getLsbD_and, getLsbD_reserved.mpr ⟨lower, upper⟩] using this
    · intro h
      apply BitVec.eq_of_getLsbD_eq
      intro k _
      rw [BitVec.getLsbD_and, BitVec.getLsbD_zero]
      cases hk : reserved.getLsbD k with
      | false => exact Bool.and_false _
      | true =>
        obtain ⟨lower, upper⟩ := getLsbD_reserved.mp hk
        rw [h k lower upper, Bool.false_and]
  rw [valid, isFast_eq, ← clear]
  cases f.raw.getLsbD 31 <;> simp

theorem control_iff : f.valid = true ∧
      f.within siliconPartner controlNumber.toNat controlNumber.toNat = true ∧
      f.raw.getLsbD 16 = false ↔
    f.raw = 0x82000515#32 ∨ f.raw = 0xC2000515#32 := by
  constructor
  · rintro ⟨valid, within, unhinted⟩
    simp only [FunctionId.within, Bool.and_eq_true, beq_iff_eq, decide_eq_true_eq] at within
    obtain ⟨⟨⟨entity, first⟩, last⟩, fast⟩ := within
    rw [isFast_eq] at fast
    have number : f.number = controlNumber.toNat := Nat.le_antisymm last first
    have clear : f.raw.extractLsb' 17 7 = 0#7 := by
      apply BitVec.eq_of_getLsbD_eq
      intro k hk
      rw [BitVec.getLsbD_extractLsb', valid_iff.mp valid fast _ (by omega) (by omega),
        Bool.and_false, BitVec.getLsbD_zero]
    -- The fields between which the bits are divided leave only that of the width.
    have fields : f.raw.toNat / 2 ^ 24 % 2 ^ 6 = 2 ∧ f.raw.toNat / 2 ^ 17 % 2 ^ 7 = 0 ∧
        f.raw.toNat / 2 ^ 0 % 2 ^ 16 = 0x515 := by
      have reserved := congrArg BitVec.toNat clear
      simp only [FunctionId.entity, FunctionId.number, BitVec.extractLsb'_toNat,
        Nat.shiftRight_eq_div_pow] at entity number reserved
      exact ⟨entity, reserved, number⟩
    have bits : f.raw.toNat / 2 ^ 31 % 2 = 1 ∧ ¬ f.raw.toNat / 2 ^ 16 % 2 = 1 := by
      rw [BitVec.getLsbD, Nat.testBit_eq_decide_div_mod_eq] at fast unhinted
      exact ⟨of_decide_eq_true fast, of_decide_eq_false unhinted⟩
    have bound := f.raw.isLt
    have value : f.raw.toNat = 0x82000515 ∨ f.raw.toNat = 0xC2000515 := by omega
    exact value.imp (fun h => BitVec.eq_of_toNat_eq h) (fun h => BitVec.eq_of_toNat_eq h)
  · intro h
    obtain ⟨raw⟩ := f
    obtain rfl | rfl : raw = _ ∨ raw = _ := h
    · decide
    · decide

end FunctionId

theorem getLsbD_clearHint (x : Word64) (k : Nat) :
    (FunctionId.clearHint ⟨x.setWidth 32⟩).raw.getLsbD k =
      (decide (k < 32) && decide (k ≠ 16) && x.getLsbD k) := by
  rw [FunctionId.clearHint, BitVec.getLsbD_and, BitVec.getLsbD_setWidth, BitVec.getLsbD_not,
    FunctionId.getLsbD_hint]
  by_cases hk : k < 32 <;> simp [hk, Bool.and_comm]

theorem function?_eq_some_iff {r : Registers} {f : FunctionId} :
    function? r = some f ↔ CallOf r f := by
  rw [function?, Option.map_eq_some_iff]
  constructor
  · rintro ⟨x, hx, rfl⟩
    exact ⟨x, hx, getLsbD_clearHint x⟩
  · rintro ⟨x, hx, h⟩
    refine ⟨x, hx, FunctionId.ext (BitVec.eq_of_getLsbD_eq fun k _ => ?_)⟩
    rw [getLsbD_clearHint, h]

theorem owner?_eq_iff {m : Type → Type} {services : List (Service m)} {r : Registers}
    {o : Option (Service m)} : owner? services r = o ↔ Routed services r o := by
  constructor
  · rintro rfl
    rw [owner?]
    cases hf : function? r with
    | none => exact .empty (List.head?_eq_none_iff.mp (Option.map_eq_none_iff.mp hf))
    | some f =>
      have calls := function?_eq_some_iff.mp hf
      rw [Option.bind_some]
      split
      next valid =>
        cases hs : services.find? (·.owns f) with
        | none =>
          exact .unowned calls fun s h => eq_false_of_ne_true (List.find?_eq_none.mp hs s h)
        | some s =>
          obtain ⟨owns, before, after, listed, first⟩ := List.find?_eq_some_iff_append.mp hs
          exact .owned calls (FunctionId.valid_iff.mp valid) listed
            (fun t ht => by simpa using first t ht) owns
      next invalid =>
        rw [FunctionId.valid_iff, Classical.not_imp] at invalid
        obtain ⟨fast, set⟩ := invalid
        simp only [Classical.not_forall, Bool.not_eq_false] at set
        obtain ⟨k, lower, upper, set⟩ := set
        exact .reserved calls fast lower upper set
  · rintro (⟨calls, unreserved, rfl, first, owns⟩ | nothing | ⟨calls, fast, lower, upper, set⟩ |
      ⟨calls, foreign⟩)
    · rw [owner?, function?_eq_some_iff.mpr calls, Option.bind_some,
        if_pos (FunctionId.valid_iff.mpr unreserved)]
      exact List.find?_eq_some_iff_append.mpr
        ⟨owns, _, _, rfl, fun t ht => by rw [first t ht]; rfl⟩
    · rw [owner?, function?, nothing]
      rfl
    · rw [owner?, function?_eq_some_iff.mpr calls, Option.bind_some, if_neg]
      intro valid
      exact Bool.false_ne_true ((FunctionId.valid_iff.mp valid fast _ lower upper).symm.trans set)
    · rw [owner?, function?_eq_some_iff.mpr calls, Option.bind_some,
        List.find?_eq_none.mpr fun s hs => by rw [foreign s hs]; exact Bool.false_ne_true, ite_self]

def Controls (r : Registers) : Prop :=
  ∃ x, r.toList.head? = some x ∧ (x.setWidth 32 &&& ~~~0x00010000#32 = 0x82000515#32 ∨
    x.setWidth 32 &&& ~~~0x00010000#32 = 0xC2000515#32)

theorem isControl_iff {r : Registers} : IsControl r ↔ Controls r := by
  have unhinted (x : Word64) :
      (FunctionId.clearHint ⟨x.setWidth 32⟩).raw.getLsbD 16 = false := by
    rw [getLsbD_clearHint]
    rfl
  constructor
  · rintro ⟨f, hf, valid, within⟩
    obtain ⟨x, hx, rfl⟩ := Option.map_eq_some_iff.mp hf
    exact ⟨x, hx, FunctionId.control_iff.mp ⟨valid, within, unhinted x⟩⟩
  · rintro ⟨x, hx, h⟩
    obtain ⟨valid, within, -⟩ := FunctionId.control_iff.mpr h
    exact ⟨_, Option.map_eq_some_iff.mpr ⟨x, hx, rfl⟩, valid, within⟩

theorem toList_setInt (r : Registers) (i : Int) : (r.setInt i).toList = [BitVec.ofInt 64 i] := by
  have length : (r.setInt i).toList.length = 1 := Registers.length_toList _
  obtain ⟨x, hx⟩ := List.length_eq_one_iff.mp length
  have := head?_setInt r i
  rw [hx] at this ⊢
  exact congrArg ([·]) (Option.some.inj this)

theorem Registers.getElem?_toList {r : Registers} {i : Nat} (used : i < r.used.val)
    (bound : i < registerCount) : r.toList[i]? = some r.values[i] := by
  rw [toList, List.getElem?_take_of_lt used, List.getElem?_eq_getElem (by simpa using bound)]
  rfl

theorem toList_setPair (r : Registers) (x y : Word64) : (r.setPair x y).toList = [x, y] := by
  apply List.ext_getElem?
  intro i
  match i with
  | 0 =>
    rw [Registers.getElem?_toList (show 0 < 2 by decide) (by decide)]
    simp [Registers.setPair]
  | 1 =>
    rw [Registers.getElem?_toList (show 1 < 2 by decide) (by decide)]
    simp [Registers.setPair]
  | i + 2 =>
    rw [List.getElem?_eq_none (by simp [Registers.setPair])]
    rfl

variable {p : Platform} {world : World} {r r' : Registers}

theorem Registers.toList_eq_cons (h : 5 ≤ r.used.val) : ∃ rest, r.toList =
    r.values[0] :: r.values[1] :: r.values[2] :: r.values[3] :: r.values[4] :: rest := by
  have value (i : Nat) (hi : i < 5) :=
    getElem?_toList (r := r) (Nat.lt_of_lt_of_le hi h) (Nat.lt_trans hi (by decide))
  match r.toList, value 0 (by decide), value 1 (by decide), value 2 (by decide),
    value 3 (by decide), value 4 (by decide) with
  | _ :: _ :: _ :: _ :: _ :: rest, h0, h1, h2, h3, h4 =>
    cases h0
    cases h1
    cases h2
    cases h3
    cases h4
    exact ⟨rest, rfl⟩

theorem route_service (p : Platform) (world : World) (r : Registers) [Decidable (Controls r)] :
    route [service p] world r =
      if world = .nonSecure ∧ Controls r then do return (.nonSecure, ← handle p r)
      else return (world, r.setInt notSupported) := by
  by_cases control : IsControl r
  · rw [route, owner?_of_isControl control]
    cases world with
    | nonSecure => exact (if_pos ⟨rfl, isControl_iff.mp control⟩).symm
    | secure => exact (if_neg fun h => absurd h.1 (by decide)).symm
  · rw [route, owner?_of_not_isControl control, if_neg fun h => control (isControl_iff.mpr h.2)]
    rfl

def seen : World × Registers → World × List Word64
  | (world, r) => (world, r.toList)

theorem seen_handle (p : Platform) (r : Registers) :
    seen <$> (do return (World.nonSecure, ← handle p r)) = do
      let reply ← reply p r.toList
      Bus.note (.replied reply)
      return (World.nonSecure, [BitVec.ofInt 64 reply.status.code, reply.value]) := by
  simp [handle, seen, toList_setPair]

/-- The calls differ neither in the function, the hint aside, nor in the values which are read. -/
structure Registers.Agree (r r' : Registers) : Prop where
  left : 5 ≤ r.used.val
  right : 5 ≤ r'.used.val
  function : ∀ k < 32, k ≠ 16 → r.values[0].getLsbD k = r'.values[0].getLsbD k
  arguments : ∀ i (h : i < 5), 0 < i → r.values[i] = r'.values[i]

theorem Registers.Agree.function?_eq (h : r.Agree r') : function? r = function? r' := by
  obtain ⟨rest, hr⟩ := toList_eq_cons h.left
  obtain ⟨rest', hr'⟩ := toList_eq_cons h.right
  have named : FunctionId.clearHint ⟨r.values[0].setWidth 32⟩ =
      FunctionId.clearHint ⟨r'.values[0].setWidth 32⟩ := by
    apply FunctionId.ext
    apply BitVec.eq_of_getLsbD_eq
    intro k hk
    rw [getLsbD_clearHint, getLsbD_clearHint]
    by_cases hint : k = 16
    · simp [hint]
    · rw [h.function k hk hint]
  rw [function?, function?, hr, hr']
  exact congrArg some named

theorem Registers.Agree.reply_eq (h : r.Agree r') : reply p r.toList = reply p r'.toList := by
  obtain ⟨rest, hr⟩ := toList_eq_cons h.left
  obtain ⟨rest', hr'⟩ := toList_eq_cons h.right
  rw [hr, hr', h.arguments 1 (by decide) (by decide), h.arguments 2 (by decide) (by decide),
    h.arguments 3 (by decide) (by decide), h.arguments 4 (by decide) (by decide)]
  rfl

theorem Registers.Agree.controls_iff (h : r.Agree r') : Controls r ↔ Controls r' := by
  rw [← isControl_iff, ← isControl_iff, IsControl, IsControl, h.function?_eq]

theorem Registers.Agree.seen_route_eq (h : r.Agree r') :
    seen <$> route [service p] world r = seen <$> route [service p] world r' := by
  classical
  rw [route_service, route_service, ← h.controls_iff]
  split
  · rw [seen_handle, seen_handle, h.reply_eq]
  · rw [map_pure, map_pure, seen, seen, toList_setInt, toList_setInt]

theorem exists_routed {m : Type → Type} [Monad m] (services : List (Service m)) (world : World)
    (r : Registers) : ∃ o, (∀ o', Routed services r o' ↔ o' = o) ∧
      route services world r = match o with
        | some s => s.handler world r
        | none => pure (world, r.setInt notSupported) := by
  refine ⟨owner? services r, fun o' => ?_, rfl⟩
  rw [← owner?_eq_iff]
  exact eq_comm

variable {device : Device} {a b : Arbiter} {j k : Journal}

theorem length_of_attempt_route {world' : World} [Decidable (world = .nonSecure ∧ Controls r)]
    (h : attempt (route [service p] world r) a device j = ((.ok (world', r'), b), k)) :
    world' = world ∧ r'.toList.length = if world = .nonSecure ∧ Controls r then 2 else 1 := by
  classical
  have hseen : attempt (seen <$> route [service p] world r) a device j =
      ((.ok (world', r'.toList), b), k) := by
    rw [attempt_map, map_apply, h]
    rfl
  rw [route_service] at hseen
  by_cases handled : world = .nonSecure ∧ Controls r
  · obtain ⟨rfl, controls⟩ := handled
    rw [if_pos ⟨rfl, controls⟩, seen_handle, attempt_bind, bind_apply] at hseen
    rw [if_pos ⟨rfl, controls⟩]
    rcases hreply : attempt (reply p r.toList) a device j with ⟨⟨fault | reply, c⟩, l⟩
    · rw [hreply] at hseen
      cases hseen
    · rw [hreply] at hseen
      have answered := congrArg (·.1.1) hseen
      obtain ⟨hworld, hvalues⟩ := Prod.mk.inj (Except.ok.inj answered)
      exact ⟨hworld.symm, congrArg List.length hvalues.symm⟩
  · rw [if_neg handled, map_pure, seen, toList_setInt] at hseen
    rw [if_neg handled]
    have answered := congrArg (·.1.1) hseen
    obtain ⟨hworld, hvalues⟩ := Prod.mk.inj (Except.ok.inj answered)
    exact ⟨hworld.symm, congrArg List.length hvalues.symm⟩

/-- Of any services, the first is called which owns the function of a call, by the handler of the
world it comes from; the call is not supported if there is none. The service through which commands
are sent answers the calls of its function from the normal world, with two results, and no other
call. Calls which agree in their function and in the values which carry a command do the same, and
their callers see the same. -/
theorem calls_are_routed :
    (∀ {m : Type → Type} [Monad m] (services : List (Service m)) (world : World) (r : Registers),
      ∃ o, (∀ o', Routed services r o' ↔ o' = o) ∧
        route services world r = match o with
          | some s => s.handler world r
          | none => pure (world, r.setInt notSupported)) ∧
    (∀ r : Registers, (r.setInt notSupported).toList = [0xFFFFFFFFFFFFFFFF#64]) ∧
    ∀ p : Platform,
      (∀ (world : World) (r : Registers),
        (world = .nonSecure ∧ Controls r →
          route [service p] world r = do return (.nonSecure, ← handle p r)) ∧
        (¬ (world = .nonSecure ∧ Controls r) →
          route [service p] world r = pure (world, r.setInt notSupported)) ∧
        (∀ (a b : Arbiter) (device : Device) (j k : Journal) (world' : World) (r' : Registers),
          attempt (route [service p] world r) a device j = ((.ok (world', r'), b), k) →
          world' = world ∧ (r'.toList.length = 2 ↔ world = .nonSecure ∧ Controls r)) ∧
        ∀ (device : Device) (a : Arbiter) (i : Journal), Reachable p device a i →
          a.ladder.total .residency < 2 ^ 64 → ∀ (live : Device) (j : Journal),
          ∃ result b k, attempt (route [service p] world r) a live j = ((.ok result, b), k)) ∧
      ∀ (world : World) (r r' : Registers), r.Agree r' → ∀ (a : Arbiter) (device : Device)
        (j : Journal), attempt (seen <$> route [service p] world r) a device j =
          attempt (seen <$> route [service p] world r') a device j := by
  classical
  refine ⟨exists_routed, fun r => toList_setInt r _, fun p => ⟨fun world r => ⟨?_, ?_, ?_, ?_⟩, ?_⟩⟩
  · exact fun handled => (route_service p world r).trans (if_pos handled)
  · exact fun other => (route_service p world r).trans (if_neg other)
  · intro a b device j k world' r' h
    obtain ⟨hworld, hlength⟩ := length_of_attempt_route h
    refine ⟨hworld, ?_⟩
    rw [hlength]
    split <;> simp [*]
  · exact fun device a i reached fits live j =>
      exists_route reached.sized.length fits world r live j
  · exact fun world r r' h a device j => by rw [h.seen_route_eq]

def hintedQuery (target : Word64) : Registers :=
  ((statusQuery target).put 0 0x7C2010515#64).put 5 1#64

theorem calls_are_routed_hinted : ∃ a i result b k,
    Reachable Mt8192.platform (.memory fun _ => 0#32) a i ∧
    attempt (route [service Mt8192.platform] .nonSecure (hintedQuery 0#64)) a
      (.memory fun _ => 0#32) i = ((.ok (.nonSecure, result), b), k) ∧
    result.toList.length = 2 ∧
    attempt (seen <$> route [service Mt8192.platform] .nonSecure (hintedQuery 0#64)) a
        (.memory fun _ => 0#32) i =
      attempt (seen <$> route [service Mt8192.platform] .nonSecure (statusQuery 0#64)) a
        (.memory fun _ => 0#32) i ∧
    route [service Mt8192.platform] .secure (statusQuery 0#64) =
      pure (.secure, (statusQuery 0#64).setInt notSupported) := by
  have slept : (Arbiter.replayAll Mt8192.platform (.memory fun _ => 0#32)
      [.notify .all (.setFlags .firmware), .idleEnter 0 0]).any (fun s =>
        s.2.1.ladder.total .residency < 2 ^ 64) = true := by
    decide +kernel
  obtain ⟨⟨ops, a, i⟩, hrun, fits⟩ := (Option.any_eq_true _ _).mp slept
  have reached := Arbiter.reachable_of_replayAll hrun
  obtain ⟨-, -, hservice⟩ := calls_are_routed
  obtain ⟨hcalls, hagree⟩ := hservice Mt8192.platform
  obtain ⟨-, -, hlength, hanswer⟩ := hcalls .nonSecure (hintedQuery 0#64)
  obtain ⟨⟨world, result⟩, b, k, hroute⟩ :=
    hanswer _ a i reached (of_decide_eq_true fits) (.memory fun _ => 0#32) i
  obtain ⟨rfl, two⟩ := hlength a b _ i k world result hroute
  have controls : Controls (hintedQuery 0#64) := ⟨0x7C2010515#64, by decide, by decide⟩
  have agree : (hintedQuery 0#64).Agree (statusQuery 0#64) :=
    ⟨by decide, by decide, by decide, by decide⟩
  exact ⟨a, i, result, b, k, reached, hroute, two.mpr ⟨rfl, controls⟩,
    hagree .nonSecure _ _ agree a _ i, (hcalls .secure _).2.1 nofun⟩

end LowPower.Call

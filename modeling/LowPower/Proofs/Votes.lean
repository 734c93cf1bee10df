import LowPower.Proofs.Flags
import LowPower.Votes
import Mathlib.Data.List.DropRight
import Mathlib.Order.Bounds.Basic

/-!
What the votes on a resource come to. A count goes up with each request and down with each release
but never below zero, so it is the most by which requests outnumber releases in the calls from some
point on.
-/

namespace LowPower

namespace ResourceSet

theorem contains_toSet {s : ResourceSet} (r : Resource) :
    s.contains r.toSet = true ↔ s.bits.getLsbD r.index = true := by
  have hr : (r.index : Nat) < 32 := Nat.lt_trans r.index.isLt (by decide)
  rw [Flags.contains_eq_true_iff]
  constructor
  · intro h
    apply h
    rw [Resource.toSet, Flags.bits_single, BitVec.getLsbD_twoPow]
    simp [hr]
  · intro h i hi
    rw [Resource.toSet, Flags.bits_single, BitVec.getLsbD_twoPow] at hi
    simp only [Bool.and_eq_true, decide_eq_true_eq] at hi
    exact hi.2 ▸ h

end ResourceSet

theorem Resource.exists_index {i : Nat} (h : i < 7) : ∃ r : Resource, (r.index : Nat) = i := by
  have all : ∀ k : Fin 7, ∃ r ∈ Resource.all, r.index = k := by decide
  obtain ⟨r, -, hr⟩ := all ⟨i, h⟩
  exact ⟨r, congrArg Fin.val hr⟩

theorem Flags.getLsbD_foldr_union {w : Nat} {v : Vocabulary w} (xs : List (Flags v)) (i : Nat) :
    (xs.foldr (· ∪ ·) ∅).bits.getLsbD i = xs.any (·.bits.getLsbD i) := by
  induction xs with
  | nil => exact BitVec.getLsbD_zero
  | cons x xs ih => rw [List.foldr_cons, bits_union, BitVec.getLsbD_or, ih, List.any_cons]

namespace Votes

theorem contains_required {v : Votes} {s : ResourceSet} :
    s.contains v.required = true ↔ ∀ r, v.count r ≠ 0 → s.contains r.toSet = true := by
  rw [Flags.contains_eq_true_iff]
  constructor
  · intro h r hr
    rw [ResourceSet.contains_toSet]
    apply h
    rw [getLsbD_required]
    exact bne_iff_ne.mpr hr
  · intro h i hi
    have hi7 : i < 7 := by
      rw [required, Word.getLsbD_ofBits] at hi
      simp only [Bool.and_eq_true, decide_eq_true_eq] at hi
      omega
    obtain ⟨r, rfl⟩ := Resource.exists_index hi7
    rw [getLsbD_required] at hi
    exact (ResourceSet.contains_toSet r).mp (h r (bne_iff_ne.mp hi))

theorem required_contains_iff (v : Votes) (r : Resource) :
    v.required.contains r.toSet = true ↔ v.count r ≠ 0 := by
  rw [ResourceSet.contains_toSet, getLsbD_required, bne_iff_ne]

theorem getLsbD_requiredOf (v : Votes) (r : Resource) (i : Nat) :
    (v.requiredOf r).bits.getLsbD i = (decide (v.count r ≠ 0) && decide ((r.index : Nat) = i)) := by
  have hr : (r.index : Nat) < 32 := Nat.lt_trans r.index.isLt (by decide)
  by_cases h : v.count r = 0
  · simp [requiredOf, h]
  · simp [requiredOf, h, Resource.toSet, BitVec.getLsbD_twoPow, hr, -BitVec.getLsbD_eq_getElem]

theorem requiredOf_contains_iff (v : Votes) (r : Resource) :
    (v.requiredOf r).contains r.toSet = true ↔ v.count r ≠ 0 := by
  simp [ResourceSet.contains_toSet, getLsbD_requiredOf, -BitVec.getLsbD_eq_getElem]

theorem required_eq_union (v : Votes) :
    v.required = (Resource.all.map v.requiredOf).foldr (· ∪ ·) ∅ := by
  apply Flags.ext
  apply BitVec.eq_of_getLsbD_eq
  intro i _
  rw [Flags.getLsbD_foldr_union, List.any_map, Bool.eq_iff_iff, List.any_eq_true]
  simp only [Function.comp_apply, getLsbD_requiredOf, Bool.and_eq_true, decide_eq_true_eq]
  constructor
  · intro hi
    have hi7 : i < 7 := by
      rw [required, Word.getLsbD_ofBits] at hi
      simp only [Bool.and_eq_true, decide_eq_true_eq] at hi
      omega
    obtain ⟨r, rfl⟩ := Resource.exists_index hi7
    rw [getLsbD_required, bne_iff_ne] at hi
    exact ⟨r, Resource.mem_all r, hi, rfl⟩
  · rintro ⟨r, -, hr, rfl⟩
    rw [getLsbD_required, bne_iff_ne]
    exact hr

theorem ext_count {v w : Votes} (h : ∀ r, v.count r = w.count r) : v = w := by
  obtain ⟨counts⟩ := v
  obtain ⟨counts'⟩ := w
  congr
  refine Vector.ext fun i hi => ?_
  obtain ⟨r, rfl⟩ := Resource.exists_index hi
  exact h r

inductive Ballot
  | cast (resource : Resource) (requested : Bool)
  | withdraw (resource : Resource)
deriving DecidableEq

namespace Ballot

def resource : Ballot → Resource
  | cast resource _ | withdraw resource => resource

def requested? : Ballot → Option Bool
  | cast _ requested => some requested
  | withdraw _ => .none

def apply (v : Votes) : Ballot → Votes
  | cast resource requested => v.cast resource requested
  | withdraw resource => v.withdraw resource

end Ballot

variable {bs cs : List Ballot} {r : Resource}

def tally (bs : List Ballot) : Votes := bs.foldl Ballot.apply none

/-- The requests and releases of a resource since it was last withdrawn. -/
def pending (r : Resource) (bs : List Ballot) : List Bool :=
  ((bs.filter (·.resource = r)).rtakeWhile (·.requested?.isSome)).filterMap (·.requested?)

def surplus (calls : List Bool) : Int := calls.count true - calls.count false

theorem tally_concat (bs : List Ballot) (b : Ballot) : tally (bs ++ [b]) = b.apply (tally bs) :=
  List.foldl_append

theorem count_apply (v : Votes) (b : Ballot) (r : Resource) :
    (b.apply v).count r =
      if b.resource = r then
        match b.requested? with
        | some requested => if requested then min (v.count r + 1) limit else v.count r - 1
        | .none => 0
      else v.count r := by
  cases b with
  | cast s requested =>
    rw [Ballot.apply, count_cast]
    by_cases h : s = r
    · subst h
      rfl
    · simp [h, Ballot.resource]
  | withdraw s => exact count_withdraw v s r

theorem pending_concat (r : Resource) (bs : List Ballot) (b : Ballot) :
    pending r (bs ++ [b]) =
      if b.resource = r then
        match b.requested? with
        | some requested => pending r bs ++ [requested]
        | .none => []
      else pending r bs := by
  rw [pending, List.filter_append, List.filter_singleton]
  by_cases h : b.resource = r
  · rw [if_pos h, decide_eq_true h, cond_true, List.rtakeWhile_concat]
    cases hb : b.requested? with
    | none => rfl
    | some requested => simp [pending, hb]
  · rw [if_neg h, decide_eq_false h, cond_false, List.append_nil, pending]

theorem count_tally_filter (bs : List Ballot) (r : Resource) :
    (tally (bs.filter (·.resource = r))).count r = (tally bs).count r := by
  induction bs using List.reverseRecOn with
  | nil => rfl
  | append_singleton bs b ih =>
    rw [List.filter_append, List.filter_singleton, tally_concat, count_apply]
    by_cases h : b.resource = r
    · rw [decide_eq_true h, cond_true, tally_concat, count_apply, ih]
    · rw [decide_eq_false h, cond_false, List.append_nil, if_neg h, ih]

theorem tally_eq_of_filter_eq
    (h : ∀ r, bs.filter (·.resource = r) = cs.filter (·.resource = r)) : tally bs = tally cs := by
  refine ext_count fun r => ?_
  rw [← count_tally_filter, h r, count_tally_filter]

theorem surplus_concat (calls : List Bool) (requested : Bool) :
    surplus (calls ++ [requested]) = surplus calls + if requested then 1 else -1 := by
  cases requested with
  | true => simp [surplus]; omega
  | false => simp [surplus]; omega

theorem surplus_le_count (calls : List Bool) : surplus calls ≤ calls.count true := by
  rw [surplus]
  omega

/-- The most by which requests outnumber releases from some point on, or from the very end. -/
def IsBest (calls : List Bool) (c : Nat) : Prop :=
  IsGreatest (surplus '' {s | s <:+ calls}) (c : Int)

namespace IsBest

variable {calls : List Bool} {c : Nat}

theorem nil : IsBest [] 0 := by
  constructor
  · exact ⟨[], List.suffix_refl [], rfl⟩
  · rintro _ ⟨s, hs, rfl⟩
    rw [List.suffix_nil.mp hs]
    rfl

theorem concat (h : IsBest calls c) (requested : Bool) :
    IsBest (calls ++ [requested]) (if requested then c + 1 else c - 1) := by
  obtain ⟨⟨s, hs, best⟩, most⟩ := h
  -- Every suffix goes on with the new call but the empty one, whose surplus stays zero.
  have extended : surplus (s ++ [requested]) ∈ surplus '' {s | s <:+ calls ++ [requested]} :=
    ⟨_, List.suffix_concat_iff.mpr (.inr ⟨s, rfl, hs⟩), rfl⟩
  constructor
  · cases requested with
    | true =>
      rw [surplus_concat, best] at extended
      exact extended
    | false =>
      rcases Nat.eq_zero_or_pos c with rfl | pos
      · exact ⟨[], List.nil_suffix, rfl⟩
      · rw [surplus_concat, best, if_neg Bool.false_ne_true, ← Int.sub_eq_add_neg] at extended
        rwa [if_neg Bool.false_ne_true, show ((c - 1 : Nat) : Int) = c - 1 by omega]
  · rintro _ ⟨t, ht, rfl⟩
    rcases List.suffix_concat_iff.mp ht with rfl | ⟨u, rfl, hu⟩
    · exact Int.natCast_nonneg _
    · have := most ⟨u, hu, rfl⟩
      rw [surplus_concat]
      cases requested with
      | true => simpa using this
      | false =>
        simp only [Bool.false_eq_true, if_false]
        omega

theorem le_count (h : IsBest calls c) : c ≤ calls.count true := by
  obtain ⟨s, hs, hbest⟩ := h.1
  have := surplus_le_count s
  have := hs.sublist.count_le true
  omega

theorem pos_iff (h : IsBest calls c) : c ≠ 0 ↔ ∃ s, s <:+ calls ∧ 0 < surplus s := by
  constructor
  · intro hc
    obtain ⟨s, hs, hbest⟩ := h.1
    exact ⟨s, hs, by omega⟩
  · rintro ⟨s, hs, hpos⟩
    have := h.2 ⟨s, hs, rfl⟩
    omega

end IsBest

theorem isBest_count (moderate : (pending r bs).count true ≤ limit) :
    IsBest (pending r bs) ((tally bs).count r) := by
  induction bs using List.reverseRecOn with
  | nil =>
    rw [show tally [] = none from rfl, count_none]
    exact .nil
  | append_singleton bs b ih =>
    rw [pending_concat] at moderate ⊢
    rw [tally_concat, count_apply]
    split at moderate
    case isFalse other =>
      rw [if_neg other, if_neg other]
      exact ih moderate
    case isTrue same =>
      rw [if_pos same, if_pos same]
      -- A ballot which neither requests nor releases withdraws, and the count starts anew.
      cases hb : b.requested? with
      | none => exact .nil
      | some requested =>
        simp only [hb] at moderate ⊢
        cases requested with
        | true =>
          rw [List.count_append, List.count_singleton_self] at moderate
          have best := ih (Nat.le_of_succ_le moderate)
          have := best.le_count
          rw [if_pos rfl, Nat.min_eq_left (by omega)]
          exact best.concat true
        | false =>
          rw [List.count_append] at moderate
          exact (ih (Nat.le_of_add_right_le moderate)).concat false

/-- Votes are tracked exactly as long as no resource is requested beyond the limit. Each resource
is counted by the most by which requests outnumber releases from some point on since it was last
withdrawn, and it is required while there is such a point. Only the calls on a resource matter for
it, in whatever order the others come, and a release without a request changes nothing. -/
theorem tracked_exactly (bs : List Ballot) :
    (∀ r, (pending r bs).count true ≤ limit →
      IsGreatest (surplus '' {s | s <:+ pending r bs}) ((tally bs).count r : Int) ∧
      ((tally bs).required.contains r.toSet = true ↔ ∃ s, s <:+ pending r bs ∧ 0 < surplus s) ∧
      (((tally bs).requiredOf r).contains r.toSet = true ↔
        ∃ s, s <:+ pending r bs ∧ 0 < surplus s)) ∧
    (tally bs).required = (Resource.all.map (tally bs).requiredOf).foldr (· ∪ ·) ∅ ∧
    (∀ r, (tally (bs.filter (·.resource = r))).count r = (tally bs).count r) ∧
    (∀ cs, (∀ r, cs.filter (·.resource = r) = bs.filter (·.resource = r)) →
      tally cs = tally bs) ∧
    ∀ r, (tally (bs ++ [.cast r true])).required.contains r.toSet = true ∧
      ((tally bs).count r = 0 → tally (bs ++ [.cast r false]) = tally bs) := by
  refine ⟨fun r moderate => ?_, required_eq_union _, count_tally_filter bs, fun cs same => ?_,
    fun r => ⟨?_, fun uncounted => ?_⟩⟩
  · have best := isBest_count moderate
    refine ⟨best, ?_, ?_⟩
    · rw [required_contains_iff, best.pos_iff]
    · rw [requiredOf_contains_iff, best.pos_iff]
  · exact tally_eq_of_filter_eq same
  · rw [required_contains_iff, tally_concat, Ballot.apply, count_cast, if_pos rfl, if_pos rfl]
    have := Nat.le_min.mpr ⟨Nat.le_add_left 1 ((tally bs).count r), show 1 ≤ limit by decide⟩
    omega
  · refine ext_count fun s => ?_
    rw [tally_concat, Ballot.apply, count_cast, if_neg Bool.false_ne_true, uncounted]
    split
    · next same => exact same ▸ uncounted.symm
    · rfl

theorem tracked_exactly_surplus_releases : ∃ bs : List Ballot,
    pending .emi bs = [false, false, true, true, false] ∧ (tally bs).count .emi = 1 ∧
    IsGreatest (surplus '' {s | s <:+ pending .emi bs}) ((tally bs).count .emi : Int) ∧
    (tally bs).required.contains Resource.emi.toSet = true := by
  obtain ⟨tracked, -⟩ := tracked_exactly [.cast .emi false, .cast .emi false, .cast .infra true,
    .cast .emi true, .withdraw .infra, .cast .emi true, .cast .emi false]
  obtain ⟨best, required, -⟩ := tracked .emi (by decide)
  exact ⟨_, by decide, by decide, best, required.mpr ⟨[true, true, false], by decide, by decide⟩⟩

end Votes

end LowPower

import LowPower.Wake.History
import Mathlib.Data.BitVec

namespace LowPower.Wake

namespace Ring

variable {α : Type} {n : Nat} {xs : List α} {r : Ring α n}

def pushAll (xs : List α) (r : Ring α n) : Ring α n := xs.foldl (fun r x => r.push x) r

structure Filled (xs : List α) (r : Ring α n) : Prop where
  written : r.written = BitVec.ofNat 32 xs.length
  cursor : r.cursor.toNat = xs.length % n
  slots : ∀ i (h : i < n), i < xs.length → r.slots[i] ∈ xs

theorem filled_new (n : Nat) (filler : α) : Filled [] (new n filler) :=
  ⟨rfl, (Nat.zero_mod n).symm, fun _ _ h => absurd h (Nat.not_lt_zero _)⟩

theorem Filled.push (h : Filled xs r) (pos : 0 < n) (hn : n < 2 ^ 32) (x : α) :
    Filled (xs ++ [x]) (r.push x) := by
  have hlength : (xs ++ [x]).length = xs.length + 1 := by simp
  have hslot : r.cursor.toNat % n = xs.length % n := by rw [h.cursor, Nat.mod_mod]
  constructor
  · rw [written_push, h.written, hlength, BitVec.ofNat_add]
  · change (BitVec.ofNat 32 _).toNat = _
    rw [hslot, hlength, BitVec.toNat_ofNat, Nat.mod_add_mod,
      Nat.mod_eq_of_lt ((Nat.mod_lt _ pos).trans hn)]
  · intro i hi hlt
    change (r.slots.setIfInBounds (r.cursor.toNat % n) x)[i] ∈ _
    rw [Vector.getElem_setIfInBounds, hslot]
    split
    · exact List.mem_append_right _ (List.mem_singleton_self x)
    · next hne =>
      -- Only the slot of the new element could be filled without having been filled before.
      have hbefore : i ≠ xs.length := fun heq => hne (by rw [← heq, Nat.mod_eq_of_lt hi])
      exact List.mem_append_left _ (h.slots i hi (by omega))

theorem Filled.pushAll (h : Filled xs r) (pos : 0 < n) (hn : n < 2 ^ 32) (ys : List α) :
    Filled (xs ++ ys) (r.pushAll ys) := by
  induction ys generalizing xs r with
  | nil => rwa [List.append_nil]
  | cons y ys ih => simpa [Ring.pushAll] using ih (h.push pos hn y)

theorem Filled.mem_of_mem_held (h : Filled xs r) {x : α} (hx : x ∈ r.held) : x ∈ xs := by
  obtain ⟨⟨i, hi⟩, rfl⟩ := List.mem_ofFn.mp hx
  have hsize : r.size ≤ r.written.toNat := Nat.min_le_left _ _
  have hn : r.size ≤ n := Nat.min_le_right _ _
  have hwritten : r.written.toNat ≤ xs.length := by
    rw [h.written, BitVec.toNat_ofNat]
    exact Nat.mod_le _ _
  refine h.slots _ (Nat.mod_lt _ (by omega)) ?_
  rw [start]
  split
  · rw [Nat.zero_add, Nat.mod_eq_of_lt (by omega)]
    omega
  · exact (Nat.mod_lt _ (by omega)).trans_le (by omega)

end Ring

namespace History

def slots : Category → Nat
  | .lowPower => 5
  | .suspend => 1

def ring (h : History) : (category : Category) → Ring Record (slots category)
  | .lowPower => h.lowPower
  | .suspend => h.suspend

theorem ring_record (category other : Category) (r : Record) (h : History) :
    (h.record category r).ring other =
      if category = other then (h.ring other).push r else h.ring other := by
  cases category <;> cases other <;> rfl

theorem filled_empty (category : Category) : Ring.Filled [] (empty.ring category) := by
  cases category with
  | lowPower => exact Ring.filled_new 5 Record.zero
  | suspend => exact Ring.filled_new 1 Record.zero

end History

end LowPower.Wake

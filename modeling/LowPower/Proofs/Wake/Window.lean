import LowPower.Proofs.Wake.Ring
import Mathlib.Data.List.DropRight

namespace LowPower.Wake.Ring

variable {α : Type} {n : Nat} {xs : List α} {r : Ring α n}

@[simp] theorem pushAll_nil (r : Ring α n) : r.pushAll [] = r := rfl

theorem pushAll_append (xs ys : List α) (r : Ring α n) :
    r.pushAll (xs ++ ys) = (r.pushAll xs).pushAll ys :=
  List.foldl_append

theorem pushAll_concat (xs : List α) (x : α) (r : Ring α n) :
    r.pushAll (xs ++ [x]) = (r.pushAll xs).push x :=
  pushAll_append xs [x] r

theorem written_pushAll (xs : List α) (r : Ring α n) :
    (r.pushAll xs).written = r.written + BitVec.ofNat 32 xs.length := by
  induction xs using List.reverseRecOn with
  | nil => simp
  | append_singleton xs x ih =>
    rw [pushAll_concat, written_push, ih, List.length_append, List.length_singleton,
      BitVec.ofNat_add, BitVec.add_assoc]

theorem toNat_cursor_push (pos : 0 < n) (fits : n < 2 ^ 32) (x : α) (r : Ring α n) :
    (r.push x).cursor.toNat = (r.cursor.toNat + 1) % n := by
  change (BitVec.ofNat 32 _).toNat = _
  rw [BitVec.toNat_ofNat, Nat.mod_add_mod, Nat.mod_eq_of_lt ((Nat.mod_lt _ pos).trans fits)]

theorem cursor_pushAll_modEq (pos : 0 < n) (fits : n < 2 ^ 32) (xs : List α) (r : Ring α n) :
    (r.pushAll xs).cursor.toNat ≡ r.cursor.toNat + xs.length [MOD n] := by
  induction xs using List.reverseRecOn with
  | nil => rfl
  | append_singleton xs x ih =>
    rw [pushAll_concat, toNat_cursor_push pos fits, List.length_append, List.length_singleton,
      ← Nat.add_assoc]
    exact (Nat.mod_modEq _ _).trans (ih.add_right 1)

theorem cursor_lt_pushAll (pos : 0 < n) (fits : n < 2 ^ 32) (ne : xs ≠ []) (r : Ring α n) :
    (r.pushAll xs).cursor.toNat < n := by
  rw [← List.dropLast_append_getLast ne, pushAll_concat, toNat_cursor_push pos fits]
  exact Nat.mod_lt _ pos

def behind (r : Ring α n) (k : Nat) : Nat := (r.cursor.toNat + (n - 1 - k)) % n

theorem behind_push_zero (pos : 0 < n) (fits : n < 2 ^ 32) (x : α) (r : Ring α n) :
    (r.push x).behind 0 = r.cursor.toNat % n := by
  rw [behind, toNat_cursor_push pos fits, Nat.mod_add_mod, Nat.add_assoc,
    show 1 + (n - 1 - 0) = n by omega, Nat.add_mod_right]

theorem behind_push_succ (pos : 0 < n) (fits : n < 2 ^ 32) (x : α) (r : Ring α n) {k : Nat}
    (hk : k + 1 < n) : (r.push x).behind (k + 1) = r.behind k := by
  rw [behind, toNat_cursor_push pos fits, Nat.mod_add_mod, Nat.add_assoc,
    show 1 + (n - 1 - (k + 1)) = n - 1 - k by omega, behind]

theorem behind_ne_slot {k : Nat} (hk : k + 1 < n) (r : Ring α n) :
    r.behind k ≠ r.cursor.toNat % n := by
  intro h
  have apart : n - 1 - k ≡ 0 [MOD n] := Nat.ModEq.add_left_cancel' r.cursor.toNat h
  rw [Nat.ModEq, Nat.zero_mod, Nat.mod_eq_of_lt (by omega)] at apart
  omega

def Recalls (xs : List α) (r : Ring α n) : Prop :=
  ∀ k, k < n → k < xs.length → r.slots[r.behind k]? = xs.reverse[k]?

theorem recalls_nil (r : Ring α n) : Recalls [] r := fun _ _ h => absurd h (Nat.not_lt_zero _)

theorem Recalls.push (h : Recalls xs r) (pos : 0 < n) (fits : n < 2 ^ 32) (x : α) :
    Recalls (xs ++ [x]) (r.push x) := by
  intro k hk hlt
  rw [List.reverse_append, List.reverse_singleton, List.singleton_append]
  cases k with
  | zero =>
    rw [behind_push_zero pos fits, getElem?_slots_push pos]
    rfl
  | succ k =>
    rw [behind_push_succ pos fits x r hk, List.getElem?_cons_succ,
      ← h k (Nat.lt_of_succ_lt hk) (by simpa using hlt)]
    exact Vector.getElem?_setIfInBounds_ne (Ne.symm (behind_ne_slot hk r))

theorem recalls_pushAll (pos : 0 < n) (fits : n < 2 ^ 32) (xs : List α) (r : Ring α n) :
    Recalls xs (r.pushAll xs) := by
  induction xs using List.reverseRecOn with
  | nil => exact recalls_nil r
  | append_singleton xs x ih =>
    rw [pushAll_concat]
    exact ih.push pos fits x

def Aligned (r : Ring α n) : Prop := r.start + r.size ≡ r.cursor.toNat [MOD n]

theorem aligned_of_full (h : n ≤ r.written.toNat) : Aligned r := by
  have full : r.size = n := Nat.min_eq_right h
  rw [Aligned, start, full, if_neg (Nat.lt_irrefl n)]
  exact Nat.add_modEq_right

theorem aligned_of_unfilled (h : r.written.toNat < n)
    (counted : r.cursor.toNat ≡ r.written.toNat [MOD n]) : Aligned r := by
  have partly : r.size = r.written.toNat := Nat.min_eq_left h.le
  rw [Aligned, start, partly, if_pos h, Nat.zero_add]
  exact counted.symm

theorem slot_of_aligned (h : Aligned r) {i : Nat} (hi : i < r.size) :
    (r.start + i) % n = r.behind (r.size - 1 - i) := by
  have le : r.size ≤ n := Nat.min_le_right _ _
  have shifted : r.cursor.toNat + (n - 1 - (r.size - 1 - i)) ≡ r.start + i + n [MOD n] := by
    rw [show r.start + i + n = r.start + r.size + (n - 1 - (r.size - 1 - i)) by omega]
    exact h.symm.add_right _
  exact (shifted.trans Nat.add_modEq_right).symm

theorem Recalls.held_eq (h : Recalls xs r) (aligned : Aligned r) (le : r.size ≤ xs.length) :
    r.held = xs.rtake r.size := by
  have bound : r.size ≤ n := Nat.min_le_right _ _
  refine List.ext_getElem? fun i => ?_
  by_cases hi : i < r.size
  · rw [List.rtake_eq_reverse_take_reverse, List.getElem?_reverse (by simpa using by omega),
      List.length_take, List.length_reverse, Nat.min_eq_left le,
      List.getElem?_take_of_lt (by omega), ← h _ (by omega) (by omega), ← slot_of_aligned aligned hi]
    simp [held, hi, Vector.get]
  · rw [List.getElem?_eq_none (by simpa using hi), List.getElem?_eq_none]
    simp [List.rtake]
    omega

theorem last?_eq_of_recalls (h : Recalls xs r) (pos : 0 < n) (ne : xs ≠ []) :
    r.last? = .ok (if r.written = 0#32 then none else some (xs.getLast ne)) := by
  rw [last?_eq_latest? pos, latest?]
  split
  · rfl
  · have latest := h 0 pos (List.length_pos_iff.mpr ne)
    rw [behind, Nat.sub_zero, ← Nat.add_sub_assoc pos] at latest
    rw [latest, ← List.head?_eq_getElem?, List.head?_reverse, List.getLast?_eq_some_getLast ne]

def Stores (x : α) (r s : Ring α n) : Prop :=
  r.push? x = .ok s ∧ s.slots[r.cursor.toNat % n]? = some x

theorem stores_push (pos : 0 < n) (x : α) (r : Ring α n) : Stores x r (r.push x) :=
  ⟨push?_eq_push pos x r, getElem?_slots_push pos x r⟩

/-- Until the count starts over, all elements which are pushed are stored and counted. Whatever the
ring was before, as many as it has slots displace all that it held, and it holds the last ones of
them, oldest first. A new ring holds the last ones from the beginning. -/
theorem keeps_latest (pos : 0 < n) (fits : n < 2 ^ 32) (r : Ring α n) (xs : List α)
    (room : r.written.toNat + xs.length < 2 ^ 32) :
    (∀ ys x zs, xs = ys ++ x :: zs → Stores x (r.pushAll ys) (r.pushAll (ys ++ [x]))) ∧
    (r.pushAll xs).written.toNat = r.written.toNat + xs.length ∧
    (∀ ne : xs ≠ [], (r.pushAll xs).cursor.toNat = (r.cursor.toNat % n + xs.length) % n ∧
      (r.pushAll xs).last? = .ok (some (xs.getLast ne))) ∧
    (n ≤ xs.length → (r.pushAll xs).held = xs.rtake n) ∧
    ∀ filler, r = new n filler → (r.pushAll xs).held = xs.rtake n := by
  have recalls := recalls_pushAll pos fits xs r
  have counted : (r.pushAll xs).written.toNat = r.written.toNat + xs.length := by
    rw [written_pushAll, BitVec.toNat_add, BitVec.toNat_ofNat, Nat.add_mod_mod,
      Nat.mod_eq_of_lt room]
  have full (le : n ≤ xs.length) : (r.pushAll xs).held = xs.rtake n := by
    have filled : n ≤ (r.pushAll xs).written.toNat := by omega
    have size : (r.pushAll xs).size = n := Nat.min_eq_right filled
    rw [recalls.held_eq (aligned_of_full filled) (size.symm ▸ le), size]
  refine ⟨?_, counted, ?_, full, ?_⟩
  · rintro ys x zs -
    rw [pushAll_concat]
    exact stores_push pos x _
  · intro ne
    constructor
    · rw [Nat.mod_add_mod, ← Nat.mod_eq_of_lt (cursor_lt_pushAll pos fits ne r)]
      exact cursor_pushAll_modEq pos fits xs r
    · have some_written : (r.pushAll xs).written ≠ 0#32 := by
        have := List.length_pos_iff.mpr ne
        rw [BitVec.toNat_ne]
        exact ne_of_gt (by rw [counted, BitVec.toNat_zero]; omega)
      rw [last?_eq_of_recalls recalls pos ne, if_neg some_written]
  · rintro filler rfl
    -- A new ring starts at its first slot, so what it holds is aligned also until it is full.
    rcases Nat.lt_or_ge xs.length n with lt | le
    · have written : ((new n filler).pushAll xs).written.toNat = xs.length := by
        rw [counted, new, BitVec.toNat_zero, Nat.zero_add]
      have cursor := cursor_pushAll_modEq pos fits xs (new n filler)
      rw [new, BitVec.toNat_zero, Nat.zero_add, ← new, ← written] at cursor
      have size : ((new n filler).pushAll xs).size = xs.length := by
        rw [size, written, Nat.min_eq_left lt.le]
      have aligned := aligned_of_unfilled (written.symm ▸ lt) cursor
      rw [recalls.held_eq aligned size.le, size, List.rtake, List.rtake, Nat.sub_self,
        Nat.sub_eq_zero_of_le lt.le]
    · exact full le

theorem keeps_latest_stray_cursor : ∃ r : Ring Nat 3, r.cursor.toNat = 7 ∧
    r.written.toNat + [1, 2, 3, 4].length < 2 ^ 32 ∧
    (r.pushAll [1, 2, 3, 4]).cursor.toNat = 2 ∧ (r.pushAll [1, 2, 3, 4]).last? = .ok (some 4) ∧
    (r.pushAll [1, 2, 3, 4]).held = [2, 3, 4] := by
  obtain ⟨-, -, ends, full, -⟩ := keeps_latest (n := 3) (by decide) (by decide)
    ⟨7#32, 5#32, #v[10, 11, 12]⟩ [1, 2, 3, 4] (by decide)
  obtain ⟨cursor, last⟩ := ends (by decide)
  exact ⟨_, rfl, by decide, cursor, last, full (by decide)⟩

theorem last?_eq_none_iff (pos : 0 < n) : r.last? = .ok none ↔ r.written = 0#32 := by
  rw [last?_eq_latest? pos, latest?]
  split
  · next unwritten => simp [unwritten]
  · next some_written => simp [some_written, Nat.mod_lt _ pos]

theorem held_eq_nil_iff (pos : 0 < n) : r.held = [] ↔ r.written = 0#32 := by
  rw [← List.length_eq_zero_iff, length_held, size, BitVec.toNat_eq, BitVec.toNat_zero]
  omega

theorem written_pushAll_eq_zero_iff (xs : List α) (r : Ring α n) :
    (r.pushAll xs).written = 0#32 ↔ 2 ^ 32 ∣ r.written.toNat + xs.length := by
  rw [written_pushAll, BitVec.toNat_eq, BitVec.toNat_add, BitVec.toNat_ofNat, BitVec.toNat_zero,
    Nat.add_mod_mod, Nat.dvd_iff_mod_eq_zero]

theorem size_le_size_push_iff (pos : 0 < n) (fits : n < 2 ^ 32) (x : α) (r : Ring α n) :
    r.size ≤ (r.push x).size ↔ r.written ≠ BitVec.allOnes 32 := by
  have := r.written.isLt
  rw [size, size, written_push, Ne, BitVec.toNat_eq, BitVec.toNat_allOnes, BitVec.toNat_add,
    BitVec.toNat_ofNat]
  omega

theorem written_push_eq_zero_iff (x : α) (r : Ring α n) :
    (r.push x).written = 0#32 ↔ r.written = BitVec.allOnes 32 := by
  rw [written_push, BitVec.toNat_eq, BitVec.toNat_eq, BitVec.toNat_add, BitVec.toNat_allOnes]
  have := r.written.isLt
  simp only [BitVec.toNat_ofNat]
  omega

/-- A write hides what the ring held, and what is written, exactly if the count starts over with
it. So a ring which was written reports itself empty whenever the count comes by zero. -/
theorem hides_history_iff (pos : 0 < n) (fits : n < 2 ^ 32) (r : Ring α n) :
    (∀ x, (r.push x).last? = .ok (some x) ↔ r.written ≠ BitVec.allOnes 32) ∧
    (∀ x, r.held.length ≤ (r.push x).held.length ↔ r.written ≠ BitVec.allOnes 32) ∧
    ∀ xs, ((r.pushAll xs).last? = .ok none ↔ 2 ^ 32 ∣ r.written.toNat + xs.length) ∧
      ((r.pushAll xs).held = [] ↔ 2 ^ 32 ∣ r.written.toNat + xs.length) := by
  refine ⟨fun x => ?_, fun x => ?_, fun xs => ⟨?_, ?_⟩⟩
  · have last := last?_eq_of_recalls (recalls_pushAll pos fits [x] r) pos (List.cons_ne_nil x [])
    change (r.push x).last? = .ok (if (r.push x).written = 0#32 then none else some x) at last
    rw [last, Ne, ← written_push_eq_zero_iff x r]
    split
    · next zero => exact iff_of_false nofun (not_not_intro zero)
    · next some_written => exact iff_of_true rfl some_written
  · rw [length_held, length_held]
    exact size_le_size_push_iff pos fits x r
  · rw [last?_eq_none_iff pos, written_pushAll_eq_zero_iff]
  · rw [held_eq_nil_iff pos, written_pushAll_eq_zero_iff]

theorem hides_history_stray_cursor : ∃ r : Ring Nat 3, r.cursor.toNat = 7 ∧
    r.written.toNat + 2 = 2 ^ 32 ∧ (r.push 1).last? = .ok (some 1) ∧
    r.held.length ≤ (r.push 1).held.length ∧ (r.pushAll [1, 2]).last? = .ok none ∧
    (r.pushAll [1, 2]).held = [] := by
  obtain ⟨last, kept, emptied⟩ := hides_history_iff (n := 3) (by decide) (by decide)
    ⟨7#32, 0xFFFFFFFE#32, #v[10, 11, 12]⟩
  obtain ⟨unseen, none_held⟩ := emptied [1, 2]
  exact ⟨_, rfl, rfl, (last 1).mpr (by decide), (kept 1).mpr (by decide),
    unseen.mpr (by decide), none_held.mpr (by decide)⟩

/-- A ring whose count is about to start over holds a record. It is written, and shows none. -/
theorem not_shown_when_count_starts_over :
    ¬ ∀ (r : Ring Record 1) (x : Record), (r.push x).last? = .ok (some x) ∧
      r.held.length ≤ (r.push x).held.length := by
  intro shown
  obtain ⟨last, -⟩ := shown ⟨0#32, 0xFFFFFFFF#32, #v[Record.zero]⟩ Record.zero
  exact absurd last (by decide)

end LowPower.Wake.Ring

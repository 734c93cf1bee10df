namespace LowPower

abbrev Word := BitVec 32

abbrev Word64 := BitVec 64

abbrev Address := Nat

namespace Word

variable {w : Nat}

/-- The word whose bit `i`, for `i < n`, is `f i`. -/
def ofBits (n : Nat) (f : Nat → Bool) : BitVec w :=
  (BitVec.ofBoolListLE ((List.range n).map f)).setWidth w

theorem getLsbD_ofBits (n : Nat) (f : Nat → Bool) (i : Nat) :
    (ofBits n f : BitVec w).getLsbD i = (decide (i < w) && decide (i < n) && f i) := by
  rw [ofBits, BitVec.getLsbD_setWidth, BitVec.getLsbD_ofBoolListLE, Bool.and_assoc]
  by_cases h : i < n <;> simp [List.getD_eq_getElem?_getD, h]

def toBytes (x : Word) : List UInt8 :=
  (List.range 4).map fun i => UInt8.ofBitVec (x.extractLsb' (8 * i) 8)

/-- The words stored in some bytes, or `none` if the last word is cut short. -/
def ofBytes? : List UInt8 → Option (List Word)
  | [] => some []
  | a :: b :: c :: d :: rest =>
    (ofBytes? rest).map
      ((d.toBitVec ++ c.toBitVec ++ b.toBitVec ++ a.toBitVec : BitVec 32) :: ·)
  | _ => none

theorem append_toBytes (x : Word) :
    (x.extractLsb' 24 8 ++ x.extractLsb' 16 8 ++ x.extractLsb' 8 8 ++ x.extractLsb' 0 8 :
      BitVec 32) = x := by
  apply BitVec.eq_of_getLsbD_eq
  intro i hi
  simp only [BitVec.getLsbD_append, BitVec.getLsbD_extractLsb']
  by_cases h0 : i < 8
  · simp [h0]
  by_cases h1 : i < 16
  · simp [h0, show i - 8 < 8 by omega, show 8 + (i - 8) = i by omega]
  by_cases h2 : i < 24
  · simp [h0, show ¬ i - 8 < 8 by omega, show i - 8 - 8 < 8 by omega,
      show 16 + (i - 8 - 8) = i by omega]
  · simp [h0, show ¬ i - 8 < 8 by omega, show ¬ i - 8 - 8 < 8 by omega,
      show i - 8 - 8 - 8 < 8 by omega, show 24 + (i - 8 - 8 - 8) = i by omega]

@[simp] theorem ofBytes?_toBytes_append (x : Word) (rest : List UInt8) :
    ofBytes? (toBytes x ++ rest) = (ofBytes? rest).map (x :: ·) := by
  change (ofBytes? rest).map _ = _
  exact congrArg (fun y => (ofBytes? rest).map (y :: ·)) (append_toBytes x)

theorem ofBytes?_flatMap_toBytes (xs : List Word) : ofBytes? (xs.flatMap toBytes) = some xs := by
  induction xs with
  | nil => rfl
  | cons x xs ih => simp [ih]

end Word

end LowPower

import LowPower.Resource

namespace LowPower

structure Votes where
  counts : Vector Nat 7
deriving DecidableEq

namespace Votes

def none : Votes := ⟨Vector.replicate 7 0⟩

def limit : Nat := 65535

def count (v : Votes) (r : Resource) : Nat := v.counts[r.index]

def set (v : Votes) (r : Resource) (n : Nat) : Votes := ⟨v.counts.set r.index n⟩

def cast (v : Votes) (r : Resource) (requested : Bool) : Votes :=
  v.set r (if requested then min (v.count r + 1) limit else v.count r - 1)

def withdraw (v : Votes) (r : Resource) : Votes := v.set r 0

def requiredOf (v : Votes) (r : Resource) : ResourceSet :=
  if v.count r = 0 then ∅ else r.toSet

def required (v : Votes) : ResourceSet :=
  ⟨Word.ofBits 7 fun i => v.counts.getD i 0 != 0⟩

@[simp] theorem count_none (r : Resource) : none.count r = 0 := by cases r <;> rfl

theorem count_set (v : Votes) (r s : Resource) (n : Nat) :
    (v.set r n).count s = if r = s then n else v.count s := by
  by_cases h : r = s
  · subst h
    simp [count, set]
  · have hi : (r.index : Nat) ≠ s.index := fun hi => h (Resource.index_injective (Fin.ext hi))
    simp [count, set, h, hi]

theorem count_cast (v : Votes) (r s : Resource) (requested : Bool) :
    (v.cast r requested).count s =
      if r = s then if requested then min (v.count r + 1) limit else v.count r - 1
      else v.count s :=
  count_set ..

theorem count_withdraw (v : Votes) (r s : Resource) :
    (v.withdraw r).count s = if r = s then 0 else v.count s :=
  count_set ..

theorem getLsbD_required (v : Votes) (r : Resource) :
    v.required.bits.getLsbD r.index = (v.count r != 0) := by
  have hi : (r.index : Nat) < 7 := r.index.isLt
  simp [required, Word.getLsbD_ofBits, count, Vector.getD, hi, Nat.lt_trans hi,
    -BitVec.getLsbD_eq_getElem]

end Votes

end LowPower

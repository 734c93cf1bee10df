import LowPower.Word

namespace LowPower.Call

def registerCount : Nat := 18

@[ext]
structure Registers where
  used : Fin (registerCount + 1)
  values : Vector Word64 registerCount
deriving DecidableEq

namespace Registers

def empty : Registers := ⟨0, Vector.replicate registerCount 0#64⟩

def ofVector (values : Vector Word64 registerCount) : Registers := ⟨Fin.last registerCount, values⟩

def toList (r : Registers) : List Word64 := r.values.toList.take r.used

def isEmpty (r : Registers) : Bool := r.used == 0

def setValue (r : Registers) (x : Word64) : Registers :=
  ⟨⟨1, by decide⟩, r.values.set 0 x (by decide)⟩

def setInt (r : Registers) (i : Int) : Registers := r.setValue (BitVec.ofInt 64 i)

def setPair (r : Registers) (x y : Word64) : Registers :=
  ⟨⟨2, by decide⟩, (r.values.set 0 x (by decide)).set 1 y (by decide)⟩

def useAll (r : Registers) : Registers := { r with used := Fin.last registerCount }

def useNone (r : Registers) : Registers := { r with used := 0 }

def put (r : Registers) (i : Nat) (x : Word64) : Registers :=
  { r with values := r.values.setIfInBounds i x }

theorem length_values (r : Registers) : r.values.toList.length = registerCount := by simp

@[simp] theorem length_toList (r : Registers) : r.toList.length = r.used := by
  rw [toList, List.length_take, length_values]
  exact Nat.min_eq_left (Nat.le_of_lt_succ r.used.isLt)

end Registers

end LowPower.Call

import LowPower.Word

/-!
Words whose single bits have names. The names of a kind of flag word form its vocabulary. A bit
outside the vocabulary is carried along by every operation but the complement.
-/

namespace LowPower

structure Vocabulary (w : Nat) where
  title : String
  names : List (Nat × String)

def Vocabulary.known {w : Nat} (v : Vocabulary w) : BitVec w :=
  v.names.foldl (fun bits name => bits ||| BitVec.twoPow w name.1) 0#w

@[ext]
structure Flags {w : Nat} (v : Vocabulary w) where
  bits : BitVec w
deriving DecidableEq

namespace Flags

variable {w : Nat} {v : Vocabulary w}

def single (v : Vocabulary w) (i : Nat) : Flags v := ⟨BitVec.twoPow w i⟩

def all : Flags v := ⟨v.known⟩

instance : EmptyCollection (Flags v) := ⟨⟨0#w⟩⟩
instance : Inhabited (Flags v) := ⟨∅⟩
instance : Union (Flags v) := ⟨fun x y => ⟨x.bits ||| y.bits⟩⟩
instance : Inter (Flags v) := ⟨fun x y => ⟨x.bits &&& y.bits⟩⟩
instance : SDiff (Flags v) := ⟨fun x y => ⟨x.bits &&& ~~~y.bits⟩⟩

/-- The flags of the vocabulary which are not set. -/
instance : Complement (Flags v) := ⟨fun x => ⟨~~~x.bits &&& v.known⟩⟩

@[simp] theorem bits_empty : (∅ : Flags v).bits = 0#w := rfl
@[simp] theorem bits_union (x y : Flags v) : (x ∪ y).bits = x.bits ||| y.bits := rfl
@[simp] theorem bits_inter (x y : Flags v) : (x ∩ y).bits = x.bits &&& y.bits := rfl
@[simp] theorem bits_sdiff (x y : Flags v) : (x \ y).bits = x.bits &&& ~~~y.bits := rfl
@[simp] theorem bits_complement (x : Flags v) : (~~~x).bits = ~~~x.bits &&& v.known := rfl
@[simp] theorem bits_single (i : Nat) : (single v i).bits = BitVec.twoPow w i := rfl
@[simp] theorem bits_all : (all : Flags v).bits = v.known := rfl

def contains (x y : Flags v) : Bool := x ∩ y == y

def meets (x y : Flags v) : Bool := x ∩ y != ∅

def put (x y : Flags v) (on : Bool) : Flags v := if on then x ∪ y else x \ y

def truncate (bits : BitVec w) : Flags v := ⟨bits &&& v.known⟩

def ofBits? (bits : BitVec w) : Option (Flags v) :=
  if bits &&& ~~~v.known = 0#w then some ⟨bits⟩ else none

theorem contains_eq_true_iff {x y : Flags v} :
    x.contains y = true ↔ ∀ i, y.bits.getLsbD i = true → x.bits.getLsbD i = true := by
  rw [contains, beq_iff_eq, Flags.ext_iff, bits_inter]
  constructor
  · intro h i hi
    rw [← h, BitVec.getLsbD_and, Bool.and_eq_true] at hi
    exact hi.1
  · intro h
    apply BitVec.eq_of_getLsbD_eq
    intro i _
    rw [BitVec.getLsbD_and]
    cases hy : y.bits.getLsbD i
    · simp
    · simp [h i hy]

theorem meets_eq_true_iff {x y : Flags v} :
    x.meets y = true ↔ ∃ i, x.bits.getLsbD i = true ∧ y.bits.getLsbD i = true := by
  rw [meets, bne_iff_ne, Ne, Flags.ext_iff, bits_inter, bits_empty]
  constructor
  · intro h
    apply Classical.byContradiction
    intro hn
    apply h
    apply BitVec.eq_of_getLsbD_eq
    intro i _
    rw [BitVec.getLsbD_and, BitVec.getLsbD_zero]
    cases hx : x.bits.getLsbD i <;> cases hy : y.bits.getLsbD i <;> simp
    exact hn ⟨i, hx, hy⟩
  · rintro ⟨i, hx, hy⟩ h
    have := congrArg (fun b : BitVec w => b.getLsbD i) h
    simp only [BitVec.getLsbD_and, hx, hy, BitVec.getLsbD_zero] at this
    exact Bool.noConfusion this

end Flags

end LowPower

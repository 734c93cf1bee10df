import LowPower.Fault
import LowPower.Wake.Record

/-!
A ring of slots which keeps the most recent elements. Its cursor and its count of writes survive
a restart and may be anything, so the cursor is taken modulo the number of slots. What a ring
holds is `held`, oldest first.
-/

namespace LowPower.Wake

structure Ring (α : Type) (n : Nat) where
  /-- The slot of the next write, modulo `n`. -/
  cursor : Word
  /-- How many elements were written, modulo the size of a word. -/
  written : Word
  slots : Vector α n
deriving DecidableEq

namespace Ring

variable {α : Type} {n : Nat}

def new (n : Nat) (filler : α) : Ring α n := ⟨0#32, 0#32, Vector.replicate n filler⟩

def push (x : α) (r : Ring α n) : Ring α n :=
  let slot := r.cursor.toNat % n
  { cursor := BitVec.ofNat 32 ((slot + 1) % n)
    written := r.written + 1#32
    slots := r.slots.setIfInBounds slot x }

def latest? (r : Ring α n) : Option α :=
  if r.written = 0#32 then none else r.slots[(r.cursor.toNat + n - 1) % n]?

def size (r : Ring α n) : Nat := min r.written.toNat n

def start (r : Ring α n) : Nat := if r.size < n then 0 else r.cursor.toNat

def held (r : Ring α n) : List α :=
  List.ofFn fun i : Fin r.size =>
    r.slots.get ⟨(r.start + i) % n,
      Nat.mod_lt _ (Nat.lt_of_lt_of_le (Nat.zero_lt_of_lt i.isLt) (Nat.min_le_right _ _))⟩

@[simp] theorem length_held (r : Ring α n) : r.held.length = r.size := by simp [held]

def push? (x : α) (r : Ring α n) : Except Fault (Ring α n) :=
  if n = 0 then .error .remainderByZero else .ok (r.push x)

/-- A ring without slots, but with a count of writes, has no slot before its cursor. -/
def last? (r : Ring α n) : Except Fault (Option α) :=
  if r.written = 0#32 then .ok none
  else if n = 0 then
    .error (if r.cursor = 0#32 then .subtractOverflow else .remainderByZero)
  else .ok r.latest?

@[simp] theorem written_push (x : α) (r : Ring α n) : (r.push x).written = r.written + 1#32 := rfl

theorem push?_eq_push (h : 0 < n) (x : α) (r : Ring α n) : r.push? x = .ok (r.push x) := by
  simp [push?, Nat.ne_of_gt h]

theorem last?_eq_latest? (h : 0 < n) (r : Ring α n) : r.last? = .ok r.latest? := by
  by_cases hw : r.written = 0#32 <;> simp [last?, latest?, Nat.ne_of_gt h, hw]

theorem getElem?_slots_push (h : 0 < n) (x : α) (r : Ring α n) :
    (r.push x).slots[r.cursor.toNat % n]? = some x := by
  simp [push, Nat.mod_lt _ h]

def ofWords? (n : Nat) : List Word → Option (Ring Record n)
  | cursor :: written :: words =>
    if words.length = Record.wordCount * n then
      some ⟨cursor, written, Vector.ofFn fun i => .ofWords (words.drop (Record.wordCount * i))⟩
    else none
  | _ => none

end Ring

end LowPower.Wake

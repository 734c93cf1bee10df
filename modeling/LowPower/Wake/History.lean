import LowPower.Wake.Ring

namespace LowPower.Wake

inductive Category
  | lowPower
  | suspend
deriving DecidableEq

structure History where
  magic : Word
  recordSize : Word
  lowPower : Ring Record 5
  suspend : Ring Record 1
deriving DecidableEq

namespace History

def empty : History where
  magic := 0x10005731#32
  recordSize := BitVec.ofNat 32 (4 * Record.wordCount)
  lowPower := .new 5 .zero
  suspend := .new 1 .zero

def record (category : Category) (r : Record) (h : History) : History :=
  match category with
  | .lowPower => { h with lowPower := h.lowPower.push r }
  | .suspend => { h with suspend := h.suspend.push r }

def latest? (category : Category) (h : History) : Option Record :=
  match category with
  | .lowPower => h.lowPower.latest?
  | .suspend => h.suspend.latest?

def ofWords? : List Word → Option History
  | magic :: recordSize :: words => do
    let lowPower ← Ring.ofWords? 5 (words.take (2 + Record.wordCount * 5))
    let suspend ← Ring.ofWords? 1 (words.drop (2 + Record.wordCount * 5))
    return ⟨magic, recordSize, lowPower, suspend⟩
  | _ => none

end History

end LowPower.Wake

import LowPower.Fault
import LowPower.Word

/-!
One word per clock-gating domain and one bit per PLL. A live table says what is running, a
forbidden table says what must not run, and a bit set in both blocks. The blocked report packs
what blocks into one word: a bit per domain, the PLL bits above them, and a mark that some PLL
blocks.
-/

namespace LowPower

def Clock.domainCapacity : Nat := 16

@[ext]
structure Clock.Table where
  domains : Vector Word Clock.domainCapacity
  plls : Word
deriving DecidableEq

structure Clock.Shape where
  domains : Nat
  plls : Nat
deriving DecidableEq

namespace Clock.Table

def empty : Table := ⟨Vector.replicate domainCapacity 0#32, 0#32⟩

def ofList (words : List Word) (plls : Word) : Table where
  domains := Vector.ofFn fun i => words.getD i 0#32
  plls := plls

def ofList? (words : List Word) (plls : Word) : Except Fault Table :=
  if words.length ≤ domainCapacity then .ok (ofList words plls) else .error .tableOverfull

instance : Inter Table where
  inter a b := ⟨a.domains.zipWith (· &&& ·) b.domains, a.plls &&& b.plls⟩

instance : Union Table where
  union a b := ⟨a.domains.zipWith (· ||| ·) b.domains, a.plls ||| b.plls⟩

theorem domains_inter (a b : Table) (i : Nat) (h : i < domainCapacity) :
    (a ∩ b).domains[i] = a.domains[i] &&& b.domains[i] :=
  Vector.getElem_zipWith h

@[simp] theorem plls_inter (a b : Table) : (a ∩ b).plls = a.plls &&& b.plls := rfl

theorem domains_union (a b : Table) (i : Nat) (h : i < domainCapacity) :
    (a ∪ b).domains[i] = a.domains[i] ||| b.domains[i] :=
  Vector.getElem_zipWith h

@[simp] theorem plls_union (a b : Table) : (a ∪ b).plls = a.plls ||| b.plls := rfl

def isEmpty (t : Table) : Bool := t.plls == 0#32 && t.domains.all (· == 0#32)

def pllShift : Nat := 16

def pllMark : Word := BitVec.twoPow 32 30

/-- Bit `i` is set if word `i` is not zero. PLL bits which do not fit above are lost. -/
def report (t : Table) : Word :=
  Word.ofBits domainCapacity (fun i => t.domains.getD i 0#32 != 0#32) |||
    if t.plls = 0#32 then 0#32 else (t.plls <<< pllShift) ||| pllMark

def blockedBy (t forbidden : Table) : Word := (t ∩ forbidden).report

def putBits (word bits : Word) (on : Bool) : Word :=
  if on then word ||| bits else word &&& ~~~bits

/-- Sets or clears bits of one entry. Entry numbers count the domains in use first, whose `value`
is a mask of bits, and then the PLLs in use, for which any `value` but zero selects the bit of
the PLL. There is no result if the number is beyond both. -/
def edit (shape : Shape) (entry : Nat) (value : Word) (on : Bool) (t : Table) :
    Except Fault (Option Table) :=
  if entry < shape.domains then
    if h : entry < domainCapacity then
      .ok (some { t with domains := t.domains.set entry (putBits t.domains[entry] value on) })
    else .error (.noDomainWord entry)
  else if entry - shape.domains < shape.plls then
    let pll := entry - shape.domains
    if pll < 32 then
      let bits := if value = 0#32 then 0#32 else BitVec.twoPow 32 pll
      .ok (some { t with plls := putBits t.plls bits on })
    else .error .shiftOverflow
  else .ok none

end Clock.Table

end LowPower

import LowPower.Flags

namespace LowPower

inductive Resource
  | dramS0
  | dramS1
  | emi
  | syspll
  | infra
  | bus26m
  | crystal
deriving DecidableEq

namespace Resource

def index : Resource → Fin 7
  | .dramS0 => 0
  | .dramS1 => 1
  | .emi => 2
  | .syspll => 3
  | .infra => 4
  | .bus26m => 5
  | .crystal => 6

def all : List Resource := [.dramS0, .dramS1, .emi, .syspll, .infra, .bus26m, .crystal]

def ofNat? (n : Nat) : Option Resource := all[n]?

theorem mem_all (r : Resource) : r ∈ all := by cases r <;> decide

@[simp] theorem ofNat?_index (r : Resource) : ofNat? r.index = some r := by cases r <;> rfl

theorem index_injective {r s : Resource} (h : r.index = s.index) : r = s :=
  Option.some.inj (by rw [← ofNat?_index r, ← ofNat?_index s, h])

end Resource

namespace ResourceSet

def vocabulary : Vocabulary 32 where
  title := "ResourceMask"
  names := [(0, "DRAM_S0"), (1, "DRAM_S1"), (2, "EMI"), (3, "SYSPLL"), (4, "INFRA"),
    (5, "BUS26M"), (6, "XO_FPM")]

end ResourceSet

abbrev ResourceSet := Flags ResourceSet.vocabulary

def Resource.toSet (r : Resource) : ResourceSet := .single _ r.index

end LowPower

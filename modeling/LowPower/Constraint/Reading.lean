import LowPower.Constraint.Basic

namespace LowPower.Constraint

inductive Query
  | flags
  | entries
  | residency
  | blocked
  | latch
  | resources
deriving DecidableEq

namespace Query

def all : List Query := [.flags, .entries, .residency, .blocked, .latch, .resources]

def code : Query → Word
  | .flags => 0xD0000000#32
  | .entries => 0xD0000001#32
  | .residency => 0xD0000002#32
  | .blocked => 0xD0000004#32
  | .latch => 0xD0000006#32
  | .resources => 0xD0000008#32

def ofCode? (code : Word) : Option Query := all.find? (·.code == code)

@[simp] theorem ofCode?_code (q : Query) : ofCode? q.code = some q := by cases q <;> rfl

theorem code_of_ofCode? {code : Word} {q : Query} (h : ofCode? code = some q) : q.code = code := by
  simpa using List.find?_some h

def text : Query → String
  | .flags => "Valid"
  | .entries => "EnterCount"
  | .residency => "Residency"
  | .blocked => "CondBlock"
  | .latch => "CondBlockDetail"
  | .resources => "ResourceRequest"

end Query

inductive Reading
  | flags (flags : ConstraintFlags)
  | entries (count : Word64)
  | residency (ticks : Word64)
  | blocked (report : Word)
  | latch (table : Clock.Table)
  | resources (set : ResourceSet)
deriving DecidableEq

namespace Reading

def zero : Query → Reading
  | .flags => .flags ∅
  | .entries => .entries 0#64
  | .residency => .residency 0#64
  | .blocked => .blocked 0#32
  | .latch => .latch .empty
  | .resources => .resources ∅

def addCounts (a b : Word64) : Except Fault Word64 :=
  if a.uaddOverflow b then .error .addOverflow else .ok (a + b)

def add (c : Constraint) : Reading → Except Fault Reading
  | .flags fs => .ok (.flags (fs ∪ c.status.flags))
  | .entries count => (addCounts count (c.status.entries.setWidth 64)).map .entries
  | .residency ticks => (addCounts ticks c.status.residency).map .residency
  | .blocked report => .ok (.blocked (report ||| c.status.blocked))
  | .latch table => .ok (.latch (table ∪ c.status.latch))
  | .resources set => .ok (.resources (set ∪ c.keeps))

def value : Reading → Word64
  | .flags fs => fs.bits.setWidth 64
  | .entries count => count
  | .residency ticks => ticks
  | .blocked report => report.setWidth 64
  | .latch table => table.report.setWidth 64
  | .resources set => set.bits.setWidth 64

end Reading

end LowPower.Constraint

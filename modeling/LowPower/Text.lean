import LowPower.Flags

namespace LowPower

namespace Text

def hexDigits (n : Nat) : String := String.ofList (Nat.toDigits 16 n)

def hex (n : Nat) : String := "0x" ++ hexDigits n

def hexWord (n : Nat) : String :=
  let digits := Nat.toDigits 16 n
  "0x" ++ String.ofList (List.replicate (8 - digits.length) '0' ++ digits)

def list (items : List String) : String := "[" ++ ", ".intercalate items ++ "]"

def fields (title : String) (items : List (String × String)) : String :=
  let shown := items.map fun item => s!"{item.1}: {item.2}"
  title ++ " \x7b " ++ ", ".intercalate shown ++ " \x7d"

def decimal {w : Nat} (x : BitVec w) : String := toString x.toNat

def bool (b : Bool) : String := if b then "true" else "false"

def option {α : Type} (text : α → String) : Option α → String
  | some x => s!"Some({text x})"
  | none => "None"

end Text

namespace Flags

variable {w : Nat} {v : Vocabulary w}

def parts (x : Flags v) : List String :=
  let named := (v.names.filter fun name => x.bits.getLsbD name.1).map (·.2)
  let rest := x.bits &&& ~~~v.known
  if rest = 0#w then named else named ++ [Text.hex rest.toNat]

def text (x : Flags v) : String :=
  let inner := if x = ∅ then "0x0" else " | ".intercalate x.parts
  s!"{v.title}({inner})"

end Flags

end LowPower

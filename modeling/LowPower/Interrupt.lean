import LowPower.Word

namespace LowPower

namespace Interrupt

inductive Family
  | sgi
  | ppi
  | spi
  | eppi
  | espi
  | lpi
deriving DecidableEq

namespace Family

def base : Family → Nat
  | .sgi => 0
  | .ppi => 16
  | .spi => 32
  | .eppi => 1056
  | .espi => 4096
  | .lpi => 8192

def text : Family → String
  | .sgi => "SGI"
  | .ppi => "PPI"
  | .spi => "SPI"
  | .eppi => "EPPI"
  | .espi => "ESPI"
  | .lpi => "LPI"

end Family

end Interrupt

structure Interrupt where
  family : Interrupt.Family
  index : Nat
deriving DecidableEq

namespace Interrupt

def id (i : Interrupt) : Nat := i.family.base + i.index

def text (i : Interrupt) : String := s!"{i.family.text} {i.index}"

end Interrupt

structure Redelivery where
  interrupt : Interrupt
  sources : Word
  reported : Bool
deriving DecidableEq

end LowPower

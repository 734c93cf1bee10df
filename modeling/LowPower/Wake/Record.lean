import LowPower.Word

namespace LowPower.Wake

@[ext]
structure Record where
  constraint : Word
  core : Word
  event : Word
  eventExt : Word
  rawStatus : Word
  misc : Word
  timer : Word
  pcmReg13 : Word
  requestStatus : Word
  debugFlag : Word
  debugFlag1 : Word
  swFlag0 : Word
  swFlag1 : Word
  reason : Word
deriving DecidableEq

namespace Record

def words (r : Record) : List Word :=
  [r.constraint, r.core, r.event, r.eventExt, r.rawStatus, r.misc, r.timer, r.pcmReg13,
    r.requestStatus, r.debugFlag, r.debugFlag1, r.swFlag0, r.swFlag1, r.reason]

def wordCount : Nat := 14

def ofWords (words : List Word) : Record where
  constraint := words.getD 0 0#32
  core := words.getD 1 0#32
  event := words.getD 2 0#32
  eventExt := words.getD 3 0#32
  rawStatus := words.getD 4 0#32
  misc := words.getD 5 0#32
  timer := words.getD 6 0#32
  pcmReg13 := words.getD 7 0#32
  requestStatus := words.getD 8 0#32
  debugFlag := words.getD 9 0#32
  debugFlag1 := words.getD 10 0#32
  swFlag0 := words.getD 11 0#32
  swFlag1 := words.getD 12 0#32
  reason := words.getD 13 0#32

def zero : Record := ofWords []

@[simp] theorem length_words (r : Record) : r.words.length = wordCount := rfl

@[simp] theorem ofWords_words (r : Record) (rest : List Word) : ofWords (r.words ++ rest) = r := rfl

def bytes (r : Record) : List UInt8 := r.words.flatMap Word.toBytes

@[simp] theorem ofBytes?_bytes (r : Record) : Word.ofBytes? r.bytes = some r.words :=
  Word.ofBytes?_flatMap_toBytes _

end Record

end LowPower.Wake

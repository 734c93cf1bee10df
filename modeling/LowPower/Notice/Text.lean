import LowPower.Notice
import LowPower.Text

/-!
The text of a notice. Names and layout of what a notice shows are those which readers of the log
know, and not those of this library.
-/

namespace LowPower

open Text

def Clock.Table.text (t : Clock.Table) : String :=
  fields "ConditionTable"
    [("domains", list (t.domains.toList.map fun x => hexDigits x.toNat)),
      ("pll", hexDigits t.plls.toNat)]

def Resource.text : Resource → String
  | .dramS0 => "DramS0"
  | .dramS1 => "DramS1"
  | .emi => "Emi"
  | .syspll => "Syspll"
  | .infra => "Infra"
  | .bus26m => "Bus26m"
  | .crystal => "XoFpm"

def Wake.Category.text : Wake.Category → String
  | .lowPower => "LowPower"
  | .suspend => "Suspend"

def Redelivery.text (r : Redelivery) : String :=
  fields "RemainIrq"
    [("int_id", r.interrupt.text), ("wake_src", decimal r.sources), ("log", bool r.reported)]

def Constraint.Request.text : Constraint.Request → String
  | .setFlags flags => s!"SetValid({flags.text})"
  | .clearFlags flags => s!"ClearValid({flags.text})"
  | .clearResidency => "ClearResidency"
  | .editForbidden entry value on =>
    fields "ModifyCondition"
      [("cond_id", toString entry), ("value", decimal value), ("set", bool on)]
  | .flightMode on => s!"FlightMode({bool on})"
  | .storageClockOff on => s!"UfsRefClockOff({bool on})"
  | .redeliver interrupts => s!"RemainIrqs({list (interrupts.map Redelivery.text)})"

def Target.text : Target → String
  | .all => "All"
  | .index i => s!"Index({i})"

def Command.text : Command → String
  | .setFlavor flavor => s!"SetSuspendFlavor({flavor.text})"
  | .setWatchdog enable ticks =>
    fields "SetWatchdog" [("enable", bool enable), ("ticks", decimal ticks)]
  | .queryPll => "QueryPllMode"
  | .update target request =>
    fields "SetStatus" [("target", target.text), ("request", request.text)]
  | .query target q clear =>
    fields "GetStatus" [("target", target.text), ("kind", q.text), ("clear", bool clear)]

def Command.Reply.text (r : Command.Reply) : String :=
  fields "CommandResult" [("status", r.status.text), ("value", decimal r.value)]

namespace Notice

def contextText (required : ResourceSet) (kind : Session.Kind) : String :=
  fields "SelectContext" [("required", required.text), ("kind", kind.text)]

def wordHex {w : Nat} (x : BitVec w) : String := hex x.toNat

def wordHex8 (x : Word) : String := hexWord x.toNat

def seconds (ticks : Word) : Nat := ticks.toNat / 32768

def text : Notice → String
  | .noSuchCore core => s!"cpu{core}: no such core, not arming"
  | .rearming core phase => s!"cpu{core}: entering from phase {phase.text}, re-arming"
  | .arming core sources timer options =>
    s!"cpu{core}: wakesrc = {wordHex sources}, sec = {seconds timer}, ext_op = {options.text}"
  | .armed pcm request power power2nd =>
    s!"sw_flag = {wordHex pcm.flags.bits} {wordHex pcm.flags1.bits}, req = {wordHex request}, " ++
      s!"pwr = {wordHex power} {wordHex power2nd}"
  | .nothingToUndo core phase => s!"cpu{core}: nothing to undo in phase {phase.text}"
  | .woken core reason record =>
    s!"cpu{core}: woken by {reason.text}, r12 = {wordHex record.event}, " ++
      s!"timer_out = {decimal record.timer}, debug_flag = {wordHex record.debugFlag}"
  | .snapshot table => s!"Condition snapshot: {table.text}"
  | .entering name kind => s!"{name}: entering {kind.text}"
  | .blocked name report latch => s!"{name}: blocked {wordHex report}, latch {latch.text}"
  | .redeliverySeen record =>
    s!"r12 = {wordHex8 record.event}, flag = {wordHex8 record.debugFlag} " ++
      s!"{wordHex8 record.swFlag0} {wordHex8 record.swFlag1}"
  | .redelivered interrupt sources => s!"irq {interrupt.text} ({wordHex8 sources}) set pending"
  | .flagPut name flag on => s!"{name}: {flag.text} = {bool on}"
  | .registered name index => s!"Registered constraint {name} as {index}"
  | .selected choice start required kind =>
    s!"Selected {option toString choice} from {start} for {contextText required kind}"
  | .enterUnknown index => s!"Ignoring run of unknown constraint {index}"
  | .leaveUnknown index => s!"Ignoring reset of unknown constraint {index}"
  | .voted resource count => s!"Resource {resource.text} votes: {count}"
  | .announced announcement allows => s!"LP notify {announcement.text}: {allows.text}"
  | .recorded category record =>
    s!"Trace {category.text}: constraint {decimal record.constraint} r12 {wordHex8 record.event}"
  | .ready constraints => s!"Low-power arbiter ready with {constraints} constraints"
  | .invalidEntry kind core => s!"Ignoring {kind.text} entry for invalid core {core}"
  | .unwinding core => s!"cpu{core}: entering with session still open, unwinding it"
  | .noneEligible core kind => s!"cpu{core}: no constraint eligible for {kind.text}"
  | .invalidLeave core => s!"Ignoring leave for invalid core {core}"
  | .commanded command => s!"LPM control: {command.text}"
  | .rejected request target refusal =>
    s!"Rejected {request.text} for {target.text}: {refusal.message}"
  | .queryFailed target refusal => s!"Status query for {target.text} failed: {refusal.message}"
  | .malformedCall id action => s!"Malformed LPM call {wordHex id} action {wordHex action}"
  | .replied reply => s!"LPM call result: {reply.text}"

def entry (severity : Severity) (text : String) : String := s!"{severity.text}: {text}"

def toEntry (n : Notice) : String := entry n.severity n.text

def shownAt (least : Severity) (n : Notice) : Bool := n.severity.rank ≤ least.rank

def transcript (entries : List String) : String := String.join (entries.map (· ++ "\n"))

end Notice

end LowPower

import LowPower.Call.Codec
import LowPower.Call.Routing
import LowPower.Text

namespace LowPower.Call

def CallType.text : CallType → String
  | .fast32 => "Fast32"
  | .fast64 => "Fast64"
  | .yielding => "Yielding"

def Subsystem.text : Subsystem → String
  | .cores => "CpuPm"
  | .diagnostics => "SpmDbg"
  | .sequencer => "Spm"

def SequencerFunction.text : SequencerFunction → String
  | .flavor => "Status"
  | .watchdog => "PcmWdt"
  | .pllMode => "PhypllMode"

def DiagnosticsFunction.text : DiagnosticsFunction → String
  | .constraints => "RcStatus"

def FunctionId.text (f : FunctionId) : String := Text.hexWord f.raw.toNat

def FunctionId.describe (f : FunctionId) : String :=
  s!"{f.text} ({f.type.text} OEN {f.entity})"

def Registers.text (r : Registers) : String :=
  let values := ", ".intercalate (r.toList.map fun x => Text.hex x.toNat)
  s!"SmcReturn([{values}])"

end LowPower.Call

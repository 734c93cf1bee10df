import LowPower.Platform

namespace LowPower.Mt8192

def sequencerBase : Address := 0x10006000
def infraBase : Address := 0x10001000
def mmsysBase : Address := 0x14000000
def clockBase : Address := 0x10000000
def pllBase : Address := 0x1000C000
def sspmMailbox : Address := 0x10440000
def mcupmMailbox : Address := 0x0C55FDA4

def map : Register.Map where
  powerStatus := sequencerBase + 0x016C
  powerStatus2nd := sequencerBase + 0x0170
  pcmControl := sequencerBase + 0x001C
  timerValue := sequencerBase + 0x0034
  watchdogValue := sequencerBase + 0x0038
  wakeMask := sequencerBase + 0x00D0
  kick := sequencerBase + 0x00B0
  sourceRequest := sequencerBase + 0x0818
  swFlag0 := sequencerBase + 0x0600
  swFlag1 := sequencerBase + 0x0608
  coreScratch := sequencerBase + 0x0620
  coreMailbox := sequencerBase + 0x0624
  clockRecord := sequencerBase + 0x0300
  crystal := sequencerBase + 0x0304
  s1Control := sequencerBase + 0x0310
  s1Status := sequencerBase + 0x0314
  externalClear := sequencerBase + 0x0214
  wakeEvent := sequencerBase + 0x08A4
  wakeEventExt := sequencerBase + 0x0148
  wakeStatus := sequencerBase + 0x0144
  wakeMisc := sequencerBase + 0x08AC
  timerBackup := sequencerBase + 0x08B0
  pcmReg13 := sequencerBase + 0x0110
  requestStatus := sequencerBase + 0x0114
  debugFlag := sequencerBase + 0x0604
  debugFlag1 := sequencerBase + 0x060C
  interruptStatus := sequencerBase + 0x0128
  pllMode := sequencerBase + 0x0004
  allowMailbox := sspmMailbox + 0x0004
  eventMailbox := sspmMailbox + 0x0008
  powerDownMailbox := mcupmMailbox

def infraRail : Word := 0x00000200#32
def mmsysRail : Word := 0x00100000#32

def displayMux : Clock.Mux := ⟨clockBase + 0x20, 0⟩

def infra (name : String) (offset : Nat) : Clock.Domain :=
  ⟨name, infraRail, infraBase + offset, true, none⟩

def mmsys (name : String) (offset : Nat) : Clock.Domain :=
  ⟨name, mmsysRail, mmsysBase + offset, true, some displayMux⟩

def layout : Clock.Layout where
  domains := [
    ⟨"mtcmos", 0xFFFFFFFF#32, map.powerStatus, false, none⟩,
    infra "infra_cg0" 0x0094,
    infra "infra_cg1" 0x0090,
    infra "infra_cg2" 0x00AC,
    infra "infra_cg3" 0x00C8,
    infra "infra_cg4" 0x00D8,
    infra "infra_cg5" 0x00E8,
    mmsys "mmsys_cg0" 0x0100,
    mmsys "mmsys_cg1" 0x0110,
    mmsys "mmsys_cg2" 0x01A0]
  plls := [
    ⟨"univpll", pllBase + 0x0308⟩,
    ⟨"mfgpll", pllBase + 0x0268⟩,
    ⟨"msdcpll", pllBase + 0x0350⟩,
    ⟨"tvdpll", pllBase + 0x0380⟩,
    ⟨"mmpll", pllBase + 0x0360⟩]

def bus26mForbidden : Clock.Table :=
  .ofList [0x07CBF1FC#32, 0x0A0D8856#32, 0x03AF9A00#32, 0x86000650#32, 0xC800C000#32,
    0x00000000#32, 0x4000007C#32, 0x280E0800#32, 0x00000001#32, 0x00000000#32] 0x0000001F#32

def syspllForbidden : Clock.Table :=
  .ofList [0x078BF1FC#32, 0x080D8856#32, 0x03AF9A00#32, 0x86000640#32, 0xC800C000#32,
    0x00000000#32, 0x0000007C#32, 0x280E0800#32, 0x00000001#32, 0x00000000#32] 0x00000000#32

def dramForbidden : Clock.Table :=
  .ofList [0x078BF1FC#32, 0x080D8856#32, 0x03AF9A00#32, 0x86000640#32, 0xC800C000#32,
    0x00000000#32, 0x00000000#32, 0x200C0000#32, 0x00000000#32, 0x00000000#32] 0x00000000#32

def suspendSources : List Nat :=
  [0, 2, 3, 5, 6, 7, 8, 10, 11, 12, 14, 15, 16, 17, 18, 22, 23, 25, 26, 27]

/-- The wake sources of an idle core: those of a suspended system, the general timer, audio, the
wake-up by another core and the neural processor. -/
def idleSources : List Nat := suspendSources ++ [4, 20, 28, 29]

def sourceMask (bits : List Nat) : Word :=
  bits.foldl (fun mask i => mask ||| BitVec.twoPow 32 i) 0#32

def power (sources : List Nat) : PowerControl := ⟨⟨∅, ∅⟩, sourceMask sources, 0#32⟩

def constraints : List Constraint :=
  [.new (.bus26m []) bus26mForbidden, .new .syspll syspllForbidden, .new .dram dramForbidden,
    .new .cpuBuckLdo .empty]

def platform : Platform where
  cores := 8
  idle := power idleSources
  suspend := power suspendSources
  map := map
  layout := layout
  constraints := constraints
  raisesInterrupts := true
  handlesSuspend := false

theorem map_distinct : map.Distinct := by
  unfold Register.Map.Distinct
  decide

theorem platform_accepted : platform.Accepted :=
  ⟨by decide, ⟨by decide, by decide⟩, by decide⟩

end LowPower.Mt8192

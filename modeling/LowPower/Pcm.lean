import LowPower.Flags

namespace LowPower

namespace PcmFlags

def vocabulary : Vocabulary 32 where
  title := "PcmFlags"
  names := [(0, "KEEP_CSYSPWRACK_HIGH"), (3, "DISABLE_VCORE_DVS"), (4, "DISABLE_VCORE_DFS"),
    (6, "DISABLE_INFRA_PDN"), (8, "DISABLE_DRAMC_MCU_SRAM_SLEEP"), (9, "DISABLE_SSPM_SRAM_SLEEP"),
    (10, "DISABLE_SYSRAM_SLEEP"), (11, "DISABLE_MCUPM_SRAM_SLEEP"), (12, "DISABLE_SRAM_EVENT"),
    (13, "ENABLE_TIA_WORKAROUND"), (14, "ENABLE_LVTS_WORKAROUND"), (15, "ENABLE_6315_CTRL"),
    (16, "USE_SRCCLKENO2")]

end PcmFlags

abbrev PcmFlags := Flags PcmFlags.vocabulary

namespace PcmFlags

def keepPowerAck : PcmFlags := .single _ 0
def noVoltageScaling : PcmFlags := .single _ 3
def noFrequencyScaling : PcmFlags := .single _ 4
def keepInfra : PcmFlags := .single _ 6
def keepDramSram : PcmFlags := .single _ 8
def keepSspmSram : PcmFlags := .single _ 9
def keepSystemSram : PcmFlags := .single _ 10
def keepMcupmSram : PcmFlags := .single _ 11
def noSramEvents : PcmFlags := .single _ 12
def tiaWorkaround : PcmFlags := .single _ 13
def thermalWorkaround : PcmFlags := .single _ 14
def pmicControl : PcmFlags := .single _ 15
def secondClockRequest : PcmFlags := .single _ 16

def keepSram : PcmFlags :=
  keepSspmSram ∪ keepDramSram ∪ keepSystemSram ∪ keepMcupmSram ∪ noSramEvents

end PcmFlags

namespace PcmFlags1

def vocabulary : Vocabulary 32 where
  title := "PcmFlags1"
  names := [(8, "DISABLE_MD26M_CK_OFF")]

end PcmFlags1

abbrev PcmFlags1 := Flags PcmFlags1.vocabulary

namespace PcmFlags1

def keepModemClock : PcmFlags1 := .single _ 8

end PcmFlags1

structure PcmSettings where
  flags : PcmFlags
  flags1 : PcmFlags1
deriving DecidableEq

structure PowerControl where
  pcm : PcmSettings
  wakeSources : Word
  /-- Zero for no timer. -/
  timerTicks : Word
deriving DecidableEq

inductive SuspendFlavor
  | powerDown
  /-- Enough of the infrastructure and the modem clock to play audio. -/
  | sleep
deriving DecidableEq

namespace SuspendFlavor

def ofNat? : Nat → Option SuspendFlavor
  | 0 => some .powerDown
  | 1 => some .sleep
  | _ => none

def text : SuspendFlavor → String
  | .powerDown => "SystemPdn"
  | .sleep => "Sleep"

def suspendFlags : PcmFlags :=
  .noVoltageScaling ∪ .noFrequencyScaling ∪ .thermalWorkaround ∪ .secondClockRequest

def pcm : SuspendFlavor → PcmSettings
  | .powerDown => ⟨suspendFlags, ∅⟩
  | .sleep => ⟨suspendFlags ∪ .keepInfra ∪ .keepPowerAck, .keepModemClock⟩

theorem powerDown_within_sleep : sleep.pcm.flags.contains powerDown.pcm.flags = true ∧
    sleep.pcm.flags1.contains powerDown.pcm.flags1 = true := by decide

theorem sleep_sdiff_powerDown :
    sleep.pcm.flags \ powerDown.pcm.flags = PcmFlags.keepInfra ∪ PcmFlags.keepPowerAck ∧
      sleep.pcm.flags1 \ powerDown.pcm.flags1 = PcmFlags1.keepModemClock := by decide

theorem pcm_known (flavor : SuspendFlavor) : Flags.all.contains flavor.pcm.flags = true ∧
    Flags.all.contains flavor.pcm.flags1 = true := by
  cases flavor with
  | powerDown => decide
  | sleep => decide

end SuspendFlavor

end LowPower

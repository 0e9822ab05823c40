/-
  FirmwareMailbox.Telemetry.Metric — the gauges that are kept for each socket, and the message that
  each is read with. Several gauges share one message.
-/

import FirmwareMailbox.Message.Id

namespace FirmwareMailbox

inductive Metric where
  | socketPower
  | powerLimit
  | maxPowerLimit
  | fabricClock
  | memoryClock
  | coreClockLimit
  | activePercent
  | procHot
  | ddrMax
  | ddrUsed
  | ddrUsedPercent
  deriving DecidableEq, Repr

namespace Metric

def name : Metric → String
  | socketPower => "hsmp_socket_power_mw"
  | powerLimit => "hsmp_socket_power_limit_mw"
  | maxPowerLimit => "hsmp_socket_power_limit_max_mw"
  | fabricClock => "hsmp_fclk_mhz"
  | memoryClock => "hsmp_mclk_mhz"
  | coreClockLimit => "hsmp_cclk_limit_mhz"
  | activePercent => "hsmp_c0_residency_percent"
  | procHot => "hsmp_proc_hot"
  | ddrMax => "hsmp_ddr_max_bandwidth_gbps"
  | ddrUsed => "hsmp_ddr_utilized_bandwidth_gbps"
  | ddrUsedPercent => "hsmp_ddr_utilized_percent"

def help : Metric → String
  | socketPower => "Average socket power in mW"
  | powerLimit => "Socket power limit in mW"
  | maxPowerLimit => "Highest settable socket power limit in mW"
  | fabricClock => "Data fabric clock in MHz"
  | memoryClock => "Memory clock in MHz"
  | coreClockLimit => "Core clock ceiling under current limits in MHz"
  | activePercent => "Share of time cores spent in C0"
  | procHot => "1 while PROC_HOT is asserted"
  | ddrMax => "Theoretical maximum DDR bandwidth in GB/s"
  | ddrUsed => "Utilised DDR bandwidth in GB/s"
  | ddrUsedPercent => "Utilised share of DDR bandwidth"

/-- The message a gauge is read with. -/
def message : Metric → MessageId
  | socketPower => .getSocketPower
  | powerLimit => .getSocketPowerLimit
  | maxPowerLimit => .getSocketPowerLimitMax
  | fabricClock | memoryClock => .getFclkMclk
  | coreClockLimit => .getCclkThrottleLimit
  | activePercent => .getC0Percent
  | procHot => .getProcHot
  | ddrMax | ddrUsed | ddrUsedPercent => .getDdrBandwidth

def all : List Metric :=
  [socketPower, powerLimit, maxPowerLimit, fabricClock, memoryClock, coreClockLimit, activePercent,
    procHot, ddrMax, ddrUsed, ddrUsedPercent]

def ofName? (s : String) : Option Metric := all.find? (·.name = s)

/-- The messages that refresh every gauge, each once, in the order of the gauges. -/
def messages : List MessageId :=
  all.foldl (fun ms g => if g.message ∈ ms then ms else ms ++ [g.message]) []

end Metric

end FirmwareMailbox

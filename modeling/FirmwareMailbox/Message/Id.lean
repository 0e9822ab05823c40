/-
  FirmwareMailbox.Message.Id — the messages of the mailbox and the interface version that each
  came with.

  Version 1 has the messages up to 17, version 2 adds 18, version 3 adds 20; 19 is not a message.
  So the messages of a version are those up to its highest one, and a version above 3 is used as
  if it were 3.
-/

namespace FirmwareMailbox

inductive MessageId where
  | test
  | getSmuVersion
  | getInterfaceVersion
  | getSocketPower
  | setSocketPowerLimit
  | getSocketPowerLimit
  | getSocketPowerLimitMax
  | setBoostLimit
  | setBoostLimitSocket
  | getBoostLimit
  | getProcHot
  | setXgmiLinkWidth
  | setDfPstate
  | autoDfPstate
  | getFclkMclk
  | getCclkThrottleLimit
  | getC0Percent
  | setNbioDpmLevel
  | getDdrBandwidth
  deriving DecidableEq, Repr

namespace MessageId

/-- The number written to the message register. -/
def number : MessageId → UInt32
  | test => 1
  | getSmuVersion => 2
  | getInterfaceVersion => 3
  | getSocketPower => 4
  | setSocketPowerLimit => 5
  | getSocketPowerLimit => 6
  | getSocketPowerLimitMax => 7
  | setBoostLimit => 8
  | setBoostLimitSocket => 9
  | getBoostLimit => 10
  | getProcHot => 11
  | setXgmiLinkWidth => 12
  | setDfPstate => 13
  | autoDfPstate => 14
  | getFclkMclk => 15
  | getCclkThrottleLimit => 16
  | getC0Percent => 17
  | setNbioDpmLevel => 18
  | getDdrBandwidth => 20

def name : MessageId → String
  | test => "TEST"
  | getSmuVersion => "GET_SMU_VER"
  | getInterfaceVersion => "GET_PROTO_VER"
  | getSocketPower => "GET_SOCKET_POWER"
  | setSocketPowerLimit => "SET_SOCKET_POWER_LIMIT"
  | getSocketPowerLimit => "GET_SOCKET_POWER_LIMIT"
  | getSocketPowerLimitMax => "GET_SOCKET_POWER_LIMIT_MAX"
  | setBoostLimit => "SET_BOOST_LIMIT"
  | setBoostLimitSocket => "SET_BOOST_LIMIT_SOCKET"
  | getBoostLimit => "GET_BOOST_LIMIT"
  | getProcHot => "GET_PROC_HOT"
  | setXgmiLinkWidth => "SET_XGMI_LINK_WIDTH"
  | setDfPstate => "SET_DF_PSTATE"
  | autoDfPstate => "AUTO_DF_PSTATE"
  | getFclkMclk => "GET_FCLK_MCLK"
  | getCclkThrottleLimit => "GET_CCLK_THROTTLE_LIMIT"
  | getC0Percent => "GET_C0_PERCENT"
  | setNbioDpmLevel => "SET_NBIO_DPM_LEVEL"
  | getDdrBandwidth => "GET_DDR_BANDWIDTH"

/-- The first interface version that has the message. -/
def minVersion : MessageId → UInt32
  | setNbioDpmLevel => 2
  | getDdrBandwidth => 3
  | _ => 1

/-- Every message, by number. -/
def all : List MessageId :=
  [test, getSmuVersion, getInterfaceVersion, getSocketPower, setSocketPowerLimit,
    getSocketPowerLimit, getSocketPowerLimitMax, setBoostLimit, setBoostLimitSocket, getBoostLimit,
    getProcHot, setXgmiLinkWidth, setDfPstate, autoDfPstate, getFclkMclk, getCclkThrottleLimit,
    getC0Percent, setNbioDpmLevel, getDdrBandwidth]

def ofNumber? (n : UInt32) : Option MessageId := all.find? (·.number = n)

/-- Messages are ordered by number. -/
instance : LE MessageId := ⟨fun a b => a.number ≤ b.number⟩

instance (a b : MessageId) : Decidable (a ≤ b) := inferInstanceAs (Decidable (a.number ≤ b.number))

/-- The highest interface version whose messages are known. -/
def highestVersion : UInt32 := 3

/-- The highest message of an interface version; version 0 has none. -/
def highestOf (version : UInt32) : Option MessageId :=
  if version = 0 then none
  else if version = 1 then some getC0Percent
  else if version = 2 then some setNbioDpmLevel
  else some getDdrBandwidth

/-- Whether `m` is among the messages up to `highest`. -/
def within (m : MessageId) (highest : Option MessageId) : Bool := highest.any fun h => m ≤ h

end MessageId

end FirmwareMailbox

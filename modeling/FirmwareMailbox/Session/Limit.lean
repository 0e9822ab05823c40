/-
  FirmwareMailbox.Session.Limit — the limits on power and boost.

  A boost limit travels in 16 bits: a higher one is sent as 0xFFFF, which lifts the limit. The limit
  of one CPU is set through the mailbox of the CPU's socket and names the CPU by its APIC ID, which
  has 16 bits in that message.
-/

import FirmwareMailbox.Session.Basic

namespace FirmwareMailbox.Session

/-- Sets the power limit of a socket in mW; the firmware clips it to what the socket takes. -/
def setPowerLimit (s : Session) (socket : Nat) (limit : UInt32) : Job Unit := do
  let _ ← s.exchange socket { id := .setSocketPowerLimit, args := [limit] }
  return ()

/-- A limit in MHz as far as 16 bits go. -/
def saturate (mhz : UInt32) : UInt16 := if mhz > 0xFFFF then 0xFFFF else mhz.toUInt16

/-- The APIC ID of a CPU as a boost message carries it. -/
def narrowApicId (cpu : Nat) (apicId : UInt32) : Except Error UInt16 :=
  if apicId > 0xFFFF then .error (.invalidArgument (.wideApicId cpu apicId))
  else .ok apicId.toUInt16

def setCpuBoost (s : Session) (cpu : Nat) (mhz : UInt32) : Job Unit := do
  let inv ← s.gate (some .setBoostLimit)
  let entry ← inv.cpus.get cpu
  let apicId ← narrowApicId cpu entry.apicId
  let arg : BoostLimit := { apicId, limitMhz := saturate mhz }
  let _ ← s.deliver inv entry.socket { id := .setBoostLimit, args := [Layout.encode arg] }
  return ()

/-- Sets the boost limit of every core of a socket. -/
def boostMessage (mhz : UInt32) : Message :=
  { id := .setBoostLimitSocket, args := [(saturate mhz).toUInt32] }

def setSocketBoost (s : Session) (socket : Nat) (mhz : UInt32) : Job Unit := do
  let _ ← s.exchange socket (boostMessage mhz)
  return ()

/-- Sets the boost limit of every core, socket by socket up to the first failure. -/
def setSystemBoost (s : Session) (mhz : UInt32) : Job Unit := do
  let inv ← s.gate (some .setBoostLimitSocket)
  s.deliverAll inv (boostMessage mhz)

/-- The boost limit of one CPU in MHz. -/
def cpuBoost (s : Session) (cpu : Nat) : Job UInt32 := do
  let inv ← s.gate (some .getBoostLimit)
  let entry ← inv.cpus.get cpu
  let apicId ← narrowApicId cpu entry.apicId
  let words ← s.deliver inv entry.socket
    { id := .getBoostLimit, args := [apicId.toUInt32], responseLength := 1 }
  Job.word words 0

end FirmwareMailbox.Session

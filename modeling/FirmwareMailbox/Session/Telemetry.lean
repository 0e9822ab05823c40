/-
  FirmwareMailbox.Session.Telemetry — the operations that read.
-/

import FirmwareMailbox.Session.Basic

namespace FirmwareMailbox.Session

/-- The one word that a message without arguments answers. -/
def readWord (s : Session) (socket : Nat) (m : MessageId) : Job UInt32 := do
  let words ← s.exchange socket { id := m, responseLength := 1 }
  Job.word words 0

/-- Average power of a socket in mW. -/
def socketPower (s : Session) (socket : Nat) : Job UInt32 := s.readWord socket .getSocketPower

/-- The power limit in force, in mW. -/
def powerLimit (s : Session) (socket : Nat) : Job UInt32 := s.readWord socket .getSocketPowerLimit

/-- The highest power limit that a socket takes, in mW. -/
def maxPowerLimit (s : Session) (socket : Nat) : Job UInt32 :=
  s.readWord socket .getSocketPowerLimitMax

/-- Whether a socket is being told that it is too hot. -/
def procHot (s : Session) (socket : Nat) : Job Bool := do
  let word ← s.readWord socket .getProcHot
  return word ≠ 0

/-- Clocks of the data fabric and the memory, in MHz. -/
structure FabricClocks where
  fabric : UInt32
  memory : UInt32
  deriving DecidableEq, Repr

def fabricClocks (s : Session) (socket : Nat) : Job FabricClocks := do
  let words ← s.exchange socket { id := .getFclkMclk, responseLength := 2 }
  let fabric ← Job.word words 0
  let memory ← Job.word words 1
  return { fabric, memory }

def fabricClock (s : Session) (socket : Nat) : Job UInt32 := do
  let c ← s.fabricClocks socket
  return c.fabric

def memoryClock (s : Session) (socket : Nat) : Job UInt32 := do
  let c ← s.fabricClocks socket
  return c.memory

/-- The highest core clock under the limits in force, in MHz. -/
def coreClockLimit (s : Session) (socket : Nat) : Job UInt32 :=
  s.readWord socket .getCclkThrottleLimit

/-- Percentage of time that the cores are active. -/
def activePercent (s : Session) (socket : Nat) : Job UInt32 := s.readWord socket .getC0Percent

def ddrBandwidth (s : Session) (socket : Nat) : Job DdrBandwidth := do
  let word ← s.readWord socket .getDdrBandwidth
  return Layout.decode word

def ddrMax (s : Session) (socket : Nat) : Job UInt32 := do
  let b ← s.ddrBandwidth socket
  return b.maxGbps

def ddrUsed (s : Session) (socket : Nat) : Job UInt32 := do
  let b ← s.ddrBandwidth socket
  return b.usedGbps

def ddrUsedPercent (s : Session) (socket : Nat) : Job UInt32 := do
  let b ← s.ddrBandwidth socket
  return b.usedPercent

/-- The firmware's version, as it was read when the machine was learned. -/
def firmwareVersion (s : Session) : Job FirmwareVersion := do
  let inv ← s.gate (some .getSmuVersion)
  return inv.capabilities.firmware

/-- The interface version that the firmware reported then. -/
def interfaceVersion (s : Session) : Job UInt32 := do
  let inv ← s.gate (some .getInterfaceVersion)
  return inv.capabilities.interfaceVersion

/-- A step of a walk over the root complexes, see `Topology.busAfter`. -/
def busAfter (s : Session) (index : Nat) : Job (UInt8 × Nat) := do
  let inv ← s.gate none
  inv.topology.busAfter index

/-- The lowest bus of every root complex. -/
def lowestBuses (s : Session) : Job (List UInt8) := do
  let inv ← s.gate none
  return inv.topology.lowestBuses

end FirmwareMailbox.Session

/-
  FirmwareMailbox.Telemetry.Exporter — gauges refreshed from the machine.

  A refresh asks every socket for every message that feeds a gauge. A message that the interface
  version does not have, or that the firmware does not know, is settled and not asked for again; any
  other failure leaves the gauge as it was and the refresh goes on. Nothing is asked of firmware
  that the process gave up on.
-/

import FirmwareMailbox.Session.Telemetry
import FirmwareMailbox.Telemetry.Metric

namespace FirmwareMailbox

structure Exporter where
  session : Session
  sockets : Nat
  /-- The last reading of each gauge of each socket, 0 before the first. -/
  gauge : Metric → Nat → UInt32 := fun _ _ => 0
  /-- Messages that are not asked for any more. -/
  settled : List MessageId := []

namespace Exporter

/-- An exporter for every socket of a machine, which is learned if it was not yet. -/
def ofSession (s : Session) : Job Exporter := do
  let inv ← s.gate none
  return { session := s, sockets := inv.topology.socketCount }

/-- Asks a socket for a message: the gauges it feeds and their readings. -/
def ask (s : Session) (socket : Nat) : MessageId → Job (List (Metric × UInt32))
  | .getSocketPower => do
    let w ← s.socketPower socket
    return [(.socketPower, w)]
  | .getSocketPowerLimit => do
    let w ← s.powerLimit socket
    return [(.powerLimit, w)]
  | .getSocketPowerLimitMax => do
    let w ← s.maxPowerLimit socket
    return [(.maxPowerLimit, w)]
  | .getFclkMclk => do
    let c ← s.fabricClocks socket
    return [(.fabricClock, c.fabric), (.memoryClock, c.memory)]
  | .getCclkThrottleLimit => do
    let w ← s.coreClockLimit socket
    return [(.coreClockLimit, w)]
  | .getC0Percent => do
    let w ← s.activePercent socket
    return [(.activePercent, w)]
  | .getProcHot => do
    let hot ← s.procHot socket
    return [(.procHot, if hot then 1 else 0)]
  | .getDdrBandwidth => do
    let b ← s.ddrBandwidth socket
    return [(.ddrMax, b.maxGbps), (.ddrUsed, b.usedGbps), (.ddrUsedPercent, b.usedPercent)]
  | _ => return []

/-- Sets one gauge of one socket. -/
def set (e : Exporter) (socket : Nat) (reading : Metric × UInt32) : Exporter :=
  { e with gauge := fun g s => if g = reading.1 ∧ s = socket then reading.2 else e.gauge g s }

/-- Whether a failure shows that the firmware does not have the message. -/
def settles : Error → Bool
  | .versionMismatch .. | .firmwareRejected _ => true
  | _ => false

/-- Asks `n` sockets from `socket` on for a message. -/
def refreshFrom (e : Exporter) (m : MessageId) (socket : Nat) : (n : Nat) → Program Exporter
  | 0 => return e
  | n + 1 => do
    match ← (ask e.session socket m).run with
    | .ok readings => refreshFrom (readings.foldl (fun e r => e.set socket r) e) m (socket + 1) n
    | .error failure =>
      if settles failure then return { e with settled := m :: e.settled }
      else refreshFrom e m (socket + 1) n

/-- Asks every socket for every message of a list that is not settled. -/
def refreshMessages (e : Exporter) : List MessageId → Program Exporter
  | [] => return e
  | m :: rest =>
    if m ∈ e.settled then e.refreshMessages rest
    else do
      let e ← e.refreshFrom m 0 e.sockets
      e.refreshMessages rest

/-- Refreshes every gauge once. -/
def refresh (e : Exporter) : Program Exporter := do
  if ← Program.request .isDisabled then return e
  e.refreshMessages Metric.messages

end Exporter

end FirmwareMailbox

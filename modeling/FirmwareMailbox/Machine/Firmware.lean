/-
  FirmwareMailbox.Machine.Firmware — firmware that does what its messages say.

  It keeps the settings that the messages read and change. A message that its interface version
  does not have, that it was told to refuse, or that is none at all is answered with
  `invalidMessage`, an argument out of range with `invalidArgument`; in either case no setting
  changes. The first three messages every version has.

  It may be told to answer every message with one status, or to stall.
-/

import FirmwareMailbox.Message.Id
import FirmwareMailbox.Register.Address
import FirmwareMailbox.Register.Layout

namespace FirmwareMailbox

/-- A finite map, its keys in ascending order. -/
abbrev WordMap (α : Type) : Type := List (UInt32 × α)

namespace WordMap

variable {α : Type}

def at? (m : WordMap α) (key : UInt32) : Option α := List.lookup key m

def insert (key : UInt32) (a : α) : WordMap α → WordMap α
  | [] => [(key, a)]
  | p :: rest =>
    if key < p.1 then (key, a) :: p :: rest
    else if key = p.1 then (key, a) :: rest
    else p :: insert key a rest

end WordMap

structure Firmware where
  interfaceVersion : UInt32
  version : UInt32 := 0x002E4A00
  stalled : Bool := false
  /-- Numbers of messages that are refused as unknown. -/
  refused : List UInt32 := []
  /-- The status to answer every message with, whatever it says. -/
  forcedStatus : Option UInt32 := none
  socketPower : UInt32 := 95000
  powerLimit : UInt32 := 200000
  maxPowerLimit : UInt32 := 225000
  /-- Boost limit by APIC ID. -/
  boostLimits : WordMap UInt32 := []
  procHot : UInt32 := 0
  /-- The link width range that was set, as it was sent. -/
  linkWidths : Option UInt32 := none
  fabricState : Option UInt32 := none
  fabricClock : UInt32 := 1467
  memoryClock : UInt32 := 1600
  coreClockLimit : UInt32 := 3500
  activePercent : UInt32 := 42
  /-- Highest and lowest interface level by tile. -/
  interfaceLevels : WordMap (UInt32 × UInt32) := []
  bandwidth : UInt32 := Layout.encode ({ maxGbps := 204, usedGbps := 51, usedPercent := 25 } :
    DdrBandwidth)
  /-- Every message that was triggered, with the words in the slots. -/
  log : List (UInt32 × List UInt32) := []
  statusPolls : Nat := 0
  deriving DecidableEq, Repr

namespace Firmware

/-- Whether the interface has message number `n`. -/
def knows (f : Firmware) (n : UInt32) : Bool :=
  n ≤ 3 || (MessageId.highestOf f.interfaceVersion).any fun h => n ≤ h.number

/-- What a message does: the words of its response and the settings after it, or a status. -/
def perform (f : Firmware) (arg : UInt32) : MessageId → Except UInt32 (List UInt32 × Firmware)
  | .test => .ok ([arg + 1], f)
  | .getSmuVersion => .ok ([f.version], f)
  | .getInterfaceVersion => .ok ([f.interfaceVersion], f)
  | .getSocketPower => .ok ([f.socketPower], f)
  | .setSocketPowerLimit =>
    .ok ([], { f with powerLimit := if arg ≤ f.maxPowerLimit then arg else f.maxPowerLimit })
  | .getSocketPowerLimit => .ok ([f.powerLimit], f)
  | .getSocketPowerLimitMax => .ok ([f.maxPowerLimit], f)
  | .setBoostLimit =>
    let apicId := arg >>> 16
    match f.boostLimits.at? apicId with
    | some _ =>
      .ok ([], { f with boostLimits := WordMap.insert apicId (arg &&& 0xFFFF) f.boostLimits })
    | none => .error Status.invalidArgument
  | .setBoostLimitSocket =>
    .ok ([], { f with boostLimits := f.boostLimits.map fun p => (p.1, arg &&& 0xFFFF) })
  | .getBoostLimit =>
    match f.boostLimits.at? arg with
    | some limit => .ok ([limit], f)
    | none => .error Status.invalidArgument
  | .getProcHot => .ok ([f.procHot], f)
  | .setXgmiLinkWidth =>
    let min := (arg >>> 8) &&& 0xFF
    let max := arg &&& 0xFF
    if min > max ∨ max > 2 then .error Status.invalidArgument
    else .ok ([], { f with linkWidths := some arg })
  | .setDfPstate =>
    if arg > 3 then .error Status.invalidArgument
    else .ok ([], { f with fabricState := some arg })
  | .autoDfPstate => .ok ([], { f with fabricState := none })
  | .getFclkMclk => .ok ([f.fabricClock, f.memoryClock], f)
  | .getCclkThrottleLimit => .ok ([f.coreClockLimit], f)
  | .getC0Percent => .ok ([f.activePercent], f)
  | .setNbioDpmLevel =>
    let tile := (arg >>> 16) &&& 0xFF
    let max := (arg >>> 8) &&& 0xFF
    let min := arg &&& 0xFF
    if tile.toNat ≥ Register.tilesPerSocket ∨ min > max then .error Status.invalidArgument
    else .ok ([], { f with interfaceLevels := WordMap.insert tile (max, min) f.interfaceLevels })
  | .getDdrBandwidth => .ok ([f.bandwidth], f)

/-- Answers message number `n`, whose first slot holds `arg`. -/
def respond (f : Firmware) (n arg : UInt32) : Except UInt32 (List UInt32 × Firmware) :=
  if !f.knows n || f.refused.contains n then .error Status.invalidMessage
  else
    match MessageId.ofNumber? n with
    | none => .error Status.invalidMessage
    | some m => f.perform arg m

/-- The numbers of the messages triggered so far. -/
def triggered (f : Firmware) : List UInt32 := f.log.map (·.1)

end Firmware

end FirmwareMailbox

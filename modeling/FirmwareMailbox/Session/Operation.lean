/-
  FirmwareMailbox.Session.Operation — what a session is used for, as values.

  An operation reads something of the machine or changes one of its settings. Besides operations, a
  session can pass the gate and do nothing, send any message, and forget the machine; these together
  are its steps.
-/

import FirmwareMailbox.Session.Fabric
import FirmwareMailbox.Session.Limit
import FirmwareMailbox.Session.Telemetry

namespace FirmwareMailbox

inductive Operation where
  | socketPower (socket : Nat)
  | powerLimit (socket : Nat)
  | maxPowerLimit (socket : Nat)
  | procHot (socket : Nat)
  | fabricClocks (socket : Nat)
  | fabricClock (socket : Nat)
  | memoryClock (socket : Nat)
  | coreClockLimit (socket : Nat)
  | activePercent (socket : Nat)
  | ddrBandwidth (socket : Nat)
  | ddrMax (socket : Nat)
  | ddrUsed (socket : Nat)
  | ddrUsedPercent (socket : Nat)
  | firmwareVersion
  | interfaceVersion
  | busAfter (index : Nat)
  | lowestBuses
  | cpuBoost (cpu : Nat)
  | setPowerLimit (socket : Nat) (limit : UInt32)
  | setCpuBoost (cpu : Nat) (mhz : UInt32)
  | setSocketBoost (socket : Nat) (mhz : UInt32)
  | setSystemBoost (mhz : UInt32)
  | setFabricState (socket : Nat) (state : FabricState)
  | setInterfaceState (bus : UInt8) (state : InterfaceState)
  | setLinkWidth (min max : LinkWidth)
  | setLinkWidthAuto
  deriving DecidableEq, Repr

/-- What an operation or a step that succeeds answers. -/
inductive Answer where
  | nothing
  | flag (b : Bool)
  | word (w : UInt32)
  | words (ws : List UInt32)
  | clocks (c : Session.FabricClocks)
  | bandwidth (b : DdrBandwidth)
  | version (v : FirmwareVersion)
  /-- The lowest bus of a tile and the index to go on with. -/
  | bus (lowest : UInt8) (next : Nat)
  | buses (lowest : List UInt8)
  deriving DecidableEq, Repr

namespace Operation

def perform (s : Session) : Operation → Job Answer
  | socketPower n => .word <$> s.socketPower n
  | powerLimit n => .word <$> s.powerLimit n
  | maxPowerLimit n => .word <$> s.maxPowerLimit n
  | procHot n => .flag <$> s.procHot n
  | fabricClocks n => .clocks <$> s.fabricClocks n
  | fabricClock n => .word <$> s.fabricClock n
  | memoryClock n => .word <$> s.memoryClock n
  | coreClockLimit n => .word <$> s.coreClockLimit n
  | activePercent n => .word <$> s.activePercent n
  | ddrBandwidth n => .bandwidth <$> s.ddrBandwidth n
  | ddrMax n => .word <$> s.ddrMax n
  | ddrUsed n => .word <$> s.ddrUsed n
  | ddrUsedPercent n => .word <$> s.ddrUsedPercent n
  | firmwareVersion => .version <$> s.firmwareVersion
  | interfaceVersion => .word <$> s.interfaceVersion
  | busAfter i => (fun (b, next) => .bus b next) <$> s.busAfter i
  | lowestBuses => .buses <$> s.lowestBuses
  | cpuBoost cpu => .word <$> s.cpuBoost cpu
  | setPowerLimit n limit => (fun _ => .nothing) <$> s.setPowerLimit n limit
  | setCpuBoost cpu mhz => (fun _ => .nothing) <$> s.setCpuBoost cpu mhz
  | setSocketBoost n mhz => (fun _ => .nothing) <$> s.setSocketBoost n mhz
  | setSystemBoost mhz => (fun _ => .nothing) <$> s.setSystemBoost mhz
  | setFabricState n p => (fun _ => .nothing) <$> s.setFabricState n p
  | setInterfaceState b p => (fun _ => .nothing) <$> s.setInterfaceState b p
  | setLinkWidth min max => (fun _ => .nothing) <$> s.setLinkWidth min max
  | setLinkWidthAuto => (fun _ => .nothing) <$> s.setLinkWidthAuto

end Operation

inductive Step where
  | operation (op : Operation)
  | gate (m? : Option MessageId)
  | exchange (socket : Nat) (m : Message)
  | forget
  deriving DecidableEq, Repr

def Step.perform (s : Session) : Step → Job Answer
  | operation op => op.perform s
  | gate m? => (fun _ => .nothing) <$> s.gate m?
  | exchange n m => .words <$> s.exchange n m
  | forget => (fun _ => .nothing) <$> s.forget

end FirmwareMailbox

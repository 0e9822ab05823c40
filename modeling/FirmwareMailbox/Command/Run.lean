/-
  FirmwareMailbox.Command.Run — what the commands do.

  A command that reads prints a line for each socket it goes to, in order, up to the first socket
  that fails. Setting the power limit of several sockets is finished before any limit is read back.
  A name that is no state or width is refused before anything is asked of the machine.
-/

import FirmwareMailbox.Command.Basic
import FirmwareMailbox.Session.Fabric
import FirmwareMailbox.Session.Limit
import FirmwareMailbox.Session.Telemetry

namespace FirmwareMailbox.Command

open Text

def printLine (line : String) : Job Unit := Job.ask (.print (line ++ "\n"))

/-- A word in decimal with its unit. -/
def measure (w : UInt32) (unit : String) : String := decimal w.toNat ++ " " ++ unit

/-- Reads one thing of a socket, as it is shown. -/
def display (s : Session) (socket : Nat) : Reading → Job String
  | .power => do
    let w ← s.socketPower socket
    return measure w "mW"
  | .powerLimit => do
    let w ← s.powerLimit socket
    return measure w "mW"
  | .maxPower => do
    let w ← s.maxPowerLimit socket
    return measure w "mW"
  | .procHot => do
    let hot ← s.procHot socket
    return if hot then "active" else "inactive"
  | .fabricClocks => do
    let c ← s.fabricClocks socket
    return "fclk " ++ measure c.fabric "MHz, mclk " ++ measure c.memory "MHz"
  | .coreClockLimit => do
    let w ← s.coreClockLimit socket
    return measure w "MHz"
  | .activePercent => do
    let w ← s.activePercent socket
    return measure w "%"
  | .ddrBandwidth => do
    let b ← s.ddrBandwidth socket
    return "max " ++ measure b.maxGbps "GB/s, utilized " ++ measure b.usedGbps "GB/s (" ++
      measure b.usedPercent "%)"

/-- The sockets of a target, in order. -/
def sockets (s : Session) : Target → Job (List Nat)
  | .socket n => return [n]
  | .all => do
    let inv ← s.gate none
    return List.range inv.topology.socketCount

/-- Does something to each socket of a list, up to the first failure. -/
def forEach (act : Nat → Job Unit) : List Nat → Job Unit
  | [] => return ()
  | n :: rest => do
    act n
    forEach act rest

/-- Prints one line for each socket of a target. -/
def showAll (s : Session) (t : Target) (what : Reading) : Job Unit := do
  let ns ← sockets s t
  forEach (fun n => do
    let shown ← display s n what
    printLine ("socket " ++ decimal n ++ ": " ++ shown)) ns

def showVersion (s : Session) : Job Unit := do
  let firmware ← s.firmwareVersion
  printLine ("SMU firmware version: " ++ firmware.text)
  let interface ← s.interfaceVersion
  printLine ("HSMP interface version: " ++ decimal interface.toNat)

def setPower (s : Session) (t : Target) (limit : UInt32) : Job Unit := do
  let ns ← sockets s t
  forEach (fun n => s.setPowerLimit n limit) ns
  showAll s t .powerLimit

def boostLimit (s : Session) : BoostTarget → Option UInt32 → Job Unit
  | .cpu n, some mhz => s.setCpuBoost n mhz
  | .socket n, some mhz => s.setSocketBoost n mhz
  | .all, some mhz => s.setSystemBoost mhz
  | .cpu n, none => do
    let mhz ← s.cpuBoost n
    printLine ("cpu " ++ decimal n ++ ": " ++ measure mhz "MHz")
  | _, none => throw (.invalidArgument .boostReadNotByCpu)

/-- The setting of a name, or the refusal of a name that is none. -/
def named {α : Type} (what name : String) (a? : Option α) : Except Error α :=
  match a? with
  | some a => .ok a
  | none => .error (.invalidArgument (.unknownName what name))

def setWidths (s : Session) : List String → Job Unit
  | ["auto"] => s.setLinkWidthAuto
  | [lo, hi] => do
    let min ← named "xGMI width" lo (LinkWidth.ofName? lo)
    let max ← named "xGMI width" hi (LinkWidth.ofName? hi)
    s.setLinkWidth min max
  | _ => throw (.invalidArgument .widthUsage)

def setFabric (s : Session) (t : Target) (name : String) : Job Unit := do
  let p ← named "DF P-state" name (FabricState.ofName? name)
  let ns ← sockets s t
  forEach (fun n => s.setFabricState n p) ns

def setInterface (s : Session) (bus : UInt8) (name : String) : Job Unit := do
  let p ← named "NBIO P-state" name (InterfaceState.ofName? name)
  s.setInterfaceState bus p

def tileLine (t : Tile) : String :=
  "  socket " ++ decimal t.socket ++ " tile " ++ decimal t.id.toNat ++ ": " ++ t.address.text ++
    " buses " ++ hexByte t.firstBus.toNat ++ "-" ++ hexByte t.lastBus.toNat

def cpuLine (c : Nat × CpuEntry) : String :=
  "  cpu " ++ decimal c.1 ++ ": socket " ++ decimal c.2.socket ++ " apic 0x" ++
    hexUpper 1 c.2.apicId.toNat

/-- Walks over the root complexes from `index` on, printing the lowest bus of each; `steps` is how
many there are at most. -/
def walkBuses (s : Session) (index : Nat) : (steps : Nat) → Job Unit
  | 0 => return ()
  | steps + 1 => do
    let (bus, next) ← s.busAfter index
    Job.ask (.print (" " ++ hexByte bus.toNat))
    if next ≠ 0 then walkBuses s next steps

def printLines : List String → Job Unit
  | [] => return ()
  | l :: rest => do
    printLine l
    printLines rest

/-- Everything that was learned about the machine. -/
def listMachine (s : Session) : Job Unit := do
  let inv ← s.gate none
  printLine ("processor: " ++ inv.processor.name)
  printLine ("sockets: " ++ decimal inv.topology.socketCount)
  printLines (inv.topology.tiles.map tileLine)
  printLine ("cpus: " ++ decimal inv.cpus.size)
  printLines (inv.cpus.entries.map cpuLine)
  Job.ask (.print "buses:")
  walkBuses s 0 inv.topology.tiles.length
  printLine ""

def run (s : Session) : Command → Job Unit
  | .version => showVersion s
  | .read what t => showAll s t what
  | .setPowerLimit t limit => setPower s t limit
  | .boost t set? => boostLimit s t set?
  | .linkWidth widths => setWidths s widths
  | .fabricState t name => setFabric s t name
  | .interfaceState bus name => setInterface s bus name
  | .list => listMachine s

/-- What is printed about a failed command. -/
def failureText (e : Error) : String :=
  "ERROR: " ++ e.code.describe ++ "\n" ++ e.hint ++ "\n"

end FirmwareMailbox.Command

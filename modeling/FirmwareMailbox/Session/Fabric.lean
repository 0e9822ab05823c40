/-
  FirmwareMailbox.Session.Fabric — the states of the data fabric, of the PCIe interfaces and of the
  links between sockets.
-/

import FirmwareMailbox.Session.Basic

namespace FirmwareMailbox.Session

/-- Pins the state of a socket's data fabric, or leaves it to the firmware. The gate asks for the
higher of the two messages. -/
def setFabricState (s : Session) (socket : Nat) (p : FabricState) : Job Unit := do
  let inv ← s.gate (some .autoDfPstate)
  let m : Message := match p.level with
    | some level => { id := .setDfPstate, args := [level] }
    | none => { id := .autoDfPstate }
  let _ ← s.deliver inv socket m
  return ()

/-- Sets the state of the interface of the tile that has a bus. -/
def setInterfaceState (s : Session) (bus : UInt8) (p : InterfaceState) : Job Unit := do
  let inv ← s.gate (some .setNbioDpmLevel)
  let tile ← inv.topology.busTile bus
  let (lo, hi) := p.levels
  let arg : LevelRange := { tile := tile.id, max := hi, min := lo }
  match Layout.fault? arg with
  | some f => throw (.invalidArgument (.levels f))
  | none =>
    let _ ← s.deliver inv tile.socket { id := .setNbioDpmLevel, args := [Layout.encode arg] }
    return ()

/-- Bounds the width of the links on every socket. A range the wrong way round is refused before
anything else; a width below the processor's narrowest is refused behind the gate. -/
def setLinkWidth (s : Session) (min max : LinkWidth) : Job Unit := do
  let arg : WidthRange := { min := min.widthClass, max := max.widthClass }
  match Layout.fault? arg with
  | some f => throw (.invalidArgument (.widths min max f))
  | none =>
    let inv ← s.gate (some .setXgmiLinkWidth)
    let floor := LinkWidth.floor inv.processor
    if min < floor then throw (.invalidArgument (.belowFloor min floor))
    s.deliverAll inv { id := .setXgmiLinkWidth, args := [Layout.encode arg] }

/-- Lets the width of the links float over all that the processor allows. -/
def setLinkWidthAuto (s : Session) : Job Unit := do
  let inv ← s.gate (some .setXgmiLinkWidth)
  s.setLinkWidth (LinkWidth.floor inv.processor) .x16

end FirmwareMailbox.Session

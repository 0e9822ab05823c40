/-
  FirmwareMailbox.Topology.Basic — the root complex tiles of the machine and the buses they have.

  A table lists the tiles by their lowest bus; each has the buses up to the next one's lowest, the
  last up to 0xFF. Four tiles in a row are a socket, and its first tile carries its mailbox.
-/

import FirmwareMailbox.Error.Basic

namespace FirmwareMailbox

structure Tile where
  handle : DeviceHandle
  address : PciAddress
  /-- Place in the table. -/
  index : Nat
  socket : Nat
  /-- The number the hardware gives the tile within its socket. -/
  id : UInt8
  firstBus : UInt8
  /-- The highest bus of the tile. -/
  lastBus : UInt8
  deriving DecidableEq, Repr

def Tile.covers (t : Tile) (bus : UInt8) : Bool := t.firstBus ≤ bus && bus ≤ t.lastBus

structure Topology where
  tiles : List Tile
  deriving DecidableEq, Repr

namespace Topology

def socketCount (t : Topology) : Nat := t.tiles.length / Register.tilesPerSocket

/-- The tile that carries the mailbox of a socket. -/
def mailboxTile (t : Topology) (socket : Nat) : Except Error Tile :=
  if t.socketCount ≤ socket then .error (.invalidArgument (.absentSocket socket t.socketCount))
  else
    match t.tiles[socket * Register.tilesPerSocket]? with
    | some tile => .ok tile
    | none => .error (.outOfBounds (socket * Register.tilesPerSocket))

def busTile (t : Topology) (bus : UInt8) : Except Error Tile :=
  match t.tiles.find? (·.covers bus) with
  | some tile => .ok tile
  | none => .error (.invalidArgument (.unownedBus bus))

/-- A step of a walk over the tiles: the lowest bus of the tile at `index`, and the index to go on
with, which is 0 after the last tile. -/
def busAfter (t : Topology) (index : Nat) : Except Error (UInt8 × Nat) :=
  match t.tiles[index]? with
  | none => .error (.invalidArgument (.busIndex index))
  | some tile => .ok (tile.firstBus, if index + 1 < t.tiles.length then index + 1 else 0)

/-- The lowest bus of every tile. -/
def lowestBuses (t : Topology) : List UInt8 := t.tiles.map (·.firstBus)

end Topology

/-- The tile as diagnostics show it; its handle does not show. -/
def Tile.fieldsText (t : Tile) : String :=
  "Tile \x7b address: " ++ t.address.fieldsText ++ ", index: " ++ Text.decimal t.index ++
    ", socket: " ++ Text.decimal t.socket ++ ", id: " ++ Text.decimal t.id.toNat ++
    ", bus_base: " ++ hexByte t.firstBus.toNat ++ ", bus_limit: " ++ hexByte t.lastBus.toNat ++
    " \x7d"

def Topology.fieldsText (t : Topology) : String :=
  "Topology \x7b tiles: [" ++ ", ".intercalate (t.tiles.map (·.fieldsText)) ++ "] \x7d"

end FirmwareMailbox

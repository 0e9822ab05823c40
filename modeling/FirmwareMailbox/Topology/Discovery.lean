/-
  FirmwareMailbox.Topology.Discovery — the table of tiles, from the devices of a bus scan.

  The devices are put in the order of their buses, which fixes the bus range of each; the order of
  the scan does not count. A machine has one socket or two, its lowest bus is 0, and no two devices
  share a bus.

  The order of the buses says nothing about the numbers that the hardware gives the tiles. So each
  tile asks the bus number register of its own place in the socket: the register at place k names
  a bus of the tile that has number k. A machine is refused if a register names a bus of another
  socket, or of a tile that has its number already.
-/

import FirmwareMailbox.Register.Aperture

namespace FirmwareMailbox.Topology

/-- The highest bus. -/
def highestBus : UInt8 := 0xFF

/-- The first two neighbours on the same bus. -/
def sharedBus? : List PciDevice → Option (PciDevice × PciDevice)
  | a :: b :: rest =>
    if a.address.bus = b.address.bus then some (a, b) else sharedBus? (b :: rest)
  | _ => none

/-- The tiles of devices in bus order, counted from `index`, their numbers still open. -/
def tilesFrom (index : Nat) : List PciDevice → List Tile
  | [] => []
  | d :: rest =>
    { handle := d.handle
      address := d.address
      index := index
      socket := index / Register.tilesPerSocket
      id := 0
      firstBus := d.address.bus
      lastBus := match rest with
        | next :: _ => next.address.bus - 1
        | [] => highestBus } :: tilesFrom (index + 1) rest

/-- The devices in the order of their buses; those on one bus stay in the order they came in. -/
def byBus (devices : List PciDevice) : List PciDevice :=
  devices.mergeSort fun a b => a.address.bus ≤ b.address.bus

/-- The tiles of a scan, their numbers still open. -/
def arrange (devices : List PciDevice) : Except Inconsistency (List Tile) :=
  let sorted := byBus devices
  if devices.length ≠ 4 ∧ devices.length ≠ 8 then .error (.deviceCount devices.length)
  else
    match sharedBus? sorted with
    | some (a, b) => .error (.sharedBus a.address b.address)
    | none =>
      match sorted with
      | [] => .error (.deviceCount 0)
      | first :: _ =>
        if first.address.bus ≠ 0 then .error (.lowestBus first.address.bus)
        else .ok (tilesFrom 0 sorted)

/-- The bus that the register of a tile's own place names. -/
def reportedBus (tile : Tile) : Job UInt8 := do
  let blank : Register BusNumber :=
    .blank (Register.busNumber (tile.index % Register.tilesPerSocket))
  let word ← Aperture.smn.read tile.handle blank.address
  return (blank.fill word).fields.base

/-- The place of the table that `tile`'s report of `bus` gives a number to; `ids` are the numbers
given so far. -/
def claim (tiles : List Tile) (ids : List (Option UInt8)) (tile : Tile) (bus : UInt8) :
    Except Inconsistency Nat :=
  match tiles.find? (·.covers bus) with
  | none => .error (.unmappedBus bus)
  | some owner =>
    if owner.socket ≠ tile.socket then
      .error (.foreignBus tile.socket (tile.index % Register.tilesPerSocket) bus owner.socket)
    else
      match ids[owner.index]? with
      | some none => .ok owner.index
      | _ => .error (.repeatedBus bus)

/-- Gives numbers to places of the table, asking one tile after the other. -/
def numberTiles (tiles : List Tile) : List Tile → List (Option UInt8) → Job (List (Option UInt8))
  | [], ids => return ids
  | tile :: rest, ids => do
    let bus ← reportedBus tile
    match claim tiles ids tile bus with
    | .error c => throw (.topology c)
    | .ok place =>
      let number := UInt8.ofNat (tile.index % Register.tilesPerSocket)
      numberTiles tiles rest (ids.set place (some number))

/-- The table of the devices of a scan: every tile has its number, or there is no table. -/
def ofDevices (devices : List PciDevice) : Job Topology := do
  match arrange devices with
  | .error c => throw (.topology c)
  | .ok tiles =>
    let ids ← numberTiles tiles tiles (tiles.map fun _ => none)
    return ⟨tiles.zipWith (fun tile id => { tile with id := id.getD 0 }) ids⟩

end FirmwareMailbox.Topology

/-
  FirmwareMailbox.Capability.Negotiation — whether every mailbox answers, and which versions the
  first one reports.

  Each socket is sent the test message, whose response is its argument plus one. Socket 0 is asked
  for the versions, right after its test; what later sockets run does not matter. A machine is
  unusable as a whole if one socket fails.
-/

import FirmwareMailbox.Message.Exchange

namespace FirmwareMailbox.Capabilities

/-- The argument of the test message. -/
def testArgument : UInt32 := 1

/-- Sends a message that answers one word to the mailbox of a tile, before any version is known. -/
def askWord (c : Config) (tile : Tile) (m : Message) : Job UInt32 := do
  let words ← { m with responseLength := 1 : Message }.exchange c tile.handle none
  Job.word words 0

/-- Tests the mailbox of one socket. -/
def testSocket (c : Config) (socket : Nat) (tile : Tile) : Job Unit := do
  let answer ← askWord c tile { id := .test, args := [testArgument] }
  if answer ≠ testArgument + 1 then
    throw (.unsupported (.testAnswer socket (testArgument + 1) answer))

/-- The firmware version and interface version that a socket reports. -/
def readVersions (c : Config) (tile : Tile) : Job (FirmwareVersion × UInt32) := do
  let firmware ← askWord c tile { id := .getSmuVersion }
  let interface ← askWord c tile { id := .getInterfaceVersion }
  return (Layout.decode firmware, interface)

/-- Tests `n` sockets from `socket` on. -/
def testSockets (c : Config) (t : Topology) (socket : Nat) : (n : Nat) → Job Unit
  | 0 => return ()
  | n + 1 => do
    let tile ← t.mailboxTile socket
    testSocket c socket tile
    testSockets c t (socket + 1) n

/-- Tests every socket: what the firmware of the first one can do. -/
def negotiate (c : Config) (t : Topology) : Job Capabilities := do
  match t.socketCount with
  | 0 => throw (.topology .noSocket)
  | n + 1 =>
    let tile ← t.mailboxTile 0
    testSocket c 0 tile
    let (firmware, interface) ← readVersions c tile
    testSockets c t 1 n
    if interface = 0 then throw (.unsupported .noInterface)
    return ⟨firmware, interface⟩

end FirmwareMailbox.Capabilities

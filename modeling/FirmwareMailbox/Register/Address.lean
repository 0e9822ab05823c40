/-
  FirmwareMailbox.Register.Address — where the registers are.

  A root complex shows two pairs of index and data register in its configuration space; each pair
  is a window on the 32-bit address space behind the root complex. That space holds the four bus
  number registers, one a tile, and the mailbox: status, message number and eight data slots.
-/

namespace FirmwareMailbox.Register

/-- Root complex tiles in a socket. -/
def tilesPerSocket : Nat := 4

/-- Offsets in configuration space. -/
def smnIndex : UInt32 := 0x60
def smnData : UInt32 := 0x64
def hsmpIndex : UInt32 := 0xC4
def hsmpData : UInt32 := 0xC8

/-- The identity of a root complex: vendor and device. -/
def rootComplexVendor : UInt16 := 0x1022
def rootComplexDevice : UInt16 := 0x1480

/-- The bus number register of the tile at `position`, counted within its socket: every socket
has the same four. -/
def busNumber (position : Nat) : UInt32 :=
  0x13B10044 + UInt32.ofNat (position % tilesPerSocket) * 0x00100000

/-- The message register; writing it starts the firmware. -/
def messageId : UInt32 := 0x03B10534

def status : UInt32 := 0x03B10980

/-- Slots in the mailbox, shared by arguments and response. -/
def slotCount : Nat := 8

/-- The data slot `index`, of which the low 32 bits count. -/
def slot (index : Nat) : UInt32 := 0x03B109E0 + 4 * UInt32.ofNat index

end FirmwareMailbox.Register

namespace FirmwareMailbox.Status

/-- Written before a message; the firmware has not answered yet. -/
def notReady : UInt32 := 0x00

def ok : UInt32 := 0x01

/-- The firmware does not know the message. -/
def invalidMessage : UInt32 := 0xFE

/-- The firmware refused an argument. -/
def invalidArgument : UInt32 := 0xFF

end FirmwareMailbox.Status

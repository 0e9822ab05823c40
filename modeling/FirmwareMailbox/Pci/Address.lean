/-
  FirmwareMailbox.Pci.Address — where a PCI device is, and the names of its configuration file.

  The file of a device is `bb/dd.f` below the root, or `dddd:bb/dd.f` in a domain other than 0, in
  lower-case hexadecimal. Reading the names back is freer than writing them: any number of digits
  of either case, a `+` in front, and a domain of 0 are read too, so two names can mean one
  address and only one of them is its own file's.
-/

import FirmwareMailbox.Text.Numeral
import FirmwareMailbox.Text.Path
import FirmwareMailbox.Text.Split

namespace FirmwareMailbox

structure PciAddress where
  domain : UInt32 := 0
  bus : UInt8 := 0
  device : UInt8 := 0
  function : UInt8 := 0
  deriving DecidableEq, Repr, Inhabited

namespace PciAddress

open Text

/-- The address as it is printed; the function is decimal. -/
def text (a : PciAddress) : String :=
  hexUpper 4 a.domain.toNat ++ ":" ++ hexUpper 2 a.bus.toNat ++ ":" ++
    hexUpper 2 a.device.toNat ++ "." ++ decimal a.function.toNat

/-- The name of the directory of the device's bus. -/
def busDirectory (a : PciAddress) : String :=
  if a.domain > 0 then hexLower 4 a.domain.toNat ++ ":" ++ hexLower 2 a.bus.toNat
  else hexLower 2 a.bus.toNat

/-- The name of the device's file in that directory. -/
def slotName (a : PciAddress) : String :=
  hexLower 2 a.device.toNat ++ "." ++ hexLower 1 a.function.toNat

def filePath (root : String) (a : PciAddress) : String :=
  joinPath (joinPath root a.busDirectory) a.slotName

/-- A byte in hexadecimal. -/
def readByte? (cs : List Char) : Option UInt8 := (readNumber? 16 max8 cs).map UInt8.ofNat

/-- The domain and bus that a directory is named for. -/
def readBusDirectory? (name : List Char) : Option (UInt32 × UInt8) :=
  match splitOnce ':' name with
  | some (domain, bus) => do
    let d ← readNumber? 16 max32 domain
    let b ← readByte? bus
    return (UInt32.ofNat d, b)
  | none => (readByte? name).map fun b => (0, b)

/-- The device and function that a file is named for. -/
def readSlot? (name : List Char) : Option (UInt8 × UInt8) := do
  let (device, function) ← splitOnce '.' name
  let d ← readByte? device
  let f ← readByte? function
  return (d, f)

/-- Addresses are ordered by domain, bus, device and function. -/
def le (a b : PciAddress) : Bool :=
  let key := fun (x : PciAddress) =>
    ((x.domain.toNat * 256 + x.bus.toNat) * 256 + x.device.toNat) * 256 + x.function.toNat
  key a ≤ key b

/-- The fields by name, as diagnostics show them. -/
def fieldsText (a : PciAddress) : String :=
  "PciAddress \x7b domain: " ++ decimal a.domain.toNat ++ ", bus: " ++ decimal a.bus.toNat ++
    ", device: " ++ decimal a.device.toNat ++ ", function: " ++ decimal a.function.toNat ++ " \x7d"

end PciAddress

/-- A handle on the open configuration space of one device. -/
abbrev DeviceHandle := Nat

/-- A device found on the bus, with its configuration space open. -/
structure PciDevice where
  address : PciAddress
  vendor : UInt16 := 0x1022
  device : UInt16 := 0x1480
  handle : DeviceHandle
  deriving DecidableEq, Repr

/-- The device as diagnostics show it. -/
def PciDevice.fieldsText (d : PciDevice) : String :=
  "PciDevice \x7b address: " ++ d.address.fieldsText ++ ", vendor_id: 0x" ++
    Text.hexUpper 4 d.vendor.toNat ++ ", device_id: 0x" ++ Text.hexUpper 4 d.device.toNat ++ " \x7d"

end FirmwareMailbox

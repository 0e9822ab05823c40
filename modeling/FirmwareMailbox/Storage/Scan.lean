/-
  FirmwareMailbox.Storage.Scan — the devices that a directory of configuration files shows.

  Below the root there is a directory for every bus and in it a file for every device. A name that
  does not parse, a bus that is no directory and a file whose first word cannot be read are passed
  over. A file whose first word has the vendor and device asked for is a find, and the file of its
  address is opened; that this fails is an error of the whole scan.
-/

import FirmwareMailbox.Storage.Lock
import FirmwareMailbox.Storage.Word

namespace FirmwareMailbox.Storage

/-- The address that the names of a bus directory and of a file in it spell. -/
def spelledAddress? (bus slot : String) : Option PciAddress := do
  let (domain, busNumber) ← PciAddress.readBusDirectory? bus.toList
  let (device, function) ← PciAddress.readSlot? slot.toList
  return ⟨domain, busNumber, device, function⟩

/-- Whether the first word of a configuration file names this vendor and device. -/
def hasIdentity (n : Node) (vendor device : UInt16) : Bool :=
  match n.readWord "" 0 with
  | .ok id => id.toUInt16 = vendor && (id >>> 16).toUInt16 = device
  | .error _ => false

/-- The addresses that the entries of a bus directory spell and whose files match. -/
def matchesIn (bus : String) (vendor device : UInt16) (n : Node) : List PciAddress :=
  match n with
  | .directory slots =>
    slots.filterMap fun (slot, file) =>
      if hasIdentity file vendor device then spelledAddress? bus slot else none
  | _ => []

/-- The addresses of every matching file below the root, in directory order. -/
def matching (root : Node) (vendor device : UInt16) : List PciAddress :=
  match root with
  | .directory buses => buses.flatMap fun (bus, n) => matchesIn bus vendor device n
  | _ => []

/-- Opens the files of addresses; the handles count from `first`. -/
def openAll (tree : Node) (root : String) (vendor device : UInt16) (first : DeviceHandle) :
    List PciAddress → Except Error (List (PciDevice × OpenFile))
  | [] => .ok []
  | a :: rest =>
    match openConfig tree root a with
    | .error f => .error (.access f)
    | .ok file => do
      let found ← openAll tree root vendor device (first + 1) rest
      return (⟨a, vendor, device, first⟩, file) :: found

/-- The devices with this identity below `root` and their files; the handles count from `first`. -/
def scan (tree : Node) (root : String) (vendor device : UInt16) (first : DeviceHandle := 0) :
    Except Error (List (PciDevice × OpenFile)) :=
  match tree.locate root >>= tree.get with
  | .error e => .error (.bus (.listing root (.ofErrno e)))
  | .ok n =>
    if n.isDirectory then openAll tree root vendor device first (matching n vendor device)
    else .error (.bus (.listing root (.ofErrno .notDirectory)))

end FirmwareMailbox.Storage

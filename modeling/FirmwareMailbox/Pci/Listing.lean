/-
  FirmwareMailbox.Pci.Listing — the system's list of PCI devices, one a line.

  A line starts with two hexadecimal numbers: bus in bits 15:8, device in 7:3 and function in 2:0;
  then vendor in bits 31:16 and device in 15:0. The list has the devices of domain 0.
-/

import FirmwareMailbox.Pci.Address
import FirmwareMailbox.Text.Blank

namespace FirmwareMailbox.PciAddress

open Text

/-- The words of a line, blanks between them. -/
def listingWords (line : List Char) : List (List Char) :=
  (pieces ' ' (line.map fun c => if isBlank c then ' ' else c)).filter (· ≠ [])

/-- The address that a line gives to a device of this identity. -/
def ofListing? (vendor device : UInt16) (line : List Char) : Option PciAddress :=
  match listingWords line with
  | place :: identity :: _ => do
    let p ← readNumber? 16 max16 place
    let i ← readNumber? 16 max32 identity
    if i = vendor.toNat * 0x10000 + device.toNat then
      some { bus := UInt8.ofNat (p / 256), device := UInt8.ofNat (p % 256 / 8),
             function := UInt8.ofNat (p % 8) }
    else none
  | _ => none

/-- The addresses of all devices of this identity. -/
def ofListing (vendor device : UInt16) (text : List Char) : List PciAddress :=
  (lines text).filterMap (ofListing? vendor device)

end FirmwareMailbox.PciAddress

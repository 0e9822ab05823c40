/-
  FirmwareMailbox.Error.Cause — what can go wrong, cause by cause, and the sentence for each.

  Each class of failure has its causes; `other` holds a sentence that came from elsewhere.
-/

import FirmwareMailbox.IoError
import FirmwareMailbox.Message.Basic
import FirmwareMailbox.Pci.Address
import FirmwareMailbox.Power.Setting
import FirmwareMailbox.Register.Address
import FirmwareMailbox.Register.Layout
import FirmwareMailbox.Text.Quoted

namespace FirmwareMailbox

open Text

/-- A number as `0x` and at least two upper-case digits. -/
def hexByte (n : Nat) : String := "0x" ++ hexUpper 2 n

/-- Why the caller may not go on. -/
inductive Denial where
  | notRoot
  | lockFile (path : String) (cause : IoError)
  | other (text : String)
  deriving DecidableEq, Repr

def Denial.message : Denial → String
  | .notRoot => "HSMP access requires root"
  | .lockFile path e => "Failed to open " ++ path ++ ": " ++ e.message
  | .other text => text

/-- Why this machine cannot be managed. -/
inductive Absence where
  /-- The firmware stopped answering, or negotiation with it failed, earlier in this process. -/
  | disabled
  | vendor (p : Processor)
  | model (family model : UInt32)
  /-- The test message came back with another word than its argument plus one. -/
  | testAnswer (socket : Nat) (expected received : UInt32)
  | noInterface
  | other (text : String)
  deriving DecidableEq, Repr

def Absence.message : Absence → String
  | .disabled => "HSMP is disabled"
  | .vendor p => p.name ++ " processors do not implement HSMP"
  | .model f m =>
    "AMD Family " ++ hexUpper 1 f.toNat ++ "h Model " ++ hexUpper 1 m.toNat ++
      "h does not implement HSMP"
  | .testAnswer s e r =>
    "HSMP test failed on socket " ++ decimal s ++ ", expected " ++ decimal e.toNat ++
      ", received " ++ decimal r.toNat
  | .noInterface => "firmware reports HSMP interface version 0"
  | .other text => text

/-- What is wrong with an argument. -/
inductive Misuse where
  | messageSize (m : MessageId) (args response : Nat)
  | absentSocket (socket sockets : Nat)
  | unownedBus (bus : UInt8)
  | busIndex (index : Nat)
  | absentCpu (cpu : Nat)
  | wideApicId (cpu : Nat) (apicId : UInt32)
  | widths (min max : LinkWidth) (fault : LayoutFault)
  | belowFloor (min floor : LinkWidth)
  | levels (fault : LayoutFault)
  | unknownName (what : String) (name : String)
  | boostReadNotByCpu
  | widthUsage
  | other (text : String)
  deriving DecidableEq, Repr

def Misuse.message : Misuse → String
  | .messageSize m a r =>
    m.name ++ " carries " ++ decimal a ++ " arguments and " ++ decimal r ++
      " response words, at most " ++ decimal Register.slotCount ++ " each"
  | .absentSocket s n =>
    "socket " ++ decimal s ++ " is not present (" ++ decimal n ++ " sockets)"
  | .unownedBus b => "bus " ++ hexByte b.toNat ++ " has no IOHC"
  | .busIndex i => "bus index " ++ decimal i ++ " out of range"
  | .absentCpu c => "CPU " ++ decimal c ++ " is not present"
  | .wideApicId c a =>
    "CPU " ++ decimal c ++ " has APIC ID 0x" ++ hexUpper 1 a.toNat ++
      ", which does not fit the boost limit argument"
  | .widths lo hi f => "xGMI " ++ lo.name ++ ".." ++ hi.name ++ ": " ++ f.message
  | .belowFloor lo fl =>
    "xGMI width " ++ lo.name ++ " is below the " ++ fl.name ++ " minimum of this processor"
  | .levels f => f.message
  | .unknownName what name => "unknown " ++ what ++ " " ++ quoted name
  | .boostReadNotByCpu => "boost limits can only be read per CPU"
  | .widthUsage => "expected <min> <max> or auto"
  | .other text => text

/-- Why the root complexes make no machine. -/
inductive Inconsistency where
  | deviceCount (n : Nat)
  | sharedBus (a b : PciAddress)
  | lowestBus (bus : UInt8)
  /-- A tile reports a bus that no tile has. -/
  | unmappedBus (bus : UInt8)
  /-- The tile at `position` of `socket` reports a bus of socket `owner`. -/
  | foreignBus (socket position : Nat) (bus : UInt8) (owner : Nat)
  | repeatedBus (bus : UInt8)
  | noSocket
  | other (text : String)
  deriving DecidableEq, Repr

def Inconsistency.message : Inconsistency → String
  | .deviceCount n => "expected 4 or 8 IOHC devices, found " ++ decimal n
  | .sharedBus a b =>
    "IOHC devices " ++ a.text ++ " and " ++ b.text ++ " share bus " ++ hexByte a.bus.toNat
  | .lowestBus b =>
    "lowest IOHC is on bus " ++ hexByte b.toNat ++ ", buses below it are unowned"
  | .unmappedBus b => "unable to map bus " ++ hexByte b.toNat ++ " to an IOHC device"
  | .foreignBus s p b o =>
    "socket " ++ decimal s ++ " IOHCMISC" ++ decimal p ++ " reports bus " ++ hexByte b.toNat ++
      " of socket " ++ decimal o
  | .repeatedBus b =>
    "bus " ++ hexByte b.toNat ++ " reported by more than one IOHCMISC block"
  | .noSocket => "no socket to probe"
  | .other text => text

/-- Why a device cannot be reached. -/
inductive BusFault where
  | listing (root : String) (cause : IoError)
  | deviceRemoved
  | other (text : String)
  deriving DecidableEq, Repr

def BusFault.message : BusFault → String
  | .listing root e => "Failed to list " ++ root ++ ": " ++ e.message
  | .deviceRemoved => "device removed"
  | .other text => text

/-- What is wrong with the configuration. -/
inductive Misconfiguration where
  | polls (text : String)
  | other (text : String)
  deriving DecidableEq, Repr

def Misconfiguration.message : Misconfiguration → String
  | .polls s => "HSMP_MAILBOX_POLLS must be a positive integer, got " ++ quoted s
  | .other text => text

/-- What is wrong with the list of processors. -/
inductive Malformation where
  | unreadable (path : String) (cause : IoError)
  | badField (name value : String)
  | incomplete (cpu : Nat)
  | other (text : String)
  deriving DecidableEq, Repr

def Malformation.message : Malformation → String
  | .unreadable path e => "Failed to read " ++ path ++ ": " ++ e.message
  | .badField name value => "bad " ++ name ++ " value " ++ quoted value
  | .incomplete cpu => "processor " ++ decimal cpu ++ " has no physical id or apicid"
  | .other text => text

/-- Why a gauge could not be registered. -/
inductive GaugeFault where
  | duplicate
  | other (text : String)
  deriving DecidableEq, Repr

def GaugeFault.message : GaugeFault → String
  | .duplicate => "Duplicate metrics collector registration attempted"
  | .other text => "Error: " ++ text

/-- The step of an access to a configuration file that failed. -/
inductive AccessStep where
  | opening
  | seeking (offset : UInt32)
  | reading (offset : UInt32)
  | writing (offset : UInt32)
  deriving DecidableEq, Repr

/-- A failed access to the configuration file `path`. -/
structure AccessFault where
  step : AccessStep
  path : String
  cause : IoError
  deriving DecidableEq, Repr

def AccessFault.message (f : AccessFault) : String :=
  let action := match f.step with
    | .opening => "open PCI config space "
    | .seeking o => "seek to offset 0x" ++ hexUpper 1 o.toNat ++ " of "
    | .reading o => "read offset 0x" ++ hexUpper 1 o.toNat ++ " of "
    | .writing o => "write offset 0x" ++ hexUpper 1 o.toNat ++ " of "
  "Failed to " ++ action ++ f.path ++ ": " ++ f.cause.message

end FirmwareMailbox

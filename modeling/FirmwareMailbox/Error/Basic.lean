/-
  FirmwareMailbox.Error.Basic — the failures of the library.

  An error has a cause and a sentence for it; a kind, by which callers react; a code, which is
  either the status word that the firmware answered or an error number of the system; and a hint
  for whoever sits in front of the machine. Only an answer of the firmware gives a hardware code.

  `outOfBounds` is no failure of the machine but the end of the program: an index for which there is
  no place. Only the CPU table raises it, for the one number that it has no place for.
-/

import FirmwareMailbox.Error.Cause

namespace FirmwareMailbox

open Text

inductive Error where
  | denied (cause : Denial)
  | unsupported (cause : Absence)
  | versionMismatch (message : MessageId) (required negotiated : UInt32)
  /-- The firmware does not know a message that its interface version has. -/
  | firmwareRejected (message : MessageId)
  | invalidArgument (cause : Misuse)
  | topology (cause : Inconsistency)
  | timeout (message : MessageId) (polls : UInt32)
  | hardware (status : UInt32)
  | bus (cause : BusFault)
  | configuration (cause : Misconfiguration)
  | parse (cause : Malformation)
  | io (cause : IoError)
  | system (errno : Errno)
  | gauge (cause : GaugeFault)
  | access (cause : AccessFault)
  | outOfBounds (index : Nat)
  deriving DecidableEq, Repr

/-- The classes of failure that callers tell apart. -/
inductive ErrorKind where
  | permission
  | unsupported
  | versionMismatch
  | invalidArgument
  | device
  | timeout
  | hardware
  deriving DecidableEq, Repr

/-- Who failed: the firmware with a status word, or the system with an error number. -/
inductive ErrorCode where
  | hardware (status : UInt32)
  | system (errno : Errno)
  deriving DecidableEq, Repr

namespace Error

def message : Error → String
  | denied c => "Permission denied: " ++ c.message
  | unsupported c => "HSMP not supported: " ++ c.message
  | versionMismatch m r n =>
    m.name ++ " requires HSMP interface version " ++ decimal r.toNat ++ ", firmware provides " ++
      decimal n.toNat
  | firmwareRejected m => m.name ++ " is not implemented by this SMU firmware"
  | invalidArgument c => "Invalid argument: " ++ c.message
  | topology c => "Topology discovery failed: " ++ c.message
  | timeout m p =>
    "SMU did not answer " ++ m.name ++ " after " ++ decimal p.toNat ++ " polls, HSMP is disabled"
  | hardware s => "HSMP status 0x" ++ hexUpper 2 s.toNat
  | bus c => "PCI operation failed: " ++ c.message
  | configuration c => "Configuration error: " ++ c.message
  | parse c => "Parse error: " ++ c.message
  | io c => "IO error: " ++ c.message
  | system e => "Nix error: " ++ e.name ++ ": " ++ e.description
  | gauge c => "Prometheus error: " ++ c.message
  | access c => c.message
  | outOfBounds i => "index " ++ decimal i ++ " is out of bounds"

def kind : Error → ErrorKind
  | denied _ => .permission
  | unsupported _ | firmwareRejected _ => .unsupported
  | versionMismatch .. => .versionMismatch
  | invalidArgument _ | configuration _ => .invalidArgument
  | timeout .. => .timeout
  | hardware _ => .hardware
  | io c => if c.isPermissionDenied then .permission else .device
  | system e => if e = .notPermitted ∨ e = .accessDenied then .permission else .device
  | topology _ | bus _ | parse _ | gauge _ | access _ | outOfBounds _ => .device

def code : Error → ErrorCode
  | hardware s => .hardware s
  | denied _ => .system .notPermitted
  | unsupported _ | versionMismatch .. | firmwareRejected _ | timeout .. => .system .notSupported
  | invalidArgument _ | configuration _ | parse _ | outOfBounds _ => .system .invalidArgument
  | topology _ => .system .noDevice
  | system e => .system e
  | io c => .system c.errno
  | access f => .system f.cause.errno
  | bus _ | gauge _ => .system .inputOutput

/-- What to try, by kind of failure. -/
def hint (e : Error) : String :=
  match e.kind with
  | .permission => "HSMP access requires root, re-run with sudo"
  | .unsupported => "HSMP is not supported on this system or is disabled in the BIOS settings"
  | .versionMismatch =>
    "the SMU firmware interface is too old for this operation, a BIOS update may add it"
  | .invalidArgument => "check the socket, CPU, bus and value arguments"
  | .device => "the HSMP root complex devices could not be accessed"
  | .timeout => "the SMU stopped answering, HSMP is likely disabled in the BIOS settings"
  | .hardware => "the SMU firmware rejected the request"

end Error

/-- A code in words. A status word is looked up only when the firmware gave it. -/
def ErrorCode.describe : ErrorCode → String
  | .hardware s =>
    if s = 0 then "Success"
    else if s = Status.invalidMessage then "Invalid HSMP message ID"
    else if s = Status.invalidArgument then "Invalid HSMP argument"
    else "Unknown error"
  | .system e => e.description

end FirmwareMailbox

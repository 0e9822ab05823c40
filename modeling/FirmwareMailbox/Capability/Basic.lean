/-
  FirmwareMailbox.Capability.Basic — what the firmware can do: its own version, and the version of
  the interface, which decides the messages it may be sent.
-/

import FirmwareMailbox.Error.Basic

namespace FirmwareMailbox

structure Capabilities where
  firmware : FirmwareVersion
  /-- The interface version as the firmware reports it. -/
  interfaceVersion : UInt32
  deriving DecidableEq, Repr

namespace Capabilities

/-- The version whose messages are used: never above the highest that is known. -/
def usedVersion (c : Capabilities) : UInt32 :=
  if c.interfaceVersion ≤ MessageId.highestVersion then c.interfaceVersion
  else MessageId.highestVersion

def highestMessage (c : Capabilities) : Option MessageId := MessageId.highestOf c.usedVersion

def permits (c : Capabilities) (m : MessageId) : Bool := m.within c.highestMessage

/-- Refuses a message that the interface version does not have. -/
def require (c : Capabilities) (m : MessageId) : Except Error Unit :=
  if c.permits m then .ok ()
  else .error (.versionMismatch m m.minVersion c.interfaceVersion)

end Capabilities

end FirmwareMailbox

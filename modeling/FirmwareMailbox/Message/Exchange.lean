/-
  FirmwareMailbox.Message.Exchange — one message to the firmware and its answer.

  Under the lock: clear the status, write the arguments to the slots, write the message register,
  which starts the firmware, read the status until it is set, read the response from the slots.

  A status that stays clear for all its reads is the only sign of firmware that does not answer;
  the process gives up on it for good. A refusal of the message itself is told apart by `highest`,
  the highest message of the interface version if that is known: up to it the firmware promised the
  message, so it breaks its promise.
-/

import FirmwareMailbox.Config
import FirmwareMailbox.Message.Basic
import FirmwareMailbox.Register.Aperture

namespace FirmwareMailbox.Message

/-- Arguments and response both have to fit the slots. -/
def checkSize (m : Message) : Except Error Unit :=
  if m.args.length > Register.slotCount ∨ m.responseLength > Register.slotCount then
    .error (.invalidArgument (.messageSize m.id m.args.length m.responseLength))
  else .ok ()

/-- Writes words to the slots from slot `i` on. -/
def writeSlots (device : DeviceHandle) (i : Nat) : List UInt32 → Job Unit
  | [] => return ()
  | w :: ws => do
    Aperture.hsmp.write device (Register.slot i) w
    writeSlots device (i + 1) ws

/-- Reads `n` words from the slots from slot `i` on. -/
def readSlots (device : DeviceHandle) (i : Nat) : (n : Nat) → Job (List UInt32)
  | 0 => return []
  | n + 1 => do
    let w ← Aperture.hsmp.read device (Register.slot i)
    let ws ← readSlots device (i + 1) n
    return w :: ws

/-- Reads the status at most `budget` times, until it is set. -/
def awaitStatus (device : DeviceHandle) (interval : Nat) : (budget : Nat) → Job UInt32
  | 0 => return Status.notReady
  | n + 1 => do
    Job.ask (.pause interval)
    let status ← Aperture.hsmp.read device Register.status
    if status = Status.notReady then awaitStatus device interval n else return status

/-- What a status means for a message: none, or why there is no response. -/
def refusal? (m : MessageId) (highest : Option MessageId) (polls status : UInt32) : Option Error :=
  if status = Status.notReady then some (.timeout m polls)
  else if status = Status.invalidMessage ∧ m.within highest then some (.firmwareRejected m)
  else if status ≠ Status.ok then some (.hardware status)
  else none

/-- The exchange proper. -/
def converse (c : Config) (device : DeviceHandle) (m : Message) (highest : Option MessageId) :
    Job (List UInt32) := do
  Aperture.hsmp.write device Register.status Status.notReady
  writeSlots device 0 m.args
  Aperture.hsmp.write device Register.messageId m.id.number
  let status ← awaitStatus device c.interval c.polls.toNat
  match refusal? m.id highest c.polls status with
  | none => readSlots device 0 m.responseLength
  | some e =>
    if status = Status.notReady then Job.ask .disable
    throw e

/-- Sends a message to the mailbox behind `device`: the words of the response. -/
def exchange (c : Config) (device : DeviceHandle) (m : Message) (highest : Option MessageId) :
    Job (List UInt32) := do
  m.checkSize
  if ← Job.ask .isDisabled then throw (.unsupported .disabled)
  Job.locked c.lockPath (m.converse c device highest)

end FirmwareMailbox.Message

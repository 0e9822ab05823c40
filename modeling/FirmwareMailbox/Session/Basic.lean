/-
  FirmwareMailbox.Session.Basic — the gate in front of every operation.

  An operation passes `gate` first: the caller must be privileged, the process must not have given
  up on the firmware, the machine must be known, and the interface version must have the message.
  The first operation learns the machine; what it learned, all or nothing, is remembered until it
  is forgotten on request.

  A negotiation that the firmware failed says that this machine has no usable mailbox, so the
  process gives up. A failure of the system says nothing of the kind, and the next operation learns
  the machine anew.
-/

import FirmwareMailbox.Capability.Negotiation
import FirmwareMailbox.Processor.Support
import FirmwareMailbox.Topology.Discovery

namespace FirmwareMailbox

/-- A session with a machine; what it has learned is remembered by the process. -/
structure Session where
  config : Config := {}
  deriving DecidableEq, Repr

namespace Session

/-- Whether a failed negotiation shows that the firmware cannot be used. -/
def condemns (e : Error) : Bool :=
  match e.kind with
  | .unsupported | .hardware | .timeout => true
  | _ => false

/-- Learns what the firmware can do, and gives up on it if its failure is one to give up for. -/
def negotiate (s : Session) (t : Topology) : Job Capabilities :=
  ExceptT.mk do
    match ← (Capabilities.negotiate s.config t).run with
    | .ok c => return .ok c
    | .error e =>
      if condemns e then Program.request .disable
      return .error e

/-- Learns everything about the machine. -/
def learn (s : Session) : Job Inventory := do
  let processor ← Job.ask .processor
  processor.requireMailbox
  let devices ← Job.devices
  let topology ← Topology.ofDevices devices
  let cpus ← Job.cpus
  let capabilities ← s.negotiate topology
  return { processor, topology, cpus, capabilities }

/-- The remembered inventory, or a new one that is remembered from now on. -/
def inventory (s : Session) : Job Inventory := do
  match ← Job.ask .recall with
  | some inv => return inv
  | none =>
    let inv ← s.learn
    Job.ask (.publish inv)
    return inv

/-- Opens the way to an operation. `m?` is the message it is about to send; an operation that sends
none passes at every version. -/
def gate (s : Session) (m? : Option MessageId) : Job Inventory := do
  if ! (← Job.ask .isPrivileged) then throw (.denied .notRoot)
  if ← Job.ask .isDisabled then throw (.unsupported .disabled)
  let inv ← s.inventory
  match m? with
  | some m => inv.capabilities.require m
  | none => pure ()
  return inv

/-- Sends a message to the mailbox of a socket. -/
def deliver (s : Session) (inv : Inventory) (socket : Nat) (m : Message) : Job (List UInt32) := do
  let tile ← inv.topology.mailboxTile socket
  m.exchange s.config tile.handle inv.capabilities.highestMessage

/-- Passes the gate for a message and sends it. -/
def exchange (s : Session) (socket : Nat) (m : Message) : Job (List UInt32) := do
  let inv ← s.gate (some m.id)
  s.deliver inv socket m

/-- Sends a message to `n` sockets from `socket` on, up to the first failure. -/
def deliverFrom (s : Session) (inv : Inventory) (m : Message) (socket : Nat) : (n : Nat) → Job Unit
  | 0 => return ()
  | n + 1 => do
    let _ ← s.deliver inv socket m
    s.deliverFrom inv m (socket + 1) n

/-- Sends a message to every socket, in order, up to the first failure. -/
def deliverAll (s : Session) (inv : Inventory) (m : Message) : Job Unit :=
  s.deliverFrom inv m 0 inv.topology.socketCount

/-- Forgets what was learned; the next operation learns the machine again. -/
def forget (_ : Session) : Job Unit := Job.ask .forget

end Session

end FirmwareMailbox

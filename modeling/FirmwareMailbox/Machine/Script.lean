/-
  FirmwareMailbox.Machine.Script — machines whose firmware answers by a script.

  The firmware of a socket has a response for each message, a status to answer with in place of OK,
  a number of status reads before the answer shows, and it may stall and never answer. A device can
  be set to fail after so many accesses. Every access is kept in a log. A scan finds the devices
  that the machine has, or fails as it was told to; where devices come from files, the files alone
  decide.

  A message drops the answer to an earlier one that did not show yet. Its response is in the slots
  at once; its status shows when the status has been read often enough.
-/

import FirmwareMailbox.Machine.Files
import FirmwareMailbox.Machine.Usual
import FirmwareMailbox.Register.File

namespace FirmwareMailbox.Script

/-- A socket: its registers and its firmware's script. -/
structure Socket where
  registers : RegisterFile := {}
  /-- The response to each message. -/
  words : UInt32 → Option (List UInt32) := fun _ => none
  /-- The status to answer a message with. -/
  status : UInt32 → Option UInt32 := fun _ => none
  /-- The status for messages that have none of their own. -/
  allStatus : Option UInt32 := none
  stalled : Bool := false
  /-- Status reads before an answer shows. -/
  delay : Nat := 0
  /-- An answer that does not show yet, with the status reads it still takes. -/
  pending : Option (Nat × UInt32) := none

/-- A device: the socket behind it, its two index registers, and how many accesses work yet. -/
structure Device where
  socket : Nat
  smnIndex : UInt32 := 0
  hsmpIndex : UInt32 := 0
  failAfter : Option Nat := none

/-- What the log keeps. -/
inductive Record where
  | read (device : DeviceHandle) (offset value : UInt32)
  | write (device : DeviceHandle) (offset value : UInt32)
  | readFailed (device : DeviceHandle) (offset : UInt32)
  | writeFailed (device : DeviceHandle) (offset : UInt32)
  /-- Whether the lock was held when a message started the firmware. -/
  | lockHeld (held : Bool)
  deriving DecidableEq, Repr

def Record.text : Record → String
  | .read d o v => access d "r" o ++ "=" ++ Text.hexUpper 8 v.toNat
  | .write d o v => access d "w" o ++ "=" ++ Text.hexUpper 8 v.toNat
  | .readFailed d o => access d "r" o ++ "!"
  | .writeFailed d o => access d "w" o ++ "!"
  | .lockHeld true => "lock=held"
  | .lockHeld false => "lock=free"
where
  access (d : DeviceHandle) (way : String) (o : UInt32) : String :=
    Text.decimal d ++ way ++ Text.hexUpper 2 o.toNat

namespace Socket

/-- Starts the firmware on message `m`. -/
def start (m : UInt32) (s : Socket) : Socket :=
  let s := { s with pending := none }
  if s.stalled then s
  else
    let code := ((s.status m).or s.allStatus).getD Status.ok
    let s := { s with pending := some (s.delay, code) }
    if code = Status.ok then
      let response := match s.words m with
        | some ws => ws
        | none => if m = 1 then [s.registers.get (Register.slot 0) + 1] else []
      { s with registers := s.registers.setSlots 0 response }
    else s

def write (address value : UInt32) (s : Socket) : Socket :=
  let s := { s with registers := s.registers.set address value }
  if address = Register.messageId then s.start value else s

def read (address : UInt32) (s : Socket) : UInt32 × Socket :=
  let s :=
    if address = Register.status then
      match s.pending with
      | some (0, code) =>
        { s with registers := s.registers.set Register.status code, pending := none }
      | some (n + 1, code) => { s with pending := some (n, code) }
      | none => s
    else s
  (s.registers.get address, s)

/-- The words a new socket responds with. -/
def usualWords (m : UInt32) : Option (List UInt32) :=
  if m = 2 then some [0x002E4A00]
  else if m = 3 then some [3]
  else if m = 4 then some [95000]
  else if m = 6 then some [200000]
  else if m = 7 then some [225000]
  else if m = 11 then some [0]
  else if m = 15 then some [1467, 1600]
  else if m = 16 then some [3500]
  else if m = 17 then some [42]
  else if m = 20 then some [Layout.encode ({ maxGbps := 204, usedGbps := 51, usedPercent := 25 } :
    DdrBandwidth)]
  else none

/-- Socket `s` before anything was changed. -/
def usual (s : Nat) : Socket :=
  { registers := RegisterFile.setBases {} 0
      ((Usual.buses s).map (·.toUInt32))
    words := usualWords }

end Socket

/-- One more access to a device: whether it works, and what is left. -/
def Device.access (d : Device) : Bool × Device :=
  match d.failAfter with
  | none => (true, d)
  | some 0 => (false, d)
  | some (n + 1) => (true, { d with failAfter := some n })

/-- The address of the register that an offset of configuration space is a window on. -/
def Device.target? (d : Device) (offset : UInt32) : Option UInt32 :=
  if offset = Register.smnData then some d.smnIndex
  else if offset = Register.hsmpData then some d.hsmpIndex
  else none

/-- The devices of `n` usual sockets with their addresses, in descending order of the buses. -/
def usualDevices (n : Nat) : List (PciAddress × Device) :=
  (Usual.tiles n).reverse.map fun (s, b) => ({ bus := b }, { socket := s })

/-- A scripted machine. -/
structure State where
  sockets : List Socket
  devices : List Device
  /-- The devices by address, as a scan lists them. -/
  found : List PciDevice
  /-- Why a scan fails, if it does. -/
  scanError : Option Error := none
  cpus : Except Error CpuTable
  privileged : Bool := true
  processor : Processor := ⟨.amd, 0x19, 1, 1⟩
  files : Files
  /-- Where devices and CPUs come from, if they come from files: the root of the configuration
  files and the list of processors. -/
  source : Option (String × String) := none
  /-- Path of the lock to look at when a message starts the firmware. -/
  watched : Option String := none
  scans : Nat := 0
  /-- The log, newest first. -/
  log : List Record := []

namespace State

def note (r : Record) (m : State) : State := { m with log := r :: m.log }

/-- The word at an offset of a working device. -/
def readWord (d : Device) (offset : UInt32) (m : State) : UInt32 × State :=
  match d.target? offset, m.sockets[d.socket]? with
  | some address, some s =>
    let (w, s) := s.read address
    (w, { m with sockets := m.sockets.set d.socket s })
  | _, _ =>
    (if offset = Register.smnIndex then d.smnIndex
     else if offset = Register.hsmpIndex then d.hsmpIndex
     else 0, m)

/-- Writes the word at an offset of working device `h`. -/
def writeWord (h : DeviceHandle) (d : Device) (offset value : UInt32) (m : State) : State :=
  match d.target? offset, m.sockets[d.socket]? with
  | some address, some s =>
    { m with sockets := m.sockets.set d.socket (s.write address value) }
  | _, _ =>
    if offset = Register.smnIndex then
      { m with devices := m.devices.set h { d with smnIndex := value } }
    else if offset = Register.hsmpIndex then
      { m with devices := m.devices.set h { d with hsmpIndex := value } }
    else m

/-- Notes the lock after a write that started the firmware. -/
def noteLock (d : Device) (offset : UInt32) (m : State) : State :=
  match m.watched with
  | some path =>
    if d.target? offset = some Register.messageId then
      m.note (.lockHeld (m.files.storage.isLocked path))
    else m
  | none => m

def read (h : DeviceHandle) (offset : UInt32) (m : State) : Except Error UInt32 × State :=
  match m.source, m.devices[h]? with
  | some _, _ => (m.files.read h offset, m)
  | none, none => (.error (.bus .deviceRemoved), m)
  | none, some d =>
    match d.access with
    | (false, _) => (.error (.bus .deviceRemoved), m.note (.readFailed h offset))
    | (true, d) =>
      let (w, m) := { m with devices := m.devices.set h d }.readWord d offset
      (.ok w, m.note (.read h offset w))

def write (h : DeviceHandle) (offset value : UInt32) (m : State) : Except Error Unit × State :=
  match m.source, m.devices[h]? with
  | some _, _ =>
    let (x, f) := m.files.write h offset value
    (x, { m with files := f })
  | none, none => (.error (.bus .deviceRemoved), m)
  | none, some d =>
    match d.access with
    | (false, _) => (.error (.bus .deviceRemoved), m.note (.writeFailed h offset))
    | (true, d) =>
      let m := { m with devices := m.devices.set h d }.writeWord h d offset value
      (.ok (), (m.note (.write h offset value)).noteLock d offset)

def scan (m : State) : Except Error (List PciDevice) × State :=
  let m := { m with scans := m.scans + 1 }
  match m.source, m.scanError with
  | some (root, _), _ =>
    let (x, f) := m.files.scan root Register.rootComplexVendor Register.rootComplexDevice
    (x, { m with files := f })
  | none, some e => (.error e, m)
  | none, none => (.ok m.found, m)

end State

def machine : Machine State where
  read := State.read
  write := State.write
  lock path m := let (x, f) := m.files.lock path; (x, { m with files := f })
  unlock path m := { m with files := m.files.unlock path }
  isPrivileged m := m.privileged
  processor m := m.processor
  devices := State.scan
  cpus m := match m.source with
    | none => m.cpus
    | some (_, cpuInfo) => m.files.cpus cpuInfo

end FirmwareMailbox.Script

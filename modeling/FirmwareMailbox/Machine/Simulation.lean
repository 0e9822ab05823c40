/-
  FirmwareMailbox.Machine.Simulation — machines of sockets with working firmware.

  A socket has a register file and firmware; its devices are windows on it, each with its own two
  index registers. Writing the message register logs the message with the words in the slots and,
  unless the firmware stalls, answers at once: the response in the slots and the status beside
  them. A refused message changes no slot.
-/

import FirmwareMailbox.Config
import FirmwareMailbox.Machine.Files
import FirmwareMailbox.Machine.Firmware
import FirmwareMailbox.Machine.Usual
import FirmwareMailbox.Register.File

namespace FirmwareMailbox.Simulation

structure Socket where
  registers : RegisterFile := {}
  firmware : Firmware

structure Device where
  socket : Nat
  smnIndex : UInt32 := 0
  hsmpIndex : UInt32 := 0
  /-- A broken device fails every access. -/
  broken : Bool := false
  deriving DecidableEq, Repr

namespace Socket

/-- A socket whose tile `t` reports the bus `bases[t]`. -/
def new (bases : List UInt8) (f : Firmware) : Socket :=
  { registers := RegisterFile.setBases {} 0 (bases.map (·.toUInt32)), firmware := f }

/-- The firmware's answer to message number `n`. -/
def trigger (n : UInt32) (s : Socket) : Socket :=
  let args := s.registers.slots
  let f := { s.firmware with log := s.firmware.log ++ [(n, args)] }
  if f.stalled then { s with firmware := f }
  else
    let answer : Except UInt32 (List UInt32 × Firmware) := match f.forcedStatus with
      | some code => .error code
      | none => f.respond n (s.registers.get (Register.slot 0))
    match answer with
    | .ok (words, f) =>
      { registers := (s.registers.setSlots 0 words).set Register.status Status.ok, firmware := f }
    | .error code => { registers := s.registers.set Register.status code, firmware := f }

def write (address value : UInt32) (s : Socket) : Socket :=
  let s := { s with registers := s.registers.set address value }
  if address = Register.messageId then s.trigger value else s

def read (address : UInt32) (s : Socket) : UInt32 × Socket :=
  let s :=
    if address = Register.status then
      { s with firmware := { s.firmware with statusPolls := s.firmware.statusPolls + 1 } }
    else s
  (s.registers.get address, s)

end Socket

/-- A simulated machine. -/
structure State where
  sockets : List Socket
  devices : List Device
  /-- What a scan finds. -/
  found : List PciDevice
  cpus : CpuTable
  privileged : Bool := true
  processor : Processor := ⟨.amd, 0x19, 1, 1⟩
  storage : Storage := { root := .directory [] }
  scans : Nat := 0

namespace State

/-- The word that identifies a root complex. -/
def identity : UInt32 :=
  (Register.rootComplexDevice.toUInt32 <<< 16) ||| Register.rootComplexVendor.toUInt32

def readRegister (d : Device) (address : UInt32) (m : State) : Except Error UInt32 × State :=
  match m.sockets[d.socket]? with
  | none => (.error (.bus .deviceRemoved), m)
  | some s =>
    let (w, s) := s.read address
    (.ok w, { m with sockets := m.sockets.set d.socket s })

def writeRegister (d : Device) (address value : UInt32) (m : State) : Except Error Unit × State :=
  match m.sockets[d.socket]? with
  | none => (.error (.bus .deviceRemoved), m)
  | some s => (.ok (), { m with sockets := m.sockets.set d.socket (s.write address value) })

def read (h : DeviceHandle) (offset : UInt32) (m : State) : Except Error UInt32 × State :=
  match m.devices[h]? with
  | none => (.error (.bus .deviceRemoved), m)
  | some d =>
    if d.broken then (.error (.bus .deviceRemoved), m)
    else if offset = 0 then (.ok identity, m)
    else if offset = Register.smnData then m.readRegister d d.smnIndex
    else if offset = Register.hsmpData then m.readRegister d d.hsmpIndex
    else if offset = Register.smnIndex then (.ok d.smnIndex, m)
    else if offset = Register.hsmpIndex then (.ok d.hsmpIndex, m)
    else (.ok 0, m)

def write (h : DeviceHandle) (offset value : UInt32) (m : State) : Except Error Unit × State :=
  match m.devices[h]? with
  | none => (.error (.bus .deviceRemoved), m)
  | some d =>
    if d.broken then (.error (.bus .deviceRemoved), m)
    else if offset = Register.smnIndex then
      (.ok (), { m with devices := m.devices.set h { d with smnIndex := value } })
    else if offset = Register.hsmpIndex then
      (.ok (), { m with devices := m.devices.set h { d with hsmpIndex := value } })
    else if offset = Register.smnData then m.writeRegister d d.smnIndex value
    else if offset = Register.hsmpData then m.writeRegister d d.hsmpIndex value
    else (.ok (), m)

/-- Messages triggered on all sockets so far. -/
def messageCount (m : State) : Nat :=
  m.sockets.foldr (fun s n => s.firmware.log.length + n) 0

/-- Changes the socket at place `s`. -/
def updateSocket (s : Nat) (f : Socket → Socket) (m : State) : State :=
  { m with sockets := m.sockets.modify s f }

/-- Adds one more device on socket `s`, which no scan finds: its handle and the machine. -/
def attach (s : Nat) (m : State) : DeviceHandle × State :=
  (m.devices.length, { m with devices := m.devices ++ [{ socket := s }] })

end State

def machine : Machine State where
  read := State.read
  write := State.write
  lock path m := let (x, s) := m.storage.lock path; (x, { m with storage := s })
  unlock path m := { m with storage := m.storage.unlock path }
  isPrivileged m := m.privileged
  processor m := m.processor
  devices m := (.ok m.found, { m with scans := m.scans + 1 })
  cpus m := .ok m.cpus

/-! ## Setting up -/

/-- What a socket is made of: the buses its tiles report, the buses its devices are on, and its
firmware. -/
structure Plan where
  bases : List UInt8
  buses : List UInt8
  firmware : Firmware

/-- Devices of sockets, one at every bus, in that order; handles count from `first`. -/
def devicesFrom (first : DeviceHandle) : List (Nat × UInt8) → List (Device × PciDevice)
  | [] => []
  | (socket, bus) :: rest =>
    ({ socket := socket }, { address := { bus := bus }, handle := first }) ::
      devicesFrom (first + 1) rest

/-- A machine of sockets, found in the order of the plans and buses. -/
def ofPlans (plans : List Plan) (cpus : CpuTable) : State :=
  let placed := devicesFrom 0
    (plans.mapIdx fun s p => p.buses.map fun b => (s, b)).flatten
  { sockets := plans.map fun p => .new p.bases p.firmware
    devices := placed.map (·.1)
    found := placed.map (·.2)
    cpus := cpus }

/-- A socket whose cores all may boost to 3500 MHz. -/
def usualPlan (version : UInt32) (socket : Nat) : Plan :=
  { bases := Usual.buses socket
    buses := Usual.buses socket
    firmware :=
      { interfaceVersion := version
        boostLimits := (List.range Usual.cpusPerSocket).foldl
          (fun b core => WordMap.insert (Usual.apicId socket core) 3500 b) [] } }

/-- A machine of `sockets` usual sockets, found in descending order of the buses. -/
def usual (sockets : Nat) (version : UInt32) : State :=
  let m := ofPlans ((List.range sockets).map (usualPlan version)) (Usual.cpus sockets)
  { m with found := m.found.reverse }

/-- The configuration of sessions on simulated machines. -/
def config : Config := { lockPath := "hsmp.lock", polls := 5, interval := 0 }

end FirmwareMailbox.Simulation

/-
  FirmwareMailbox.Host — the running system, answering the requests of programs.

  Configuration space is a file for each device, opened anew for every access. A file has no seek
  here, so the octets in front of an offset are read to get to it.
-/

import FirmwareMailbox.Config
import FirmwareMailbox.Cpu.Info
import FirmwareMailbox.Machine.Basic
import FirmwareMailbox.Pci.Listing
import FirmwareMailbox.Processor.Info
import FirmwareMailbox.Storage.Lock
import FirmwareMailbox.Storage.Word

namespace FirmwareMailbox

/-- This process: what it remembers, the configuration files of its handles, the lock it holds. -/
structure Host where
  config : Config
  memory : Memory := {}
  paths : List String := []
  lock : Option IO.FS.Handle := none

namespace Host

/-- The system's number for a failure that has one. -/
def errorNumber? : IO.Error → Option UInt32
  | .alreadyExists _ n _ | .otherError n _ | .resourceBusy n _ | .resourceVanished n _
  | .unsupportedOperation n _ | .hardwareFault n _ | .unsatisfiedConstraints n _
  | .illegalOperation n _ | .protocolError n _ | .timeExpired n _ | .interrupted _ n _
  | .noFileOrDirectory _ n _ | .invalidArgument _ n _ | .permissionDenied _ n _
  | .resourceExhausted _ n _ | .inappropriateType _ n _ | .noSuchThing _ n _ => some n
  | .unexpectedEof | .userError _ => none

def ioError (e : IO.Error) : IoError :=
  match errorNumber? e with
  | some n => .system n.toNat
  | none => .described .other (toString e)

/-- Does something that may fail. -/
def attempt {α : Type} (act : IO α) : IO (Except IoError α) := do
  match ← act.toBaseIO with
  | .ok a => return .ok a
  | .error e => return .error (ioError e)

def contents (path : String) : IO (Except IoError (List UInt8)) :=
  attempt ((fun b => b.toList) <$> IO.FS.readBinFile path)

/-- The contents of a file as text, nothing if there is none. -/
def text (path : String) : IO (List Char) := do
  match ← contents path with
  | .ok bytes => return Text.Utf8.decodeLossy bytes
  | .error _ => return []

def readWord (path : String) (offset : UInt32) : IO (Except Error UInt32) := do
  match ← attempt (IO.FS.Handle.mk path .read) with
  | .error e => return .error (.access ⟨.opening, path, e⟩)
  | .ok file =>
    match ← attempt (file.read (offset.toUSize + 4)) with
    | .error e => return .error (.access ⟨.reading offset, path, e⟩)
    | .ok bytes =>
      match Storage.wordOf? (bytes.toList.drop offset.toNat) with
      | some w => return .ok w
      | none => return .error (.access ⟨.reading offset, path, .shortRead⟩)

def writeWord (path : String) (offset value : UInt32) : IO (Except Error Unit) := do
  match ← attempt (IO.FS.Handle.mk path .readWrite) with
  | .error e => return .error (.access ⟨.opening, path, e⟩)
  | .ok file =>
    let act : IO Unit := do
      let _ ← file.read offset.toUSize
      file.write ⟨(Storage.octetsOf value).toArray⟩
      file.flush
    match ← attempt act with
    | .error e => return .error (.access ⟨.writing offset, path, e⟩)
    | .ok () => return .ok ()

/-- The root complexes of the system's list; their handles count from `first`. -/
def scan (root : String) (first : DeviceHandle) : IO (Except Error (List PciDevice)) := do
  match ← contents (Text.joinPath root "devices") with
  | .error e => return .error (.bus (.listing root e))
  | .ok bytes =>
    let found := PciAddress.ofListing Register.rootComplexVendor Register.rootComplexDevice
      (Text.Utf8.decodeLossy bytes)
    return .ok (found.mapIdx fun i a => { address := a, handle := first + i })

/-- Whether the process runs as root: the second of the user numbers is the effective one. -/
def isPrivileged : IO Bool := do
  match Processor.infoField? "Uid" (← text "/proc/self/status") with
  | some numbers =>
    match PciAddress.listingWords numbers with
    | _ :: effective :: _ => return effective = ['0']
    | _ => return false
  | none => return false

def takeLock (path : String) : IO (Except IoError IO.FS.Handle) :=
  attempt do
    let file ← IO.FS.Handle.mk path .append
    file.lock true
    return file

def setMemory (f : Memory → Memory) : StateT Host IO Unit :=
  modify fun h => { h with memory := f h.memory }

def answer : (r : Request) → StateT Host IO r.Reply
  | .read d o => do
    match (← get).paths[d]? with
    | some path => readWord path o
    | none => return .error (.bus .deviceRemoved)
  | .write d o v => do
    match (← get).paths[d]? with
    | some path => writeWord path o v
    | none => return .error (.bus .deviceRemoved)
  | .lock path => do
    match ← takeLock path with
    | .ok file => do
      modify fun h => { h with lock := some file }
      return .ok ()
    | .error e => return .error (Storage.lockError path e)
  | .unlock _ => do
    if let some file := (← get).lock then
      let _ ← attempt file.unlock
    modify fun h => { h with lock := none }
  | .pause n => IO.sleep (UInt32.ofNat (n / 1000000))
  | .isPrivileged => isPrivileged
  | .processor => do return Processor.ofInfo (← text (← get).config.cpuInfoPath)
  | .devices => do
    let h ← get
    match ← scan h.config.pciRoot h.paths.length with
    | .error e => return .error e
    | .ok found => do
      let opened := found.map fun d => d.address.filePath h.config.pciRoot
      set { h with paths := h.paths ++ opened }
      return .ok found
  | .cpus => do
    let path := (← get).config.cpuInfoPath
    return CpuInfo.ofFile path (← contents path)
  | .isDisabled => do return (← get).memory.disabled
  | .disable => setMemory fun m => { m with disabled := true }
  | .recall => do return (← get).memory.inventory
  | .publish inv =>
    setMemory fun m => { m with inventory := some inv, published := m.published + 1 }
  | .forget => setMemory fun m => { m with inventory := none }
  | .print s => do
    let out ← IO.getStdout
    out.putStr s
    out.flush

/-- The configuration that this process's environment makes. -/
def environmentConfig : IO Config := do
  let names := ["HSMP_ROOT_PREFIX", "HSMP_LOCK_FILE", "HSMP_MAILBOX_POLLS"]
  let values ← names.mapM fun name => return (name, ← IO.getEnv name)
  return Config.ofEnvironmentOrDefault fun name => (values.lookup name).join

/-- Runs a program on the running system. -/
def perform {α : Type} : Program α → StateT Host IO α
  | .done a => return a
  | .ask r next => do
    let x ← answer r
    perform (next x)

end Host

end FirmwareMailbox

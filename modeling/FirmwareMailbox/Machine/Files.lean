/-
  FirmwareMailbox.Machine.Files — the part of a machine that is files: the configuration space of
  devices found by a scan, the list of processors, and the lock.
-/

import FirmwareMailbox.Cpu.Info
import FirmwareMailbox.Machine.Basic
import FirmwareMailbox.Storage.Scan

namespace FirmwareMailbox

structure Files where
  storage : Storage
  /-- The configuration files opened so far; a handle is a place in the list. -/
  opened : List Storage.OpenFile := []

namespace Files

/-- The word at `offset` of an open configuration file. -/
def read (h : DeviceHandle) (offset : UInt32) (f : Files) : Except Error UInt32 :=
  match f.opened[h]? with
  | none => .error (.bus .deviceRemoved)
  | some file =>
    match f.storage.root.get file.names with
    | .error e => .error (.access ⟨.reading offset, file.path, .ofErrno e⟩)
    | .ok n =>
      match n.readWord file.path offset with
      | .ok w => .ok w
      | .error fault => .error (.access fault)

def write (h : DeviceHandle) (offset value : UInt32) (f : Files) : Except Error Unit × Files :=
  match f.opened[h]? with
  | none => (.error (.bus .deviceRemoved), f)
  | some file =>
    match f.storage.root.get file.names with
    | .error e => (.error (.access ⟨.writing offset, file.path, .ofErrno e⟩), f)
    | .ok n =>
      match n.writeWord file.path offset value with
      | .error fault => (.error (.access fault), f)
      | .ok n =>
        match Storage.Node.put n f.storage.root file.names with
        | .error e => (.error (.access ⟨.writing offset, file.path, .ofErrno e⟩), f)
        | .ok root => (.ok (), { f with storage := { f.storage with root := root } })

/-- Opens the configuration file of one address. -/
def openDevice (root : String) (a : PciAddress) (f : Files) :
    Except Error DeviceHandle × Files :=
  match Storage.openConfig f.storage.root root a with
  | .error fault => (.error (.access fault), f)
  | .ok file => (.ok f.opened.length, { f with opened := f.opened ++ [file] })

/-- Scans the root and opens the files of the devices found. -/
def scan (root : String) (vendor device : UInt16) (f : Files) :
    Except Error (List PciDevice) × Files :=
  match Storage.scan f.storage.root root vendor device f.opened.length with
  | .error e => (.error e, f)
  | .ok found =>
    (.ok (found.map (·.1)), { f with opened := f.opened ++ found.map (·.2) })

/-- The contents of a file that is read as a whole. -/
def contents (path : String) (f : Files) : Except IoError (List UInt8) :=
  match f.storage.get path with
  | .error e => .error (.ofErrno e)
  | .ok (.file bytes) => .ok bytes
  | .ok (.directory _) => .error (.ofErrno .isDirectory)
  | .ok .pipe => .ok []
  | .ok .fullDevice => .ok []

/-- The CPUs that the list of processors at `path` describes. -/
def cpus (path : String) (f : Files) : Except Error CpuTable :=
  CpuInfo.ofFile path (f.contents path)

def lock (path : String) (f : Files) : Except Error Unit × Files :=
  let (x, s) := f.storage.lock path
  (x, { f with storage := s })

def unlock (path : String) (f : Files) : Files := { f with storage := f.storage.unlock path }

end Files

end FirmwareMailbox

/-
  FirmwareMailbox.Cpu.Table — the logical CPUs: socket and APIC ID of each.

  A table is a finite map from CPU numbers, kept in ascending order of the number. Its extent, one
  more than the highest number, is a 64-bit word, so the number 2^64 - 1 has no place in it.
-/

import FirmwareMailbox.Error.Basic

namespace FirmwareMailbox

structure CpuEntry where
  socket : Nat
  apicId : UInt32
  deriving DecidableEq, Repr

structure CpuTable where
  entries : List (Nat × CpuEntry) := []
  deriving DecidableEq, Repr

namespace CpuTable

def empty : CpuTable := {}

/-- Puts the entry of `cpu` in its place, in the place of one that is there. -/
def place (cpu : Nat) (e : CpuEntry) : List (Nat × CpuEntry) → List (Nat × CpuEntry)
  | [] => [(cpu, e)]
  | (c, d) :: rest =>
    if cpu < c then (cpu, e) :: (c, d) :: rest
    else if cpu = c then (cpu, e) :: rest
    else (c, d) :: place cpu e rest

/-- The highest number a table has a place for. -/
def highest : Nat := 0xFFFFFFFFFFFFFFFE

def insert (t : CpuTable) (cpu : Nat) (e : CpuEntry) : Except Error CpuTable :=
  if cpu ≤ highest then .ok ⟨place cpu e t.entries⟩ else .error (.outOfBounds cpu)

def find? (t : CpuTable) (cpu : Nat) : Option CpuEntry :=
  (t.entries.find? fun p => p.1 = cpu).map (·.2)

def get (t : CpuTable) (cpu : Nat) : Except Error CpuEntry :=
  match t.find? cpu with
  | some e => .ok e
  | none => .error (.invalidArgument (.absentCpu cpu))

def size (t : CpuTable) : Nat := t.entries.length

def isEmpty (t : CpuTable) : Bool := t.entries.isEmpty

/-- The table of a list of entries, put in one after the other. -/
def ofList (entries : List (Nat × CpuEntry)) : Except Error CpuTable :=
  entries.foldlM (fun t p => t.insert p.1 p.2) empty

end CpuTable

end FirmwareMailbox

/-
  FirmwareMailbox.Machine.Usual — the arrangement of buses and CPUs that made-up machines have
  unless something else is said.

  Tile t of socket s is on bus 80h·s + 20h·t, and each socket has four CPUs, numbered on from the
  socket before it.
-/

import FirmwareMailbox.Cpu.Table

namespace FirmwareMailbox.Usual

/-- The lowest bus of tile `t` of socket `s`. -/
def bus (s t : Nat) : UInt8 := UInt8.ofNat (0x80 * s + 0x20 * t)

/-- The lowest buses of a socket's tiles. -/
def buses (s : Nat) : List UInt8 := (List.range Register.tilesPerSocket).map (bus s)

/-- Socket and bus of every tile of `n` sockets, in ascending order. -/
def tiles (n : Nat) : List (Nat × UInt8) :=
  (List.range n).flatMap fun s => (buses s).map fun b => (s, b)

/-- CPUs in a socket. -/
def cpusPerSocket : Nat := 4

/-- The APIC ID of a core of socket `s`. -/
def apicId (s core : Nat) : UInt32 := UInt32.ofNat (0x80 * s + 2 * core)

/-- The CPUs of `n` sockets. -/
def cpus (n : Nat) : CpuTable :=
  ⟨(List.range n).flatMap fun s =>
    (List.range cpusPerSocket).map fun core => (cpusPerSocket * s + core, ⟨s, apicId s core⟩)⟩

end FirmwareMailbox.Usual

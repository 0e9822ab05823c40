/-
  FirmwareMailbox.Machine.Basic — machines that answer programs.

  A machine is given by its states and by how each state answers: the configuration space of its
  devices, the lock, the questions a session asks. A process on it remembers whether it gave up on
  the firmware, the inventory it last learned, and what it printed. Several processes can share one
  machine, each with its own memory.
-/

import FirmwareMailbox.Program.Basic

namespace FirmwareMailbox

/-- How a machine with states `μ` answers. -/
structure Machine (μ : Type) where
  read : DeviceHandle → UInt32 → μ → Except Error UInt32 × μ
  write : DeviceHandle → UInt32 → UInt32 → μ → Except Error Unit × μ
  lock : String → μ → Except Error Unit × μ
  unlock : String → μ → μ
  isPrivileged : μ → Bool
  processor : μ → Processor
  devices : μ → Except Error (List PciDevice) × μ
  cpus : μ → Except Error CpuTable

/-- What a process remembers. -/
structure Memory where
  disabled : Bool := false
  inventory : Option Inventory := none
  /-- How many inventories were published so far. -/
  published : Nat := 0
  /-- Everything printed so far. -/
  output : String := ""

/-- A process on a machine. -/
structure World (μ : Type) where
  machine : μ
  memory : Memory := {}

namespace World

variable {μ α : Type}

/-- Answers a request: the machine its own, the memory the rest. Waiting changes nothing. -/
def answer (M : Machine μ) : (r : Request) → World μ → r.Reply × World μ
  | .read d o, w => let (x, m) := M.read d o w.machine; (x, { w with machine := m })
  | .write d o v, w => let (x, m) := M.write d o v w.machine; (x, { w with machine := m })
  | .lock p, w => let (x, m) := M.lock p w.machine; (x, { w with machine := m })
  | .unlock p, w => ((), { w with machine := M.unlock p w.machine })
  | .pause _, w => ((), w)
  | .isPrivileged, w => (M.isPrivileged w.machine, w)
  | .processor, w => (M.processor w.machine, w)
  | .devices, w => let (x, m) := M.devices w.machine; (x, { w with machine := m })
  | .cpus, w => (M.cpus w.machine, w)
  | .isDisabled, w => (w.memory.disabled, w)
  | .disable, w => ((), { w with memory := { w.memory with disabled := true } })
  | .recall, w => (w.memory.inventory, w)
  | .publish inv, w =>
    ((), { w with memory :=
      { w.memory with inventory := some inv, published := w.memory.published + 1 } })
  | .forget, w => ((), { w with memory := { w.memory with inventory := none } })
  | .print s, w => ((), { w with memory := { w.memory with output := w.memory.output ++ s } })

/-- Runs a job in a process on a machine. -/
def run (M : Machine μ) (j : Job α) (w : World μ) : Except Error α × World μ :=
  Program.run (answer M) (ExceptT.run j) w

end World

end FirmwareMailbox

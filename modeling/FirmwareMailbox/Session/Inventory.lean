/-
  FirmwareMailbox.Session.Inventory — what a session learns of the machine before its first
  operation.
-/

import FirmwareMailbox.Capability.Basic
import FirmwareMailbox.Cpu.Table
import FirmwareMailbox.Topology.Basic

namespace FirmwareMailbox

structure Inventory where
  processor : Processor
  topology : Topology
  cpus : CpuTable
  capabilities : Capabilities
  deriving DecidableEq, Repr

end FirmwareMailbox

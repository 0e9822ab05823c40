/-
  FirmwareMailbox.Register.Aperture — an index and a data register of configuration space: a window
  on the address space behind the device.

  An access writes the address to the index register and then reads or writes the data register.
  The two steps are separate; whoever shares a window has to serialise them.
-/

import FirmwareMailbox.Program.Basic

namespace FirmwareMailbox

structure Aperture where
  index : UInt32
  data : UInt32
  deriving DecidableEq, Repr

namespace Aperture

/-- The window for any register. -/
def smn : Aperture := ⟨Register.smnIndex, Register.smnData⟩

/-- The window for the registers of the mailbox. -/
def hsmp : Aperture := ⟨Register.hsmpIndex, Register.hsmpData⟩

def read (a : Aperture) (device : DeviceHandle) (address : UInt32) : Job UInt32 := do
  Job.write device a.index address
  Job.read device a.data

def write (a : Aperture) (device : DeviceHandle) (address value : UInt32) : Job Unit := do
  Job.write device a.index address
  Job.write device a.data value

end Aperture

end FirmwareMailbox

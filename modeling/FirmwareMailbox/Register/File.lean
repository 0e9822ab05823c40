/-
  FirmwareMailbox.Register.File — the registers behind a root complex: a word at every address, zero
  where nothing was written.
-/

import FirmwareMailbox.Register.Address

namespace FirmwareMailbox

structure RegisterFile where
  get : UInt32 → UInt32 := fun _ => 0

namespace RegisterFile

def set (r : RegisterFile) (address value : UInt32) : RegisterFile :=
  ⟨fun a => if a = address then value else r.get a⟩

/-- Stores words in the mailbox's slots from slot `i` on. -/
def setSlots (r : RegisterFile) (i : Nat) : List UInt32 → RegisterFile
  | [] => r
  | w :: ws => (r.set (Register.slot i) w).setSlots (i + 1) ws

/-- The words in the mailbox's slots. -/
def slots (r : RegisterFile) : List UInt32 :=
  (List.range Register.slotCount).map fun i => r.get (Register.slot i)

/-- The registers of a socket whose four tiles report these lowest buses. -/
def setBases (r : RegisterFile) (position : Nat) : List UInt32 → RegisterFile
  | [] => r
  | b :: bs => (r.set (Register.busNumber position) b).setBases (position + 1) bs

end RegisterFile

end FirmwareMailbox

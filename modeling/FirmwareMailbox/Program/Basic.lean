/-
  FirmwareMailbox.Program.Basic — programs as data.

  Whatever the library does to the world is a request: one access to a device's configuration
  space, taking or giving back the lock, a question to the system, a look at what the process
  remembers, a line of output. A program is the tree of its requests, each with what follows for
  every reply. It can be run on any machine that answers requests, and its runs can be spoken of
  without running it.

  A job is a program that ends in a value or an error.
-/

import FirmwareMailbox.Session.Inventory

namespace FirmwareMailbox

inductive Request where
  /-- Reads a word of a device's configuration space. -/
  | read (device : DeviceHandle) (offset : UInt32)
  | write (device : DeviceHandle) (offset value : UInt32)
  /-- Waits for the exclusive lock on a file, which is created if it is absent. -/
  | lock (path : String)
  | unlock (path : String)
  | pause (nanoseconds : Nat)
  | isPrivileged
  | processor
  /-- Scans the buses for root complexes. -/
  | devices
  | cpus
  /-- Whether this process gave up on the firmware. -/
  | isDisabled
  | disable
  /-- What this process remembers of the machine. -/
  | recall
  | publish (inventory : Inventory)
  | forget
  | print (text : String)

/-- What answers a request. -/
@[reducible] def Request.Reply : Request → Type
  | .read .. => Except Error UInt32
  | .write .. => Except Error Unit
  | .lock _ => Except Error Unit
  | .unlock _ => Unit
  | .pause _ => Unit
  | .isPrivileged => Bool
  | .processor => Processor
  | .devices => Except Error (List PciDevice)
  | .cpus => Except Error CpuTable
  | .isDisabled => Bool
  | .disable => Unit
  | .recall => Option Inventory
  | .publish _ => Unit
  | .forget => Unit
  | .print _ => Unit

inductive Program (α : Type) : Type where
  | done (a : α)
  | ask (r : Request) (next : r.Reply → Program α)

namespace Program

variable {α β σ : Type}

def bind : Program α → (α → Program β) → Program β
  | done a, f => f a
  | ask r next, f => ask r fun x => (next x).bind f

instance : Monad Program where
  pure := done
  bind := bind

theorem bind_done (p : Program α) : p.bind done = p := by
  induction p with
  | done a => rfl
  | ask r next ih => simp [bind, ih]

theorem bind_bind {γ : Type} (p : Program α) (f : α → Program β) (g : β → Program γ) :
    (p.bind f).bind g = p.bind fun a => (f a).bind g := by
  induction p with
  | done a => rfl
  | ask r next ih => simp [bind, ih]

instance : LawfulMonad Program :=
  LawfulMonad.mk' Program (fun p => bind_done p) (fun _ _ => rfl) (fun p f g => bind_bind p f g)

/-- The program of one request. -/
def request (r : Request) : Program r.Reply := ask r done

/-- Runs a program on a machine that answers a request from its state. -/
def run (answer : (r : Request) → σ → r.Reply × σ) : Program α → σ → α × σ
  | done a, s => (a, s)
  | ask r next, s =>
    let (x, s) := answer r s
    run answer (next x) s

/-- One part runs after the other. -/
theorem run_bind (answer : (r : Request) → σ → r.Reply × σ) (p : Program α)
    (f : α → Program β) (s : σ) :
    run answer (p.bind f) s = run answer (f (run answer p s).1) (run answer p s).2 := by
  induction p generalizing s with
  | done a => rfl
  | ask r next ih => simp [bind, run, ih]

end Program

abbrev Job (α : Type) : Type := ExceptT Error Program α

namespace Job

variable {α : Type}

/-- A request that cannot fail. -/
def ask (r : Request) : Job r.Reply := ExceptT.lift (Program.request r)

def read (device : DeviceHandle) (offset : UInt32) : Job UInt32 :=
  ExceptT.mk (Program.request (.read device offset))

def write (device : DeviceHandle) (offset value : UInt32) : Job Unit :=
  ExceptT.mk (Program.request (.write device offset value))

def devices : Job (List PciDevice) := ExceptT.mk (Program.request .devices)

def cpus : Job CpuTable := ExceptT.mk (Program.request .cpus)

/-- Does `body` while it holds the lock on `path`, and gives the lock back however `body` ends. -/
def locked (path : String) (body : Job α) : Job α :=
  ExceptT.mk do
    match ← Program.request (.lock path) with
    | .error e => return .error e
    | .ok () =>
      let result ← body.run
      Program.request (.unlock path)
      return result

/-- Word `i` of an answer. -/
def word (words : List UInt32) (i : Nat) : Except Error UInt32 :=
  match words[i]? with
  | some w => .ok w
  | none => .error (.outOfBounds i)

end Job

end FirmwareMailbox

/-
  FirmwareMailbox.Config — where things are and how long to wait.

  The environment may put all of the system's paths under a prefix, name another lock file, and set
  how often the status is read before the firmware counts as hung.
-/

import FirmwareMailbox.Error.Basic
import FirmwareMailbox.Text.Blank

namespace FirmwareMailbox

open Text

structure Config where
  /-- Directory of the configuration files of the PCI devices. -/
  pciRoot : String := "/proc/bus/pci"
  cpuInfoPath : String := "/proc/cpuinfo"
  lockPath : String := "/var/lock/hsmp"
  /-- Status reads before the firmware counts as hung. -/
  polls : UInt32 := 500
  /-- The wait before each status read, in nanoseconds. -/
  interval : Nat := 1000000
  deriving DecidableEq, Repr

namespace Config

/-- A path put under a prefix, its own leading slashes gone. -/
def underPrefix (root path : String) : String :=
  joinPath root (String.ofList (path.toList.dropWhile (· = '/')))

/-- A positive 32-bit number, blanks around it not counting. -/
def readPolls (s : String) : Except Error UInt32 :=
  match readNumber 10 max32 (trim s.toList) with
  | .ok 0 | .error _ => .error (.configuration (.polls s))
  | .ok n => .ok (UInt32.ofNat n)

/-- The configuration of an environment, given by its variables. -/
def ofEnvironment (lookup : String → Option String) : Except Error Config := do
  let base : Config := {}
  let rooted := match lookup "HSMP_ROOT_PREFIX" with
    | some root =>
      { base with
        pciRoot := underPrefix root base.pciRoot
        cpuInfoPath := underPrefix root base.cpuInfoPath }
    | none => base
  let locked := match lookup "HSMP_LOCK_FILE" with
    | some path => { rooted with lockPath := path }
    | none => rooted
  match lookup "HSMP_MAILBOX_POLLS" with
  | some text => do
    let polls ← readPolls text
    return { locked with polls := polls }
  | none => return locked

/-- The configuration of this process: that of its environment, or the default one if the
environment makes none. -/
def ofEnvironmentOrDefault (lookup : String → Option String) : Config :=
  (ofEnvironment lookup).toOption.getD {}

/-- The longest span of time that is counted: 64 bits of seconds and the nanoseconds of one more. -/
def longestSpan : Nat := max64 * 1000000000 + 999999999

/-- The longest that one exchange with the firmware waits, in nanoseconds; none if that is beyond
the longest span that is counted. -/
def timeout? (c : Config) : Option Nat :=
  let t := c.interval * c.polls.toNat
  if t ≤ longestSpan then some t else none

end Config

end FirmwareMailbox

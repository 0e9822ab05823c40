/-
  FirmwareMailbox.Command.Basic — the commands, and the argument lists that call them.
-/

import FirmwareMailbox.Command.Arguments
import FirmwareMailbox.Command.ListenAddress
import FirmwareMailbox.Text.Quoted
import FirmwareMailbox.Text.Split

namespace FirmwareMailbox

open Text

/-- The sockets a command goes to. -/
inductive Target where
  | socket (n : Nat)
  | all
  deriving DecidableEq, Repr

/-- The cores whose boost limit a command is about. -/
inductive BoostTarget where
  | cpu (n : Nat)
  | socket (n : Nat)
  | all
  deriving DecidableEq, Repr

/-- What can be read of a socket on its own. -/
inductive Reading where
  | power
  | powerLimit
  | maxPower
  | procHot
  | fabricClocks
  | coreClockLimit
  | activePercent
  | ddrBandwidth
  deriving DecidableEq, Repr

inductive Command where
  | version
  | read (what : Reading) (target : Target)
  | setPowerLimit (target : Target) (limit : UInt32)
  | boost (target : BoostTarget) (set? : Option UInt32)
  | linkWidth (widths : List String)
  | fabricState (target : Target) (name : String)
  | interfaceState (bus : UInt8) (name : String)
  | list
  deriving DecidableEq, Repr

/-- What an argument list asks for. -/
inductive Invocation where
  | command (c : Command)
  | serve (address : ListenAddress)
  deriving DecidableEq, Repr

namespace Command

/-- Why a text is no bus number, with the text. -/
def busFault (s : String) (f : NumberFault) : String :=
  "invalid bus number " ++ quoted s ++ ": " ++ f.message

/-- A bus number: hexadecimal after `0x` or `0X`, else decimal. -/
def readBus (s : String) : Except String UInt8 :=
  let cs := s.toList
  let n := match (dropLead? ['0', 'x'] cs).or (dropLead? ['0', 'X'] cs) with
    | some digits => readNumber 16 max8 digits
    | none => readNumber 10 max8 cs
  match n with
  | .ok n => .ok (UInt8.ofNat n)
  | .error f => .error (busFault s f)

/-- The names of the commands. -/
inductive Name where
  | version
  | read (what : Reading)
  | boostLimit
  | linkWidth
  | fabricState
  | interfaceState
  | list
  | serve
  deriving DecidableEq, Repr

def names : List (String × Name) :=
  [("version", .version), ("socket-power", .read .power), ("power-limit", .read .powerLimit),
    ("max-power", .read .maxPower), ("boost-limit", .boostLimit), ("proc-hot", .read .procHot),
    ("xgmi-width", .linkWidth), ("df-pstate", .fabricState), ("fabric-clocks", .read .fabricClocks),
    ("core-clock-max", .read .coreClockLimit), ("c0-residency", .read .activePercent),
    ("nbio-pstate", .interfaceState), ("ddr-bw", .read .ddrBandwidth), ("list", .list),
    ("serve", .serve)]

def index? (s : String) : Option Nat := readNumber? 10 max64 s.toList

/-- A number of 32 bits. Unlike an index it may have either sign, and minus zero is zero: behind a
`-` no other number is in range. -/
def word? (s : String) : Option UInt32 :=
  let n := match s.toList with
    | '-' :: d :: ds => (takeDigits 10 0 0 (d :: ds)).toOption
    | cs => readNumber? 10 max32 cs
  n.map UInt32.ofNat

/-- What each command takes. -/
def grammar : Name → Grammar
  | .version | .list => { flags := ["verbose"] }
  | .read .powerLimit =>
    { flags := ["verbose", "all"]
      options := [("socket", fun s => (index? s).isSome), ("set", fun s => (word? s).isSome)] }
  | .read _ => { flags := ["verbose", "all"], options := [("socket", fun s => (index? s).isSome)] }
  | .boostLimit =>
    { flags := ["verbose", "all"]
      options := [("cpu", fun s => (index? s).isSome), ("socket", fun s => (index? s).isSome),
        ("set", fun s => (word? s).isSome)] }
  | .linkWidth => { flags := ["verbose"], places := 2, scattered := true }
  | .fabricState =>
    { flags := ["verbose", "all"]
      options := [("socket", fun s => (index? s).isSome)]
      places := 1 }
  | .interfaceState =>
    { flags := ["verbose"]
      options := [("bus", fun s => (readBus s).toOption.isSome)]
      places := 1 }
  | .serve =>
    { flags := ["verbose"], options := [("listen", fun s => (ListenAddress.read? s).isSome)] }

/-- One socket, the first if none is named, or all of them, but not both. -/
def target (a : Arguments) : Except Usage Target :=
  match (a.option? "socket").bind index?, a.has "all" with
  | some _, true => .error .wrong
  | some n, false => .ok (.socket n)
  | none, true => .ok .all
  | none, false => .ok (.socket 0)

/-- Exactly one of a CPU, a socket, and all. -/
def boostTarget (a : Arguments) : Except Usage BoostTarget :=
  match (a.option? "cpu").bind index?, (a.option? "socket").bind index?, a.has "all" with
  | some n, none, false => .ok (.cpu n)
  | none, some n, false => .ok (.socket n)
  | none, none, true => .ok .all
  | _, _, _ => .error .wrong

/-- What a command's arguments ask for. -/
def interpret (n : Name) (a : Arguments) : Except Usage Invocation :=
  match n with
  | .version => .ok (.command .version)
  | .list => .ok (.command .list)
  | .read what => do
    let t ← target a
    match (a.option? "set").bind word? with
    | some limit => return .command (.setPowerLimit t limit)
    | none => return .command (.read what t)
  | .boostLimit => do
    let t ← boostTarget a
    return .command (.boost t ((a.option? "set").bind word?))
  | .linkWidth =>
    if a.values.isEmpty then .error .wrong else .ok (.command (.linkWidth a.values))
  | .fabricState => do
    let t ← target a
    match a.values with
    | [name] => return .command (.fabricState t name)
    | _ => .error .wrong
  | .interfaceState =>
    match (a.option? "bus").bind fun s => (readBus s).toOption, a.values with
    | some bus, [name] => .ok (.command (.interfaceState bus name))
    | _, _ => .error .wrong
  | .serve =>
    .ok (.serve (((a.option? "listen").bind ListenAddress.read?).getD .everywhere))

/-- A request for help, on all commands or on one, which may be that for help itself. -/
def help : List String → Usage
  | [] => .help
  | [name] => if name = "help" || (names.lookup name).isSome then .help else .wrong
  | _ => .wrong

/-- Reads what stands before the command's name; `verbose` tells whether that was asked for. -/
def readBefore (verbose : Bool) : List String → Except Usage Invocation
  | [] => .error .wrong
  | arg :: rest =>
    match Arguments.shape arg with
    | .separator => .error .wrong
    | .long "help" none => .error .help
    | .long "verbose" none => if verbose then .error .wrong else readBefore true rest
    | .long _ _ => .error .wrong
    | .short letters => do
      let a ← Arguments.addShort { flags := if verbose then ["verbose"] else [] } letters
      readBefore (a.has "verbose") rest
    | .value =>
      if arg = "help" then .error (help rest)
      else
        match names.lookup arg with
        | none => .error .wrong
        | some n => do
          let a ← Arguments.ofList (grammar n) rest
          interpret n a

/-- What an argument list asks for. -/
def ofArguments (args : List String) : Except Usage Invocation := readBefore false args

end Command

end FirmwareMailbox

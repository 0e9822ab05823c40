/-
  FirmwareMailbox.Cpu.Info — the system's list of processors, read into a table.

  The list is made of stanzas, the pieces between two newlines in a row. A line of a stanza that
  has a colon is a key and a value, blanks around each not counting. A stanza with a `processor`
  describes that CPU and must also have a `physical id`, its socket, and an `apicid`. Of a key that
  occurs twice the last counts, and so does the last stanza of a CPU. Nothing is taken over from
  one stanza to the next.
-/

import FirmwareMailbox.Cpu.Table
import FirmwareMailbox.Text.Blank
import FirmwareMailbox.Text.Utf8

namespace FirmwareMailbox.CpuInfo

open Text

/-- The fields of a stanza met so far. -/
structure Stanza where
  cpu : Option Nat := none
  socket : Option Nat := none
  apicId : Option UInt32 := none
  deriving DecidableEq, Repr

/-- The number up to `limit` in a field's value. -/
def readField (name : String) (limit : Nat) (value : List Char) : Except Error Nat :=
  match readNumber 10 limit (trim value) with
  | .ok n => .ok n
  | .error _ => .error (.parse (.badField name (String.ofList (trim value))))

/-- Takes one line into a stanza. -/
def Stanza.addLine (s : Stanza) (line : List Char) : Except Error Stanza :=
  match splitOnce ':' line with
  | none => .ok s
  | some (key, value) =>
    let key := trim key
    if key = "processor".toList then do
      let n ← readField "processor" max64 value
      return { s with cpu := some n }
    else if key = "physical id".toList then do
      let n ← readField "physical id" max64 value
      return { s with socket := some n }
    else if key = "apicid".toList then do
      let n ← readField "apicid" max32 value
      return { s with apicId := some (UInt32.ofNat n) }
    else .ok s

/-- The fields of a whole stanza. -/
def Stanza.ofText (text : List Char) : Except Error Stanza :=
  (lines text).foldlM Stanza.addLine {}

/-- Puts the CPU that a stanza describes, if it does, into a table. -/
def Stanza.addTo (s : Stanza) (t : CpuTable) : Except Error CpuTable :=
  match s.cpu, s.socket, s.apicId with
  | none, _, _ => .ok t
  | some cpu, some socket, some apicId => t.insert cpu ⟨socket, apicId⟩
  | some cpu, _, _ => .error (.parse (.incomplete cpu))

def addStanza (t : CpuTable) (text : List Char) : Except Error CpuTable := do
  let s ← Stanza.ofText text
  s.addTo t

/-- The table that a list of processors describes. -/
def parse (text : List Char) : Except Error CpuTable :=
  (stanzas text).foldlM addStanza CpuTable.empty

/-- The same of the contents of the file `path`, or of the failure to read it. -/
def ofFile (path : String) (contents : Except IoError (List UInt8)) : Except Error CpuTable :=
  match contents with
  | .error e => .error (.parse (.unreadable path e))
  | .ok bytes =>
    match Utf8.decode? bytes with
    | none => .error (.parse (.unreadable path .notText))
    | some text => parse text

end FirmwareMailbox.CpuInfo

/-
  FirmwareMailbox.Processor.Info — the processor as the system's list of processors describes
  it: the fields of the first stanza.
-/

import FirmwareMailbox.Processor.Basic
import FirmwareMailbox.Text.Blank
import FirmwareMailbox.Text.Numeral
import FirmwareMailbox.Text.Split

namespace FirmwareMailbox.Processor

open Text

/-- The value of a field, the first of its name. -/
def infoField? (name : String) (text : List Char) : Option (List Char) :=
  (lines text).findSome? fun line =>
    match splitOnce ':' line with
    | some (key, value) => if trim key = name.toList then some (trim value) else none
    | none => none

def infoNumber (name : String) (text : List Char) : UInt32 :=
  match (infoField? name text).bind (readNumber? 10 max32) with
  | some n => UInt32.ofNat n
  | none => 0

def ofInfo (text : List Char) : Processor :=
  { vendor := Vendor.ofName ((infoField? "vendor_id" text).getD [])
    family := infoNumber "cpu family" text
    model := infoNumber "model" text
    stepping := infoNumber "stepping" text }

end FirmwareMailbox.Processor

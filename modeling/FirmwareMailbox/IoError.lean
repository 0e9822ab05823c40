/-
  FirmwareMailbox.IoError — a failed call to the operating system: the number it returned, or a
  failure found above it, which has no number.
-/

import FirmwareMailbox.Errno

namespace FirmwareMailbox

/-- The kinds of failure that are told apart. -/
inductive IoKind where
  | permissionDenied
  | notFound
  | unexpectedEnd
  | invalidData
  | writeZero
  | invalidInput
  | other
  deriving DecidableEq, Repr

/-- The text of a failure of which only the kind is known. -/
def IoKind.message : IoKind → String
  | .permissionDenied => "permission denied"
  | .notFound => "entity not found"
  | .unexpectedEnd => "unexpected end of file"
  | .invalidData => "invalid data"
  | .writeZero => "write zero"
  | .invalidInput => "invalid input parameter"
  | .other => "other error"

inductive IoError where
  /-- The system returned this number. -/
  | system (number : Int)
  | kind (k : IoKind)
  /-- A failure of kind `k` that says more. -/
  | described (k : IoKind) (text : String)
  deriving DecidableEq, Repr

namespace IoError

def message : IoError → String
  | .system n => systemText n ++ " (os error " ++ Text.signed n ++ ")"
  | .kind k => k.message
  | .described _ text => text

/-- Both numbers for a missing permission count. -/
def isPermissionDenied : IoError → Bool
  | .system n => n = 1 || n = 13
  | .kind k | .described k _ => k = .permissionDenied

/-- The system's number; a failure found above it counts as an input/output error. -/
def errno : IoError → Errno
  | .system n => Errno.ofNumber n
  | _ => .inputOutput

def ofErrno (e : Errno) : IoError := .system e.number

/-- A read that reached the end of the file. -/
def shortRead : IoError := .described .unexpectedEnd "failed to fill whole buffer"

/-- A file that was to hold text and does not. -/
def notText : IoError := .described .invalidData "stream did not contain valid UTF-8"

/-- A file name with a NUL in it. -/
def nulInPath : IoError := .described .invalidInput "file name contained an unexpected NUL byte"

end IoError

end FirmwareMailbox

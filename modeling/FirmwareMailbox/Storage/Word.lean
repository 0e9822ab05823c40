/-
  FirmwareMailbox.Storage.Word — 32-bit words in a configuration file, lowest octet first, at any
  offset.

  A read needs four octets there. A write may start past the end, and the gap reads as zero. No
  access depends on the place of an earlier one.
-/

import FirmwareMailbox.Error.Basic
import FirmwareMailbox.Storage.Path

namespace FirmwareMailbox.Storage

/-- The octets of a word, lowest first. -/
def octetsOf (w : UInt32) : List UInt8 :=
  [w.toUInt8, (w >>> 8).toUInt8, (w >>> 16).toUInt8, (w >>> 24).toUInt8]

/-- The word of the first four octets, if there are four. -/
def wordOf? : List UInt8 → Option UInt32
  | a :: b :: c :: d :: _ =>
    some (a.toUInt32 ||| (b.toUInt32 <<< 8) ||| (c.toUInt32 <<< 16) ||| (d.toUInt32 <<< 24))
  | _ => none

/-- `bytes` with `new` at `offset`, zeros in a gap before it. -/
def overwrite (bytes : List UInt8) (offset : Nat) (new : List UInt8) : List UInt8 :=
  (bytes ++ List.replicate (offset - bytes.length) 0).take offset ++ new ++
    bytes.drop (offset + new.length)

/-- The word at `offset` of an open file. -/
def Node.readWord (n : Node) (path : String) (offset : UInt32) : Except AccessFault UInt32 :=
  match n with
  | .file bytes =>
    match wordOf? (bytes.drop offset.toNat) with
    | some w => .ok w
    | none => .error ⟨.reading offset, path, .shortRead⟩
  | .directory _ => .error ⟨.reading offset, path, .ofErrno .isDirectory⟩
  | .pipe => .error ⟨.seeking offset, path, .ofErrno .illegalSeek⟩
  | .fullDevice => .ok 0

/-- An open file with a word written at `offset`. -/
def Node.writeWord (n : Node) (path : String) (offset value : UInt32) : Except AccessFault Node :=
  match n with
  | .file bytes => .ok (.file (overwrite bytes offset.toNat (octetsOf value)))
  | .directory _ => .error ⟨.writing offset, path, .ofErrno .isDirectory⟩
  | .pipe => .error ⟨.seeking offset, path, .ofErrno .illegalSeek⟩
  | .fullDevice => .error ⟨.writing offset, path, .ofErrno .noSpace⟩

/-- Opens what is at a path to be read, reads the word at `offset` and closes it again. -/
def readWordAt (tree : Node) (path : String) (offset : UInt32) : Except AccessFault UInt32 :=
  match tree.locate path with
  | .error e => .error ⟨.opening, path, .ofErrno e⟩
  | .ok ns =>
    match tree.get ns with
    | .error e => .error ⟨.opening, path, .ofErrno e⟩
    | .ok n => n.readWord path offset

/-- An open configuration file: the path that it is known by, and where it is. -/
structure OpenFile where
  path : String
  names : List String
  deriving DecidableEq, Repr

/-- Opens the configuration file of an address below `root` to be read and written. -/
def openConfig (tree : Node) (root : String) (a : PciAddress) : Except AccessFault OpenFile :=
  let path := a.filePath root
  let found : Except Errno (List String) := do
    let base ← tree.locate root
    let ns ← tree.follow base [a.busDirectory, a.slotName]
    let n ← tree.get ns
    if n.isDirectory then throw .isDirectory
    return ns
  match found with
  | .error e => .error ⟨.opening, path, .ofErrno e⟩
  | .ok ns => .ok ⟨path, ns⟩

end FirmwareMailbox.Storage

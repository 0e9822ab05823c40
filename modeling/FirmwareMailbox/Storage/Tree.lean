/-
  FirmwareMailbox.Storage.Tree — files and directories, as far as the library uses them.

  A file is its octets. Besides there are named pipes, which have no position to seek, and the
  device that reads as zeros and never has room for a write.

  Whatever is in a tree is at a list of names, each looked up in the directory that the names
  before it lead to. A name that is missing, or that is looked up in something else than a
  directory, is an error of the system.
-/

import FirmwareMailbox.IoError

namespace FirmwareMailbox.Storage

inductive Node where
  | file (bytes : List UInt8)
  | directory (entries : List (String × Node))
  | pipe
  | fullDevice

namespace Node

def isDirectory : Node → Bool
  | directory _ => true
  | _ => false

def child? (name : String) (entries : List (String × Node)) : Option Node :=
  (entries.find? fun e => e.1 = name).map (·.2)

/-- Puts an entry in the place of the one of its name, or at the end. -/
def putEntry (name : String) (n : Node) : List (String × Node) → List (String × Node)
  | [] => [(name, n)]
  | e :: rest => if e.1 = name then (name, n) :: rest else e :: putEntry name n rest

/-- What is at a list of names. -/
def get (tree : Node) : List String → Except Errno Node
  | [] => .ok tree
  | name :: rest =>
    match tree with
    | directory entries =>
      match child? name entries with
      | some n => n.get rest
      | none => .error .noEntry
    | _ => .error .notDirectory

/-- The tree with `n` at a list of names, all of which but the last are there. -/
def put (n : Node) (tree : Node) : List String → Except Errno Node
  | [] => .ok n
  | name :: rest =>
    match tree with
    | directory entries =>
      match child? name entries, rest with
      | none, _ :: _ => .error .noEntry
      | old?, _ => do
        let new ← put n (old?.getD (directory [])) rest
        return directory (putEntry name new entries)
    | _ => .error .notDirectory

end Node

end FirmwareMailbox.Storage

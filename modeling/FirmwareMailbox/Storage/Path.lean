/-
  FirmwareMailbox.Storage.Path — what a path leads to.

  A path is followed name by name from the root; its names stand between slashes. `.` is the
  directory itself and `..` the one above it. One can go on from a directory only, so a slash at
  the end of a path asks for a directory. A name has at most 255 octets, a path at most 4095, and
  no path has a NUL in it.
-/

import FirmwareMailbox.Storage.Tree
import FirmwareMailbox.Text.Split

namespace FirmwareMailbox.Storage

/-- The octets that a name may have. -/
def nameLimit : Nat := 255

/-- The octets that a path may have. -/
def pathLimit : Nat := 4095

def hasNul (path : String) : Bool := path.toList.contains '\x00'

/-- The names of a path. -/
def names (path : String) : List String :=
  ((Text.pieces '/' path.toList).filter (· ≠ [])).map String.ofList

def endsInSlash (path : String) : Bool := path.toList.getLast? = some '/'

/-- Why a text is no path, whatever files there are. -/
def pathFault? (path : String) : Option Errno :=
  if path.isEmpty then some .noEntry
  else if hasNul path then some .invalidArgument
  else if path.utf8ByteSize > pathLimit then some .nameTooLong
  else none

namespace Node

/-- Goes on by one name from what is at `here`. -/
def step (tree : Node) (here : List String) (name : String) : Except Errno (List String) :=
  match tree.get here with
  | .ok (.directory entries) =>
    if name = "." then .ok here
    else if name = ".." then .ok here.dropLast
    else if name.utf8ByteSize > nameLimit then .error .nameTooLong
    else if (child? name entries).isSome then .ok (here ++ [name])
    else .error .noEntry
  | _ => .error .notDirectory

/-- Goes on by one name after the other. -/
def follow (tree : Node) (here : List String) : List String → Except Errno (List String)
  | [] => .ok here
  | name :: rest => do
    let next ← tree.step here name
    tree.follow next rest

/-- Where a path leads to. -/
def locate (tree : Node) (path : String) : Except Errno (List String) :=
  match pathFault? path with
  | some e => .error e
  | none => tree.follow [] (names path ++ if endsInSlash path then ["."] else [])

/-- The directory that the last of some names is looked up in, with its entries. -/
def parent (tree : Node) (ns : List String) :
    Except Errno (List String × List (String × Node)) := do
  let here ← tree.follow [] ns.dropLast
  match tree.get here with
  | .ok (.directory entries) => return (here, entries)
  | _ => throw .notDirectory

/-- Opens a file to be written, and creates it empty if it is absent: the tree then, and where the
file is. -/
def openOrCreate (tree : Node) (path : String) : Except Errno (Node × List String) :=
  match pathFault? path, (names path).getLast? with
  | some e, _ => .error e
  | none, none => .error .isDirectory
  | none, some name => do
    let (here, entries) ← tree.parent (names path)
    if name = "." ∨ name = ".." ∨ endsInSlash path then throw .isDirectory
    else if name.utf8ByteSize > nameLimit then throw .nameTooLong
    else
      match child? name entries with
      | some n =>
        if n.isDirectory then throw .isDirectory
        return (tree, here ++ [name])
      | none =>
        let tree ← put (.file []) tree (here ++ [name])
        return (tree, here ++ [name])

/-- Makes one directory, at the last of some names. -/
def makeDirectory (tree : Node) (ns : List String) : Except Errno Node :=
  match pathFault? ("/".intercalate ns), ns.getLast? with
  | _, none => .error .alreadyThere
  | some e, _ => .error e
  | none, some name => do
    let (here, entries) ← tree.parent ns
    if name = "." ∨ name = ".." ∨ (child? name entries).isSome then throw .alreadyThere
    else if name.utf8ByteSize > nameLimit then throw .nameTooLong
    else put (.directory []) tree (here ++ [name])

/-- Makes a directory, unless it is there. -/
def ensureDirectory (tree : Node) (ns : List String) : Except Errno Node :=
  match tree.makeDirectory ns, tree.follow [] (ns ++ ["."]) with
  | .ok new, _ => .ok new
  | .error _, .ok _ => .ok tree
  | .error e, .error _ => .error e

/-- The names one level up; a `.` is no level. -/
def above (ns : List String) : List String := (ns.filter (· ≠ ".")).dropLast

/-- Makes a directory and those above it that are missing, the highest first. What was made stays
if one of them cannot be made. -/
def makeDirectories (tree : Node) (ns : List String) : Except Errno Unit × Node :=
  match tree.ensureDirectory ns with
  | .ok new => (.ok (), new)
  | .error e =>
    if _ : ns = [] ∨ e ≠ .noEntry then (.error e, tree)
    else
      match tree.makeDirectories (above ns) with
      | (.error e, tree) => (.error e, tree)
      | (.ok (), tree) =>
        match tree.ensureDirectory ns with
        | .ok new => (.ok (), new)
        | .error e => (.error e, tree)
termination_by ns.length
decreasing_by
  rename_i h
  have hle := List.length_filter_le (fun n : String => decide (n ≠ ".")) ns
  have hpos := List.length_pos_iff.2 fun hn => h (.inl hn)
  simp only [above, List.length_dropLast]
  omega

end Node

end FirmwareMailbox.Storage

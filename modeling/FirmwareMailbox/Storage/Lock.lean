/-
  FirmwareMailbox.Storage.Lock — files with locks.

  Whoever exchanges a message with the firmware first takes an exclusive lock on a file everyone
  agrees on, which is created if it is absent and never written to. The lock is advisory and goes
  with the file, not with what is in it nor with the path that led to it.
-/

import FirmwareMailbox.Error.Basic
import FirmwareMailbox.Storage.Path

namespace FirmwareMailbox

/-- Files, and the locks on them: by which path each was taken, and where its file is. -/
structure Storage where
  root : Storage.Node
  locked : List (String × List String) := []

namespace Storage

def get (path : String) (s : Storage) : Except Errno Node := do
  let ns ← s.root.locate path
  s.root.get ns

/-- Replaces what is in a file, which is created if it is absent. -/
def write (path : String) (bytes : List UInt8) (s : Storage) : Except Errno Storage := do
  let (root, ns) ← s.root.openOrCreate path
  let root ← Node.put (.file bytes) root ns
  return { s with root := root }

/-- The error of a lock file that cannot be opened. -/
def lockError (path : String) (e : IoError) : Error :=
  if e.isPermissionDenied then .denied (.lockFile path e) else .io e

/-- Takes the lock on a file that nobody holds. -/
def lock (path : String) (s : Storage) : Except Error Unit × Storage :=
  if hasNul path then (.error (lockError path .nulInPath), s)
  else
    match s.root.openOrCreate path with
    | .error e => (.error (lockError path (.ofErrno e)), s)
    | .ok (root, ns) => (.ok (), { root := root, locked := (path, ns) :: s.locked })

/-- Gives back the lock that was taken last by this path. -/
def unlock (path : String) (s : Storage) : Storage :=
  { s with locked := s.locked.eraseP fun l => l.1 = path }

/-- Whether somebody else who tried to take the lock would have to wait. -/
def isLocked (path : String) (s : Storage) : Bool :=
  match s.root.locate path with
  | .ok ns => s.locked.any fun l => l.2 = ns
  | .error _ => false

end Storage

end FirmwareMailbox

/-
  FirmwareMailbox.Command.ListenAddress — the address a server listens on, written
  `a.b.c.d:service` or `[v6]:service`.

  Read: four decimal bytes of at most three digits without a zero in front; or up to eight groups of
  at most four hexadecimal digits, one gap `::` for zeros, the last two groups possibly as four
  bytes, and possibly a scope behind `%`. The service number is decimal, with any zeros in front.

  Written: the first longest run of two zero groups or more as `::`, and an IPv4 address inside
  IPv6 as such.
-/

import FirmwareMailbox.Text.Numeral

namespace FirmwareMailbox

open Text

inductive ListenAddress where
  | v4 (bytes : List Nat) (service : Nat)
  | v6 (groups : List Nat) (scope service : Nat)
  deriving DecidableEq, Repr

namespace ListenAddress

/-! ## Reading -/

/-- The digits of `base` that `cs` starts with. -/
def leadingDigits (base : Nat) (cs : List Char) : List Char :=
  cs.takeWhile fun c => (digitValue? base c).isSome

/-- A number up to `limit` in front of `cs`, and the rest. With `longest`, more digits than that are
no number. -/
def takeNumber? (base limit : Nat) (longest : Option Nat) (cs : List Char) :
    Option (Nat × List Char) :=
  let ds := leadingDigits base cs
  if longest.any fun n => n < ds.length then none
  else (readNumber? base limit ds).map fun n => (n, cs.drop ds.length)

def takeChar? (c : Char) : List Char → Option (List Char)
  | d :: rest => if d = c then some rest else none
  | [] => none

/-- A byte of an IPv4 address. -/
def takeByte? (cs : List Char) : Option (Nat × List Char) :=
  match cs with
  | '0' :: rest => if (leadingDigits 10 rest).isEmpty then some (0, rest) else none
  | _ => takeNumber? 10 max8 (some 3) cs

/-- An IPv4 address in front of `cs`. -/
def takeBytes? (cs : List Char) : Option (List Nat × List Char) := do
  let (a, cs) ← takeByte? cs
  let cs ← takeChar? '.' cs
  let (b, cs) ← takeByte? cs
  let cs ← takeChar? '.' cs
  let (c, cs) ← takeByte? cs
  let cs ← takeChar? '.' cs
  let (d, cs) ← takeByte? cs
  return ([a, b, c, d], cs)

/-- What `take` finds behind a colon, or at once where there are no groups yet. -/
def behindColon? {α : Type} (isFirst : Bool) (take : List Char → Option (α × List Char))
    (cs : List Char) : Option (α × List Char) :=
  if isFirst then take cs else (takeChar? ':' cs).bind take

/-- At most `n` groups in front of `cs`, whether they end in an IPv4 address, and the rest. -/
def takeGroups (isFirst : Bool) : (n : Nat) → List Char → List Nat × Bool × List Char
  | 0, cs => ([], false, cs)
  | n + 1, cs =>
    let v4 := if n = 0 then none else behindColon? isFirst takeBytes? cs
    match v4 with
    | some ([a, b, c, d], rest) => ([a * 256 + b, c * 256 + d], true, rest)
    | _ =>
      match behindColon? isFirst (takeNumber? 16 max16 (some 4)) cs with
      | none => ([], false, cs)
      | some (g, rest) =>
        let (gs, embedded, rest) := takeGroups false n rest
        (g :: gs, embedded, rest)

/-- An IPv6 address in front of `cs`. -/
def takeV6? (cs : List Char) : Option (List Nat × List Char) :=
  let (front, embedded, rest) := takeGroups true 8 cs
  if front.length = 8 then some (front, rest)
  else if embedded then none
  else do
    let rest ← takeChar? ':' rest
    let rest ← takeChar? ':' rest
    let (back, _, rest) := takeGroups true (7 - front.length) rest
    return (front ++ List.replicate (8 - front.length - back.length) 0 ++ back, rest)

def takeService? (cs : List Char) : Option Nat := do
  let cs ← takeChar? ':' cs
  match takeNumber? 10 max16 none cs with
  | some (service, []) => some service
  | _ => none

def readV4? (cs : List Char) : Option ListenAddress := do
  let (bytes, cs) ← takeBytes? cs
  let service ← takeService? cs
  return .v4 bytes service

def readV6? (cs : List Char) : Option ListenAddress := do
  let cs ← takeChar? '[' cs
  let (groups, cs) ← takeV6? cs
  let (scope, cs) ← match takeChar? '%' cs with
    | some cs => takeNumber? 10 max32 none cs
    | none => some (0, cs)
  let cs ← takeChar? ']' cs
  let service ← takeService? cs
  return .v6 groups scope service

def read? (s : String) : Option ListenAddress := (readV4? s.toList).or (readV6? s.toList)

/-! ## Writing -/

def bytesText (bytes : List Nat) : String := ".".intercalate (bytes.map decimal)

def groupsText (groups : List Nat) : String := ":".intercalate (groups.map (hexLower 1))

/-- The length of the run of zeros in front. -/
def zerosInFront (groups : List Nat) : Nat := (groups.takeWhile (· = 0)).length

/-- Where the first longest run of zeros starts, and its length. -/
def longestZeros (start : Nat) : List Nat → Nat × Nat
  | [] => (start, 0)
  | g :: gs =>
    let here := zerosInFront (g :: gs)
    let later := longestZeros (start + 1) gs
    if later.2 > here then later else (start, here)

def v6Text (groups : List Nat) : String :=
  match groups with
  | [0, 0, 0, 0, 0, 0xFFFF, a, b] => "::ffff:" ++ bytesText [a / 256, a % 256, b / 256, b % 256]
  | _ =>
    let (start, size) := longestZeros 0 groups
    if size < 2 then groupsText groups
    else groupsText (groups.take start) ++ "::" ++ groupsText (groups.drop (start + size))

def text : ListenAddress → String
  | v4 bytes service => bytesText bytes ++ ":" ++ decimal service
  | v6 groups scope service =>
    let zone := if scope = 0 then "" else "%" ++ decimal scope
    "[" ++ v6Text groups ++ zone ++ "]:" ++ decimal service

/-- Service 8080 of every address. -/
def everywhere : ListenAddress := .v4 [0, 0, 0, 0] 8080

end ListenAddress

end FirmwareMailbox

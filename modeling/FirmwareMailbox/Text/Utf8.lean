/-
  FirmwareMailbox.Text.Utf8 — octets read as UTF-8.

  One character at a time. An ill-formed sequence is measured as its longest part that some
  character starts with, and one octet at least: a strict reader refuses the text there, a lenient
  one writes U+FFFD for the part and goes on after it.
-/

namespace FirmwareMailbox.Text.Utf8

/-- What the octets start with: a character, or an ill-formed part, and how many octets it takes. -/
inductive Head where
  | char (c : Char) (size : Nat)
  | bad (size : Nat)
  deriving DecidableEq, Repr

def isTail (b : UInt8) : Bool := 0x80 ≤ b && b ≤ 0xBF

/-- The least and greatest second octet after a first octet of three. -/
def second3 (a : UInt8) : UInt8 × UInt8 :=
  if a = 0xE0 then (0xA0, 0xBF) else if a = 0xED then (0x80, 0x9F) else (0x80, 0xBF)

/-- The least and greatest second octet after a first octet of four. -/
def second4 (a : UInt8) : UInt8 × UInt8 :=
  if a = 0xF0 then (0x90, 0xBF) else if a = 0xF4 then (0x80, 0x8F) else (0x80, 0xBF)

def within (range : UInt8 × UInt8) (b : UInt8) : Bool := range.1 ≤ b && b ≤ range.2

def payload (b : UInt8) : Nat := b.toNat % 64

/-- The head of a text that starts with octet `a`. -/
def head (a : UInt8) (rest : List UInt8) : Head :=
  if a < 0x80 then .char (Char.ofNat a.toNat) 1
  else if 0xC2 ≤ a && a ≤ 0xDF then
    match rest with
    | b :: _ =>
      if isTail b then .char (Char.ofNat (a.toNat % 32 * 64 + payload b)) 2 else .bad 1
    | [] => .bad 1
  else if 0xE0 ≤ a && a ≤ 0xEF then
    match rest with
    | b :: rest =>
      if within (second3 a) b then
        match rest with
        | c :: _ =>
          if isTail c then
            .char (Char.ofNat ((a.toNat % 16 * 64 + payload b) * 64 + payload c)) 3
          else .bad 2
        | [] => .bad 2
      else .bad 1
    | [] => .bad 1
  else if 0xF0 ≤ a && a ≤ 0xF4 then
    match rest with
    | b :: rest =>
      if within (second4 a) b then
        match rest with
        | c :: rest =>
          if isTail c then
            match rest with
            | d :: _ =>
              if isTail d then
                .char (Char.ofNat (((a.toNat % 8 * 64 + payload b) * 64 + payload c) * 64 +
                  payload d)) 4
              else .bad 3
            | [] => .bad 3
          else .bad 2
        | [] => .bad 2
      else .bad 1
    | [] => .bad 1
  else .bad 1

/-- The replacement character. -/
def replacement : Char := Char.ofNat 0xFFFD

/-- The heads of a text, in order. -/
def heads : List UInt8 → List Head
  | [] => []
  | a :: rest =>
    let h := head a rest
    let size := match h with | .char _ n => n | .bad n => n
    h :: heads (rest.drop (size - 1))
termination_by bs => bs.length
decreasing_by rw [List.length_drop, List.length_cons]; omega

/-- Every ill-formed part written as the replacement character. -/
def decodeLossy (bs : List UInt8) : List Char :=
  (heads bs).map fun | .char c _ => c | .bad _ => replacement

/-- The text, if no part of it is ill-formed. -/
def decode? (bs : List UInt8) : Option (List Char) :=
  (heads bs).mapM fun | .char c _ => some c | .bad _ => none

end FirmwareMailbox.Text.Utf8

/-
  FirmwareMailbox.Text.Numeral — how numbers are written and how they are read.

  Written: decimal, and hexadecimal in either case with zeros in front up to a width.

  Read: one optional `+`, then one digit or more, each below the base, letters of either case
  counting from ten. Leading zeros are free. The digits are taken from the left and the first
  fault met is the answer, so `256x` is too large for a byte before its `x` is seen. A `-` is no
  digit: what is read is unsigned.
-/

namespace FirmwareMailbox.Text

/-! ## Writing -/

/-- `n` in decimal digits. -/
def decimal (n : Nat) : String := String.ofList (Nat.toDigits 10 n)

/-- An integer in decimal digits, a minus in front of a negative one. -/
def signed : Int → String
  | .ofNat n => decimal n
  | .negSucc n => "-" ++ decimal (n + 1)

/-- `n` in lower-case hexadecimal digits, zeros in front up to `width` characters. -/
def hexDigits (width n : Nat) : List Char :=
  let ds := Nat.toDigits 16 n
  List.replicate (width - ds.length) '0' ++ ds

def hexLower (width n : Nat) : String := String.ofList (hexDigits width n)

def hexUpper (width n : Nat) : String := String.ofList ((hexDigits width n).map Char.toUpper)

/-! ## Reading -/

/-- Why a text is not a number of the range asked for. -/
inductive NumberFault where
  | empty
  | invalidDigit
  | tooLarge
  deriving DecidableEq, Repr

def NumberFault.message : NumberFault → String
  | .empty => "cannot parse integer from empty string"
  | .invalidDigit => "invalid digit found in string"
  | .tooLarge => "number too large to fit in target type"

/-- The value of an ASCII digit of `base`, up to sixteen. -/
def digitValue? (base : Nat) (c : Char) : Option Nat :=
  let v :=
    if '0' ≤ c ∧ c ≤ '9' then some (c.toNat - '0'.toNat)
    else if 'a' ≤ c ∧ c ≤ 'f' then some (c.toNat - 'a'.toNat + 10)
    else if 'A' ≤ c ∧ c ≤ 'F' then some (c.toNat - 'A'.toNat + 10)
    else none
  v.filter (· < base)

/-- Takes the digits of `cs` onto `acc`, refusing to pass `limit`. -/
def takeDigits (base limit acc : Nat) : List Char → Except NumberFault Nat
  | [] => .ok acc
  | c :: cs =>
    match digitValue? base c with
    | none => .error .invalidDigit
    | some d =>
      if limit < acc * base + d then .error .tooLarge
      else takeDigits base limit (acc * base + d) cs

/-- The number up to `limit` that `cs` writes in `base`. -/
def readNumber (base limit : Nat) : List Char → Except NumberFault Nat
  | [] => .error .empty
  | ['+'] => .error .invalidDigit
  | '+' :: c :: cs => takeDigits base limit 0 (c :: cs)
  | cs => takeDigits base limit 0 cs

/-- `readNumber` where the reason of a failure does not matter. -/
def readNumber? (base limit : Nat) (cs : List Char) : Option Nat :=
  (readNumber base limit cs).toOption

/-- The highest values of 8, 16, 32 and 64 bits. -/
def max8 : Nat := 0xFF
def max16 : Nat := 0xFFFF
def max32 : Nat := 0xFFFFFFFF
def max64 : Nat := 0xFFFFFFFFFFFFFFFF

end FirmwareMailbox.Text

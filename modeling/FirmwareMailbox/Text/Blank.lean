/-
  FirmwareMailbox.Text.Blank — the characters with the Unicode property White_Space, and texts
  without them at either end. The zero-width space U+200B and the byte order mark U+FEFF do not
  have the property.
-/

namespace FirmwareMailbox.Text

/-- The ranges of White_Space. -/
def blankRanges : List (Nat × Nat) :=
  [(0x09, 0x0D), (0x20, 0x20), (0x85, 0x85), (0xA0, 0xA0), (0x1680, 0x1680), (0x2000, 0x200A),
    (0x2028, 0x2029), (0x202F, 0x202F), (0x205F, 0x205F), (0x3000, 0x3000)]

def isBlank (c : Char) : Bool := blankRanges.any fun (lo, hi) => lo ≤ c.toNat && c.toNat ≤ hi

def trimLeft (cs : List Char) : List Char := cs.dropWhile isBlank

def trimRight (cs : List Char) : List Char := (cs.reverse.dropWhile isBlank).reverse

/-- `cs` without the blanks at its ends. -/
def trim (cs : List Char) : List Char := trimRight (trimLeft cs)

/-- The same of a string. -/
def trimmed (s : String) : String := String.ofList (trim s.toList)

end FirmwareMailbox.Text

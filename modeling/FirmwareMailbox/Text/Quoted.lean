/-
  FirmwareMailbox.Text.Quoted — a text shown in a message, so that its extent and its invisible
  characters can be seen: between double quotes, a quote and a backslash behind a backslash, tab,
  newline, return and NUL by letter, every other character that does not print by number.
-/

import FirmwareMailbox.Text.Numeral
import FirmwareMailbox.Text.Printable

namespace FirmwareMailbox.Text

def quotedChar (c : Char) : List Char :=
  match c with
  | '"' => ['\\', '"']
  | '\\' => ['\\', '\\']
  | '\t' => ['\\', 't']
  | '\n' => ['\\', 'n']
  | '\r' => ['\\', 'r']
  | '\x00' => ['\\', '0']
  | c =>
    if isPrintable c then [c]
    else ['\\', 'u', '\x7b'] ++ hexDigits 1 c.toNat ++ ['\x7d']

def quotedChars (cs : List Char) : List Char := '"' :: cs.flatMap quotedChar ++ ['"']

/-- `s` as a message shows it. -/
def quoted (s : String) : String := String.ofList (quotedChars s.toList)

end FirmwareMailbox.Text

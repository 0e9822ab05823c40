/-
  FirmwareMailbox.Text.Split — cutting a text at separators. Nothing is lost: the pieces with the
  separators between them are the text.
-/

namespace FirmwareMailbox.Text

/-- What stands before and after the first `sep`, if there is one. -/
def splitOnce (sep : Char) : List Char → Option (List Char × List Char)
  | [] => none
  | c :: cs => if c = sep then some ([], cs) else (splitOnce sep cs).map fun (a, b) => (c :: a, b)

/-- Puts `c` in front of the first piece. -/
def consHead (c : Char) : List (List Char) → List (List Char)
  | [] => [[c]]
  | p :: ps => (c :: p) :: ps

/-- The pieces between the occurrences of `sep`. -/
def pieces (sep : Char) : List Char → List (List Char)
  | [] => [[]]
  | c :: cs => if c = sep then [] :: pieces sep cs else consHead c (pieces sep cs)

/-- The pieces between occurrences of two newlines in a row, found from the left: three newlines
in a row leave one at the start of the next piece. -/
def stanzas : List Char → List (List Char)
  | [] => [[]]
  | '\n' :: '\n' :: cs => [] :: stanzas cs
  | c :: cs => consHead c (stanzas cs)

/-- The lines of a piece. -/
def lines (cs : List Char) : List (List Char) := pieces '\n' cs

/-- What follows `lead`, if `cs` starts with it. -/
def dropLead? : (lead cs : List Char) → Option (List Char)
  | [], cs => some cs
  | _ :: _, [] => none
  | p :: ps, c :: cs => if p = c then dropLead? ps cs else none

end FirmwareMailbox.Text

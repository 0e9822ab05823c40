/-
  FirmwareMailbox.Text.Path — names of files as texts, their parts joined by slashes.
-/

namespace FirmwareMailbox.Text

/-- `rest` below `root`: one slash between them, none after an empty root or one that ends in a
slash; a `rest` that starts with a slash stands alone. -/
def joinPath (root rest : String) : String :=
  if rest.startsWith '/' then rest
  else if root.isEmpty || root.endsWith '/' then root ++ rest
  else root ++ "/" ++ rest

end FirmwareMailbox.Text

import ImportSweep.Text.Word

/-!
# Interpolations

A text may name variables in the form of an at sign and a name in braces. `interpolations` reads a
text once, from left to right, and lists the names.
-/

namespace ImportSweep.Names

/-- A character that may stand in the name of an spliced variable. -/
def isNameChar (c : Char) : Bool :=
  Text.isWord c || c = '-'

/-- Where in a text the scan for interpolations stands. -/
inductive Scan where
  /-- Outside of an interpolation. -/
  | outside
  /-- After an at sign. -/
  | afterAt
  /-- Inside the braces; the characters of the name so far, last first. -/
  | inName (name : List Char)
  deriving DecidableEq, Repr

/-- What one more character does to a scan that it does not continue. -/
def Scan.restart (c : Char) : Scan :=
  if c = '@' then .afterAt else .outside

/-- The names of the interpolations in the rest of a text. -/
def Scan.names : Scan → List Char → List String
  | _, [] => []
  | .outside, c :: rest => (restart c).names rest
  | .afterAt, c :: rest => (if c = '\x7b' then .inName [] else restart c : Scan).names rest
  | .inName name, c :: rest =>
    if isNameChar c then (Scan.inName (c :: name)).names rest
    else if c = '\x7d' && !name.isEmpty then
      String.ofList ('@' :: name.reverse) :: Scan.outside.names rest
    else (restart c).names rest

/-- The variables that a text names by interpolation, each with its at sign. -/
def interpolations (text : String) : List String :=
  Scan.outside.names text.toList

end ImportSweep.Names

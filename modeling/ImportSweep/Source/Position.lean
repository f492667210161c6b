import ImportSweep.Tree.Error

/-!
# Places in a source text

Syntax trees give places as numbers of UTF-16 units in the normalised text: without the byte order
mark, and with every line end folded to a line feed. Edits are made in the source itself, so a
place is turned into a number of bytes first.

`bytePosition` does this, and `lineOf` gives the line of a place. `normalise` and `units` define
what they are measured against.
-/

namespace ImportSweep.Source

open ImportSweep.Tree

/-- The byte order mark. -/
def bom : Char := '\ufeff'

/-- The byte order mark at the beginning of a text, if there is one. -/
def leadingBom : List Char → List Char
  | c :: _ => if c = bom then [bom] else []
  | [] => []

/-- The text after the byte order mark. -/
def afterBom : List Char → List Char
  | c :: rest => if c = bom then rest else c :: rest
  | [] => []

/-- The number of bytes of a text. -/
def byteLength : List Char → Nat
  | [] => 0
  | c :: rest => c.utf8Size + byteLength rest

/-- The number of UTF-16 units of a character. -/
def unitSize (c : Char) : Nat :=
  if c.toNat < 0x10000 then 1 else 2

/-- The number of UTF-16 units of a text. -/
def units : List Char → Nat
  | [] => 0
  | c :: rest => unitSize c + units rest

/-- Folds every line end to a line feed. -/
def foldLineEnds : List Char → List Char
  | [] => []
  | '\r' :: '\n' :: rest => '\n' :: foldLineEnds rest
  | '\r' :: rest => '\n' :: foldLineEnds rest
  | c :: rest => c :: foldLineEnds rest

/-- The text that offsets are counted in. -/
def normalise (text : List Char) : List Char :=
  foldLineEnds (afterBom text)

/-- The byte at which `offset` units of the normalised text have gone by. The text begins at byte
`position`. -/
def byteOffsetFrom : Nat → Nat → List Char → Option Nat
  | position, 0, _ => some position
  | _, _ + 1, [] => none
  | position, offset + 1, '\r' :: '\n' :: rest => byteOffsetFrom (position + 2) offset rest
  | position, offset + 1, c :: rest =>
    if unitSize c ≤ offset + 1 then
      byteOffsetFrom (position + c.utf8Size) (offset + 1 - unitSize c) rest
    else none

/-- The byte of a source at which an offset lies. -/
def bytePosition (source : List Char) (offset : Nat) : Except TreeError Nat :=
  match byteOffsetFrom (byteLength (leadingBom source)) offset (afterBom source) with
  | some position => .ok position
  | none => .error (.offsetOutOfRange offset)

/-- The number of line ends that begin before byte `limit`. The text begins at byte `position`,
and a carriage return before a line feed is one line end with it. -/
def breaksBefore (limit : Nat) : Nat → List Char → Nat
  | _, [] => 0
  | position, c :: rest =>
    if position < limit then
      let isBreak := c = '\n' || (c = '\r' && rest.head? ≠ some '\n')
      (if isBreak then 1 else 0) + breaksBefore limit (position + c.utf8Size) rest
    else 0

/-- The line on which a byte of a source lies, counted from one. -/
def lineOf (source : List Char) (position : Nat) : Nat :=
  breaksBefore position 0 source + 1

end ImportSweep.Source

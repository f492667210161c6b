import ImportSweep.Json.Basic

/-!
# Writing JSON

JSON values are written either without any blanks or with every item and member on a line of its
own. In texts only quotes, backslashes and control characters are escaped.
-/

namespace ImportSweep.Json

/-- How the parts of arrays and objects are set out. -/
inductive Style where
  /-- Without blanks. -/
  | compact
  /-- Each part on a line of its own, two blanks further in than its surroundings. -/
  | pretty
  deriving DecidableEq, Repr

namespace Style

/-- What stands before a part that is `depth` levels down. -/
def lineBreak (style : Style) (depth : Nat) : List Char :=
  match style with
  | compact => []
  | pretty => '\n' :: List.replicate (2 * depth) ' '

/-- What stands between a member's name and its value. -/
def colon : Style → List Char
  | compact => [':']
  | pretty => [':', ' ']

end Style

/-- A lower case hexadecimal digit. -/
def hexChar (n : Nat) : Char :=
  Nat.digitChar (n % 16)

/-- How a character stands in a text. -/
def escapeChar (c : Char) : List Char :=
  match c with
  | '"' => ['\\', '"']
  | '\\' => ['\\', '\\']
  | '\x08' => ['\\', 'b']
  | '\x0c' => ['\\', 'f']
  | '\n' => ['\\', 'n']
  | '\r' => ['\\', 'r']
  | '\t' => ['\\', 't']
  | c =>
    if c.toNat < 0x20 then ['\\', 'u', '0', '0', hexChar (c.toNat / 16), hexChar c.toNat] else [c]

/-- A text with its quotes. -/
def writeText (text : String) : List Char :=
  '"' :: (text.toList.flatMap escapeChar ++ ['"'])

mutual

/-- Writes a value that stands `depth` levels down. -/
def write (style : Style) (depth : Nat) : Json → List Char
  | .null => "null".toList
  | .flag true => "true".toList
  | .flag false => "false".toList
  | .number n => n.text.toList
  | .text s => writeText s
  | .array [] => ['[', ']']
  | .array (item :: rest) =>
    '[' :: (style.lineBreak (depth + 1) ++ write style (depth + 1) item ++
      writeItems style (depth + 1) rest ++ style.lineBreak depth ++ [']'])
  | .object [] => ['\x7b', '\x7d']
  | .object ((name, value) :: rest) =>
    '\x7b' :: (style.lineBreak (depth + 1) ++ writeText name ++ style.colon ++
      write style (depth + 1) value ++ writeMembers style (depth + 1) rest ++
      style.lineBreak depth ++ ['\x7d'])

/-- Writes the items after the first one. -/
def writeItems (style : Style) (depth : Nat) : List Json → List Char
  | [] => []
  | item :: rest =>
    ',' :: (style.lineBreak depth ++ write style depth item ++ writeItems style depth rest)

/-- Writes the members after the first one. -/
def writeMembers (style : Style) (depth : Nat) : List (String × Json) → List Char
  | [] => []
  | (name, value) :: rest =>
    ',' :: (style.lineBreak depth ++ writeText name ++ style.colon ++ write style depth value ++
      writeMembers style depth rest)

end

/-- A value without blanks. -/
def compactText (j : Json) : String :=
  String.ofList (j.write .compact 0)

/-- A value over several lines. -/
def prettyText (j : Json) : String :=
  String.ofList (j.write .pretty 0)

end ImportSweep.Json

/-!
# Bytes as text

Bytes are read as UTF-8 from left to right. What is no character is kept as stray bytes, in the
longest pieces that some character could begin with.
-/

namespace ImportSweep.Text

/-- A piece of a sequence of bytes. -/
inductive Piece where
  /-- A character. -/
  | char (c : Char)
  /-- That many bytes that are no character. -/
  | stray (count : Nat)
  deriving DecidableEq, Repr

/-- A character that is being read. -/
structure Pending where
  /-- The bytes read so far. -/
  seen : Nat
  /-- The bytes still due. -/
  due : Nat
  /-- The bits read so far. -/
  bits : Nat
  /-- The least next byte. -/
  low : Nat
  /-- The greatest next byte. -/
  high : Nat
  deriving DecidableEq, Repr

/-- What a first byte begins: a character by itself, a longer one, or nothing. -/
def beginPiece (b : Nat) : Option Pending × List Piece :=
  if b < 0x80 then (none, [.char (Char.ofNat b)])
  else if 0xC2 ≤ b ∧ b ≤ 0xDF then (some ⟨1, 1, b - 0xC0, 0x80, 0xBF⟩, [])
  else if b = 0xE0 then (some ⟨1, 2, 0, 0xA0, 0xBF⟩, [])
  else if b = 0xED then (some ⟨1, 2, 0xD, 0x80, 0x9F⟩, [])
  else if 0xE1 ≤ b ∧ b ≤ 0xEF then (some ⟨1, 2, b - 0xE0, 0x80, 0xBF⟩, [])
  else if b = 0xF0 then (some ⟨1, 3, 0, 0x90, 0xBF⟩, [])
  else if 0xF1 ≤ b ∧ b ≤ 0xF3 then (some ⟨1, 3, b - 0xF0, 0x80, 0xBF⟩, [])
  else if b = 0xF4 then (some ⟨1, 3, 4, 0x80, 0x8F⟩, [])
  else (none, [.stray 1])

/-- What one more byte does. -/
def feedByte (pending : Option Pending) (b : Nat) : Option Pending × List Piece :=
  match pending with
  | none => beginPiece b
  | some p =>
    if p.low ≤ b ∧ b ≤ p.high then
      let bits := p.bits * 64 + (b - 0x80)
      if p.due ≤ 1 then (none, [.char (Char.ofNat bits)])
      else (some ⟨p.seen + 1, p.due - 1, bits, 0x80, 0xBF⟩, [])
    else
      let (next, pieces) := beginPiece b
      (next, .stray p.seen :: pieces)

/-- The pieces of the rest of a sequence of bytes. -/
def piecesFrom : Option Pending → List UInt8 → List Piece
  | none, [] => []
  | some p, [] => [.stray p.seen]
  | pending, b :: rest =>
    let (next, pieces) := feedByte pending b.toNat
    pieces ++ piecesFrom next rest

/-- The pieces of a sequence of bytes. -/
def pieces (bytes : List UInt8) : List Piece :=
  piecesFrom none bytes

/-- The text that bytes stand for, if all of them belong to characters. -/
def decode? (bytes : List UInt8) : Option String :=
  let chars := (pieces bytes).mapM fun
    | .char c => some c
    | .stray _ => none
  chars.map String.ofList

/-- The text that bytes stand for, with a replacement character for each stray piece. -/
def decodeLossy (bytes : List UInt8) : List Char :=
  (pieces bytes).map fun
    | .char c => c
    | .stray _ => '\ufffd'

/-- The bytes as characters, with nothing in place of each stray byte. -/
def symbols (bytes : List UInt8) : List (Option Char) :=
  (pieces bytes).flatMap fun
    | .char c => [some c]
    | .stray count => List.replicate count none

/-- The bytes of a text. -/
def encode (text : String) : List UInt8 :=
  text.toUTF8.toList

end ImportSweep.Text

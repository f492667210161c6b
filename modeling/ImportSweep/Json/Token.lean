import ImportSweep.Json.Number

/-!
# Tokens of JSON text

A text is read one symbol at a time. `Lexer.feed` says what one more symbol does, and `tokens` runs
it over a whole text. A token that cannot be finished is the last one, and says why.
-/

namespace ImportSweep.Json

/-- A character, or a byte that belongs to none. -/
abbrev Symbol := Option Char

/-- The number of bytes of a symbol. -/
def symbolSize : Symbol → Nat
  | some c => c.utf8Size
  | none => 1

/-- A piece of JSON text. -/
inductive Token where
  /-- An opening bracket. -/
  | openArray
  /-- A closing bracket. -/
  | closeArray
  /-- An opening brace. -/
  | openObject
  /-- A closing brace. -/
  | closeObject
  /-- A colon. -/
  | colon
  /-- A comma. -/
  | comma
  /-- The word `null`. -/
  | null
  /-- One of the words `true` and `false`. -/
  | flag (value : Bool)
  /-- A number, or the fault of its size. -/
  | number (value : Except Fault Number)
  /-- A quoted text, or the fault of its characters. -/
  | text (value : Except Fault String)
  /-- A quoted text that breaks off. -/
  | brokenText (why : Break)
  /-- Any other token that breaks off, or a character that begins none. -/
  | broken (why : Break)

/-- Where in a quoted text the reading stands. -/
inductive TextPlace where
  /-- Among plain characters; after an escaped leading surrogate, that one. -/
  | plain (leading : Option Nat)
  /-- After a backslash. -/
  | escape (leading : Option Nat)
  /-- Inside a four digit escape: the bytes seen, and their value while all are digits. -/
  | hex (leading : Option Nat) (bytes : Nat) (value : Option Nat)
  deriving DecidableEq, Repr

/-- A quoted text that is being read. -/
structure TextReading where
  /-- The characters so far, last first. -/
  chars : List Char
  /-- The first fault that a reader of the text meets, and one who passes over it does not. -/
  fault : Option Fault
  /-- A byte that belongs to no character was seen. -/
  stray : Bool
  /-- The place reached. -/
  place : TextPlace
  deriving Repr

namespace TextReading

/-- Just after the opening quote. -/
def start : TextReading :=
  ⟨[], none, false, .plain none⟩

/-- Notes a fault of the characters, unless one was met before. -/
def flaw (t : TextReading) (fault : Fault) : TextReading :=
  { t with fault := t.fault <|> some fault }

/-- The break of the text at a fault that none can pass over. -/
def breakAt (t : TextReading) (fault : Fault) : Break :=
  ⟨t.fault.getD fault, fault⟩

/-- Adds a character and goes on among plain ones. -/
def push (t : TextReading) (c : Char) : TextReading :=
  { t with chars := c :: t.chars, place := .plain none }

/-- The token of the text at its closing quote. -/
def finish (t : TextReading) : Token :=
  match t.fault with
  | some fault => .text (.error fault)
  | none =>
    if t.stray then .text (.error .invalidCodePoint)
    else .text (.ok (String.ofList t.chars.reverse))

/-- The character that a one letter escape stands for. -/
def escaped? : Char → Option Char
  | '"' => some '"'
  | '\\' => some '\\'
  | '/' => some '/'
  | 'b' => some '\x08'
  | 'f' => some '\x0c'
  | 'n' => some '\n'
  | 'r' => some '\r'
  | 't' => some '\t'
  | _ => none

/-- A UTF-16 unit that begins a pair. -/
def isLeading (n : Nat) : Bool :=
  0xD800 ≤ n && n ≤ 0xDBFF

/-- A UTF-16 unit that ends a pair. -/
def isTrailing (n : Nat) : Bool :=
  0xDC00 ≤ n && n ≤ 0xDFFF

/-- Takes the value of a four digit escape. -/
def takeUnit (t : TextReading) (leading : Option Nat) (n : Nat) : TextReading :=
  match leading with
  | some first =>
    if isTrailing n then
      t.push (Char.ofNat ((first - 0xD800) * 0x400 + (n - 0xDC00) + 0x10000))
    else { t.flaw .loneSurrogate with place := .plain none }
  | none =>
    if isTrailing n then { t.flaw .loneSurrogate with place := .plain none }
    else if isLeading n then { t with place := .plain (some n) }
    else t.push (Char.ofNat n)

/-- The value of a hexadecimal digit. -/
def hexDigit? (c : Char) : Option Nat :=
  if '0' ≤ c && c ≤ '9' then some (c.toNat - 48)
  else if 'a' ≤ c && c ≤ 'f' then some (c.toNat - 87)
  else if 'A' ≤ c && c ≤ 'F' then some (c.toNat - 55)
  else none

/-- Takes one plain symbol of the text, which is neither a quote nor a backslash. -/
def takePlain (t : TextReading) : Symbol → Except Break TextReading
  | none => .ok { t with stray := true, place := .plain none }
  | some c => if c.toNat < 0x20 then .error (t.breakAt .controlCharacter) else .ok (t.push c)

/-- Takes the symbol after a backslash. -/
def takeEscape (t : TextReading) (leading : Option Nat) : Symbol → Except Break TextReading
  | some 'u' => .ok { t with place := .hex leading 0 (some 0) }
  | symbol =>
    let t := if leading.isSome then t.flaw .endOfHexEscape else t
    match symbol.bind escaped? with
    | some c => .ok (t.push c)
    | none => .error (t.breakAt .invalidEscape)

/-- Takes one symbol of a four digit escape, which is judged once four bytes are there. -/
def takeHex (t : TextReading) (leading : Option Nat) (bytes : Nat) (value : Option Nat)
    (symbol : Symbol) : Except Break TextReading :=
  let bytes := bytes + symbolSize symbol
  let value := do return (← value) * 16 + (← hexDigit? (← symbol))
  if bytes < 4 then .ok { t with place := .hex leading bytes value }
  else match value with
    | some n => .ok (t.takeUnit leading n)
    | none => .error (t.breakAt .invalidEscape)

end TextReading

/-- Where in a numeral the reading stands. -/
inductive NumeralPlace where
  /-- After the minus sign. -/
  | sign
  /-- After a leading zero. -/
  | zero
  /-- Among the digits before the point. -/
  | whole
  /-- After the point. -/
  | point
  /-- Among the digits after the point. -/
  | fraction
  /-- After the letter of the exponent. -/
  | letter
  /-- After the sign of the exponent. -/
  | exponentSign
  /-- Among the digits of the exponent. -/
  | exponent
  deriving DecidableEq, Repr

/-- A numeral that is being read; its digits stand last first. -/
structure NumeralReading where
  numeral : Numeral
  place : NumeralPlace
  deriving Repr

namespace NumeralReading

/-- The numeral may end here. -/
def complete (n : NumeralReading) : Bool :=
  match n.place with
  | .zero | .whole | .fraction | .exponent => true
  | .sign | .point | .letter | .exponentSign => false

/-- The token of a complete numeral. -/
def finish (n : NumeralReading) : Token :=
  .number (Numeral.value
    { n.numeral with
      whole := n.numeral.whole.reverse
      fraction := n.numeral.fraction.map List.reverse
      exponent := n.numeral.exponent.map fun e => (e.1, e.2.reverse) })

/-- What one more character does to a numeral. -/
inductive Advance where
  /-- The character belongs to the numeral. -/
  | more (reading : NumeralReading)
  /-- The numeral ended before the character. -/
  | done
  /-- The numeral cannot go on like this. -/
  | wrong

/-- Adds a digit before the point. -/
def pushWhole (n : NumeralReading) (d : Nat) (place : NumeralPlace) : NumeralReading :=
  ⟨{ n.numeral with whole := d :: n.numeral.whole }, place⟩

/-- Adds a digit after the point. -/
def pushFraction (n : NumeralReading) (d : Nat) : NumeralReading :=
  ⟨{ n.numeral with fraction := some (d :: n.numeral.fraction.getD []) }, .fraction⟩

/-- Adds a digit of the exponent. -/
def pushExponent (n : NumeralReading) (d : Nat) : NumeralReading :=
  ⟨{ n.numeral with exponent := n.numeral.exponent.map fun e => (e.1, d :: e.2) }, .exponent⟩

/-- Begins the exponent. -/
def beginExponent (n : NumeralReading) : NumeralReading :=
  ⟨{ n.numeral with exponent := some (false, []) }, .letter⟩

/-- The value of a decimal digit. -/
def digit? (symbol : Symbol) : Option Nat := do
  let c ← symbol
  if '0' ≤ c && c ≤ '9' then some (c.toNat - 48) else none

/-- What one more symbol does to a numeral. -/
def advance (n : NumeralReading) (symbol : Symbol) : Advance :=
  match n.place, digit? symbol with
  | .sign, some 0 => .more (n.pushWhole 0 .zero)
  | .sign, some d => .more (n.pushWhole d .whole)
  | .sign, none => .wrong
  | .zero, some _ => .wrong
  | .whole, some d => .more (n.pushWhole d .whole)
  | .point, some d => .more (n.pushFraction d)
  | .point, none => .wrong
  | .fraction, some d => .more (n.pushFraction d)
  | .letter, some d => .more (n.pushExponent d)
  | .letter, none =>
    if symbol = some '+' then .more { n with place := .exponentSign }
    else if symbol = some '-' then
      .more ⟨{ n.numeral with exponent := some (true, []) }, .exponentSign⟩
    else .wrong
  | .exponentSign, some d => .more (n.pushExponent d)
  | .exponentSign, none => .wrong
  | .exponent, some d => .more (n.pushExponent d)
  | .exponent, none => .done
  | .zero, none | .whole, none =>
    if symbol = some '.' then .more { n with place := .point }
    else if symbol = some 'e' || symbol = some 'E' then .more n.beginExponent
    else .done
  | .fraction, none =>
    if symbol = some 'e' || symbol = some 'E' then .more n.beginExponent else .done

end NumeralReading

/-- The state of the reading between two symbols. -/
inductive Lexer where
  /-- Between tokens. -/
  | idle
  /-- Inside one of the words: the characters still due, and the word's token. -/
  | word (due : List Char) (token : Token)
  /-- Inside a numeral. -/
  | numeral (reading : NumeralReading)
  /-- Inside a quoted text. -/
  | text (reading : TextReading)
  /-- After a token that broke off. -/
  | stopped

namespace Lexer

/-- A state together with the tokens that were finished on the way to it. -/
abbrev Result := Lexer × List Token

/-- A break of the current token, after which nothing is read. -/
def fail (why : Break) : Result :=
  (stopped, [.broken why])

/-- What a symbol between two tokens does. -/
def feedIdle : Symbol → Result
  | none => fail (.both .expectedValue)
  | some c =>
    match c with
    | ' ' | '\t' | '\n' | '\r' => (idle, [])
    | '[' => (idle, [.openArray])
    | ']' => (idle, [.closeArray])
    | '\x7b' => (idle, [.openObject])
    | '\x7d' => (idle, [.closeObject])
    | ':' => (idle, [.colon])
    | ',' => (idle, [.comma])
    | '"' => (text .start, [])
    | 'n' => (word ['u', 'l', 'l'] .null, [])
    | 't' => (word ['r', 'u', 'e'] (.flag true), [])
    | 'f' => (word ['a', 'l', 's', 'e'] (.flag false), [])
    | '-' => (numeral ⟨⟨true, [], none, none⟩, .sign⟩, [])
    | _ =>
      match NumeralReading.digit? (some c) with
      | some 0 => (numeral ⟨⟨false, [0], none, none⟩, .zero⟩, [])
      | some d => (numeral ⟨⟨false, [d], none, none⟩, .whole⟩, [])
      | none => fail (.both .expectedValue)

/-- What a symbol inside a word does. -/
def feedWord (due : List Char) (token : Token) (symbol : Symbol) : Result :=
  match due with
  | [] => fail (.both .expectedWord)
  | c :: rest =>
    if symbol = some c then
      if rest.isEmpty then (idle, [token]) else (word rest token, [])
    else fail (.both .expectedWord)

/-- What a symbol inside a numeral does. -/
def feedNumeral (reading : NumeralReading) (symbol : Symbol) : Result :=
  match reading.advance symbol with
  | .more reading => (numeral reading, [])
  | .wrong => fail (.both .invalidNumber)
  | .done =>
    let (next, tokens) := feedIdle symbol
    (next, reading.finish :: tokens)

/-- What a symbol inside a quoted text does. -/
def feedText (reading : TextReading) (symbol : Symbol) : Result :=
  let next : Except Break TextReading → Result
    | .ok reading => (text reading, [])
    | .error why => (stopped, [.brokenText why])
  match reading.place with
  | .plain leading =>
    if symbol = some '\\' then (text { reading with place := .escape leading }, [])
    else
      let reading := if leading.isSome then reading.flaw .endOfHexEscape else reading
      if symbol = some '"' then (idle, [reading.finish]) else next (reading.takePlain symbol)
  | .escape leading => next (reading.takeEscape leading symbol)
  | .hex leading bytes value => next (reading.takeHex leading bytes value symbol)

/-- What one more symbol does. -/
def feed : Lexer → Symbol → Result
  | idle, symbol => feedIdle symbol
  | word due token, symbol => feedWord due token symbol
  | numeral reading, symbol => feedNumeral reading symbol
  | text reading, symbol => feedText reading symbol
  | stopped, _ => (stopped, [])

/-- The tokens that the end of the text finishes. -/
def finish : Lexer → List Token
  | idle | stopped => []
  | word _ _ => [.broken (.both .endInValue)]
  | numeral reading =>
    if reading.complete then [reading.finish] else [.broken ⟨.endInValue, .invalidNumber⟩]
  | text reading => [.brokenText (reading.breakAt .endInText)]

/-- The tokens of the rest of a text. -/
def tokens : Lexer → List Symbol → List Token
  | state, [] => state.finish
  | state, symbol :: rest =>
    let (state, found) := state.feed symbol
    found ++ state.tokens rest

end Lexer

/-- The tokens of a text. -/
def tokens (symbols : List Symbol) : List Token :=
  Lexer.idle.tokens symbols

end ImportSweep.Json

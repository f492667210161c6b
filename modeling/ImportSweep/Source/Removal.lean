import ImportSweep.Source.Position
import ImportSweep.Text.Blank

/-!
# Removing lines

An import statement is removed together with the rest of its line. If only white space stands
before it, the whole line goes, line end included; otherwise the line is cut at the statement and
its line end stays. All spans are found first; then they are put in order, joined where they
touch, and cut out from the last to the first.
-/

namespace ImportSweep.Source

open ImportSweep.Tree

/-- The first `count` bytes of a text, in whole characters. -/
def takeBytes : Nat → List Char → List Char
  | _, [] => []
  | count, c :: rest => if c.utf8Size ≤ count then c :: takeBytes (count - c.utf8Size) rest else []

/-- The text after its first `count` bytes, in whole characters. -/
def dropBytes : Nat → List Char → List Char
  | _, [] => []
  | count, c :: rest =>
    if c.utf8Size ≤ count then dropBytes (count - c.utf8Size) rest else c :: rest

/-- The bytes from `start` up to `stop`. -/
structure Span where
  /-- The first byte. -/
  start : Nat
  /-- The byte after the last one. -/
  stop : Nat
  deriving DecidableEq, Repr

/-- A character that ends a line, by itself or with another. -/
def isLineEnd (c : Char) : Bool :=
  c = '\n' || c = '\r'

/-- The byte after the last line end of a text that begins at byte `position`; `start` if there is
none. -/
def lastLineStart (start : Nat) : Nat → List Char → Nat
  | _, [] => start
  | position, c :: rest =>
    lastLineStart (if isLineEnd c then position + 1 else start) (position + c.utf8Size) rest

/-- The number of bytes of the line end that a text begins with. -/
def lineEndLength : List Char → Nat
  | '\r' :: '\n' :: _ => 2
  | _ :: _ => 1
  | [] => 0

/-- The span to remove for a statement at byte `position`. -/
def statementSpan (source : List Char) (position : Nat) : Span :=
  let before := takeBytes position source
  let rest := dropBytes position source
  let lineStart := lastLineStart (byteLength (leadingBom source)) 0 before
  let lineEnd := position + byteLength (rest.takeWhile fun c => !isLineEnd c)
  if Text.AllBlank (dropBytes lineStart before) then
    ⟨lineStart, lineEnd + lineEndLength (rest.dropWhile fun c => !isLineEnd c)⟩
  else ⟨position, lineEnd⟩

/-- Puts a span in its place among spans ordered by their first bytes. -/
def insertSpan (span : Span) : List Span → List Span
  | [] => [span]
  | first :: rest =>
    if span.start ≤ first.start then span :: first :: rest else first :: insertSpan span rest

/-- Spans ordered by their first bytes. -/
def sortSpans : List Span → List Span
  | [] => []
  | span :: rest => insertSpan span (sortSpans rest)

/-- Joins ordered spans that touch or overlap; `current` is the one that grows. -/
def joinSpans (current : Span) : List Span → List Span
  | [] => [current]
  | span :: rest =>
    if span.start ≤ current.stop then
      joinSpans ⟨current.start, max current.stop span.stop⟩ rest
    else current :: joinSpans span rest

/-- Spans in order, joined where they touch or overlap. -/
def mergeSpans (spans : List Span) : List Span :=
  match sortSpans spans with
  | [] => []
  | span :: rest => joinSpans span rest

/-- The text without a span. -/
def Span.erase (span : Span) (text : List Char) : List Char :=
  takeBytes span.start text ++ dropBytes span.stop text

/-- The text without ordered spans; the last is cut out first. -/
def eraseSpans (spans : List Span) (text : List Char) : List Char :=
  spans.foldr Span.erase text

/-- The spans to remove for statements at the given offsets. -/
def removalSpans (source : List Char) (offsets : List Nat) : Except TreeError (List Span) :=
  offsets.mapM fun offset => do return statementSpan source (← bytePosition source offset)

/-- The source without the lines of the statements at the given offsets. -/
def removeLines (source : String) (offsets : List Nat) : Except TreeError String := do
  let spans ← removalSpans source.toList offsets
  return String.ofList (eraseSpans (mergeSpans spans) source.toList)

end ImportSweep.Source

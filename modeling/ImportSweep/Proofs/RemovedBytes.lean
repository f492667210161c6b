import Mathlib.Data.List.Pairwise
import ImportSweep.Proofs.Fallible
import ImportSweep.Proofs.Offsets
import ImportSweep.Proofs.Spans

/-!
# The bytes that a removal takes away

`Removed source offsets p` says when byte `p` goes: a statement is on its line and has only white
space before it, or the statement begins at or before the byte and the line end comes after it.
`removeLines` keeps all other bytes in their order, and takes away these and no more
(`removeLines_eq_ok_iff`, `removeLines_exact`).

Each statement is on one line (`PlacedLine.eq_of_has`), and the span that is cut out for it holds
the bytes that this line loses (`covers_statementSpan_iff`).
-/

namespace ImportSweep.Source

open ImportSweep.Tree

/-! ## Lines and their places -/

/-- A line with its place in a source. -/
structure PlacedLine extends Line where
  /-- The byte at which the line begins. -/
  start : Nat

namespace PlacedLine

/-- The byte at which the line end begins. -/
def stop (line : PlacedLine) : Nat :=
  line.start + byteLength line.text

/-- The byte after the line end. -/
def next (line : PlacedLine) : Nat :=
  line.stop + byteLength line.ending

/-- The place is on the line, at one of its characters or, where no line end follows, at its end. -/
def Has (line : PlacedLine) (position : Nat) : Prop :=
  line.start ≤ position ∧ (position < line.next ∨ line.ending = [] ∧ position = line.next)

/-- What stands on the line before a place. -/
def before (line : PlacedLine) (position : Nat) : List Char :=
  takeBytes (position - line.start) line.chars

/-- The byte is one that the line loses with a statement at `position`: any, if only white space
stands before the statement, and otherwise one from the statement up to the line end. -/
def Loses (line : PlacedLine) (position p : Nat) : Prop :=
  (line.start ≤ p ∧ p < line.next) ∧
    (Text.AllBlank (line.before position) ∨ position ≤ p ∧ p < line.stop)

instance (line : PlacedLine) (position : Nat) : Decidable (line.Has position) :=
  inferInstanceAs (Decidable (_ ∧ _))

instance (line : PlacedLine) (position p : Nat) : Decidable (line.Loses position p) :=
  inferInstanceAs (Decidable (_ ∧ _))

end PlacedLine

/-- Gives lines their places, one after the other from byte `start` on. -/
def placeLines : Nat → List Line → List PlacedLine
  | _, [] => []
  | start, line :: rest => ⟨line, start⟩ :: placeLines (start + byteLength line.chars) rest

/-- The lines of a source. The byte order mark is on none of them. -/
def placedLines (source : List Char) : List PlacedLine :=
  placeLines (byteLength (leadingBom source)) (lines (afterBom source))

/-- The byte goes when the statements at the given offsets are removed. -/
def Removed (source : List Char) (offsets : List Nat) (p : Nat) : Prop :=
  ∃ line ∈ placedLines source, ∃ offset ∈ offsets, ∃ position,
    bytePosition source offset = .ok position ∧ line.Has position ∧ line.Loses position p

instance (source : List Char) (offsets : List Nat) : DecidablePred (Removed source offsets) :=
  fun _ => inferInstanceAs (Decidable (∃ line ∈ placedLines source, ∃ offset ∈ offsets, _))

theorem placeLines_append (start : Nat) (a b : List Line) :
    placeLines start (a ++ b) =
      placeLines start a ++ placeLines (start + byteLength (a.flatMap Line.chars)) b := by
  induction a generalizing start with
  | nil => rfl
  | cons line a ih =>
    rw [List.cons_append, placeLines, placeLines, ih, List.flatMap_cons, byteLength_append,
      Nat.add_assoc, List.cons_append]

theorem start_le_of_mem_placeLines {start : Nat} {ls : List Line} {line : PlacedLine}
    (h : line ∈ placeLines start ls) : start ≤ line.start := by
  induction ls generalizing start with
  | nil => cases h
  | cons first ls ih =>
    rcases List.mem_cons.1 h with rfl | h
    · exact Nat.le_refl _
    · exact Nat.le_trans (Nat.le_add_right _ _) (ih h)

/-- A line ends before a later one begins, and it has a line end. -/
theorem placeLines_pairwise {start : Nat} {ls : List Line}
    (hending : ∀ line ∈ ls.dropLast, line.ending ≠ []) :
    (placeLines start ls).Pairwise fun a b => a.next ≤ b.start ∧ a.ending ≠ [] := by
  induction ls generalizing start with
  | nil => exact List.Pairwise.nil
  | cons line ls ih =>
    cases ls with
    | nil => exact List.pairwise_singleton _ _
    | cons second ls =>
      rw [List.dropLast_cons_cons] at hending
      refine List.pairwise_cons.2 ⟨fun other hother => ⟨?_, ?_⟩,
        ih fun other hother => hending other (List.mem_cons_of_mem _ hother)⟩
      · have hstart := start_le_of_mem_placeLines hother
        rw [Line.chars, byteLength_append, ← Nat.add_assoc] at hstart
        exact hstart
      · exact hending line List.mem_cons_self

/-- A place is on one line only. -/
theorem PlacedLine.eq_of_has {source : List Char} {a b : PlacedLine} {position : Nat}
    (ha : a ∈ placedLines source) (hb : b ∈ placedLines source) (hpa : a.Has position)
    (hpb : b.Has position) : a = b := by
  have hpairwise : (placedLines source).Pairwise
      fun a b => a.Has position → b.Has position → a = b := by
    refine (placeLines_pairwise fun _ => ending_ne_nil_of_mem_dropLast).imp ?_
    -- A place on the later line is behind the earlier one, which has a line end.
    rintro a b ⟨hnext, hending⟩ ⟨-, hlt | ⟨hnil, -⟩⟩ ⟨hle, -⟩
    · omega
    · exact absurd hnil hending
  have hsymm : Std.Symm fun a b : PlacedLine => a.Has position → b.Has position → a = b :=
    ⟨fun _ _ h hx hy => (h hy hx).symm⟩
  exact hpairwise.forall_of_forall (fun _ _ _ _ => rfl) ha hb hpa hpb

/-! ## The span of a statement -/

/-- The bytes that a line loses with a statement, as a span. -/
def PlacedLine.span (line : PlacedLine) (position : Nat) : Span :=
  if Text.AllBlank (line.before position) then ⟨line.start, line.next⟩ else ⟨position, line.stop⟩

theorem PlacedLine.covers_span_iff {line : PlacedLine} {position p : Nat}
    (h : line.Has position) : (line.span position).Covers p ↔ line.Loses position p := by
  have hle := h.1
  rw [PlacedLine.span, PlacedLine.Loses, Span.Covers]
  split
  · next hblank => exact ⟨fun hp => ⟨hp, .inl hblank⟩, fun hp => hp.1⟩
  · next hblank =>
    have hnext : line.stop ≤ line.next := Nat.le_add_right _ _
    rw [or_iff_right hblank]
    dsimp only
    omega

/-- A source divided at a place and at the line of the place. -/
structure Division where
  /-- What comes before the line. -/
  head : List Char
  /-- What stands on the line before the place. -/
  text : List Char
  /-- What follows the place up to the line end. -/
  tail : List Char
  /-- The line end. -/
  ending : List Char
  /-- What comes after the line. -/
  rest : List Char

namespace Division

/-- The source that is divided. -/
def source (division : Division) : List Char :=
  division.head ++ division.text ++ division.tail ++ division.ending ++ division.rest

/-- The place. -/
def position (division : Division) : Nat :=
  byteLength division.head + byteLength division.text

/-- The line of the place. -/
def line (division : Division) : PlacedLine where
  text := division.text ++ division.tail
  ending := division.ending
  start := byteLength division.head

variable (division : Division)

theorem stop_line : division.line.stop = division.position + byteLength division.tail := by
  rw [PlacedLine.stop, line, byteLength_append, position, Nat.add_assoc]

theorem next_line :
    division.line.next =
      division.position + byteLength division.tail + byteLength division.ending := by
  rw [PlacedLine.next, stop_line]
  rfl

theorem start_line_le : division.line.start ≤ division.position :=
  Nat.le_add_right _ _

theorem has_line : division.line.Has division.position := by
  refine ⟨division.start_line_le, ?_⟩
  have hnext := division.next_line
  by_cases hlt : division.position < division.line.next
  · exact .inl hlt
  · -- Nothing follows the place on its line, not even a line end.
    have hending : byteLength division.ending = 0 := by omega
    exact .inr ⟨byteLength_eq_zero_iff.1 hending, by omega⟩

theorem before_line : division.line.before division.position = division.text := by
  rw [PlacedLine.before, position, line, Nat.add_sub_cancel_left, Line.chars, List.append_assoc,
    takeBytes_append]

theorem boundary_start : Boundary division.source division.line.start :=
  ((boundary_append division.head division.text).append _).append _ |>.append _

theorem boundary_position : Boundary division.source division.position := by
  rw [position, ← byteLength_append]
  exact ((boundary_append _ division.tail).append _).append _

theorem boundary_stop : Boundary division.source division.line.stop := by
  rw [stop_line, position, ← byteLength_append, ← byteLength_append]
  exact (boundary_append _ division.ending).append _

theorem boundary_next : Boundary division.source division.line.next := by
  rw [next_line, position, ← byteLength_append, ← byteLength_append, ← byteLength_append]
  exact boundary_append _ division.rest

/-- The span that goes with a statement cuts no character. -/
theorem fits_span : (division.line.span division.position).Fits division.source := by
  have hstart := division.start_line_le
  have hstop := division.stop_line
  have hnext := division.next_line
  rw [PlacedLine.span]
  split
  · exact ⟨by dsimp only; omega, division.boundary_start, division.boundary_next⟩
  · exact ⟨by dsimp only; omega, division.boundary_position, division.boundary_stop⟩

/-- The span for a statement is what its line loses, if the division is made at the last line end
before the statement and the first one after it. -/
theorem statementSpan_eq
    (hstart : lastLineStart (byteLength (leadingBom division.source)) 0
      (division.head ++ division.text) = byteLength division.head)
    (htail : (division.tail ++ division.ending ++ division.rest).takeWhile
      (fun c => !isLineEnd c) = division.tail)
    (hending : byteLength division.ending = lineEndLength
      ((division.tail ++ division.ending ++ division.rest).dropWhile fun c => !isLineEnd c)) :
    statementSpan division.source division.position = division.line.span division.position := by
  have hsource : division.source = division.head ++ division.text ++
      (division.tail ++ division.ending ++ division.rest) := by
    simp only [source, List.append_assoc]
  have htake : takeBytes division.position division.source = division.head ++ division.text := by
    rw [hsource, position, ← byteLength_append, takeBytes_append]
  have hdrop : dropBytes division.position division.source =
      division.tail ++ division.ending ++ division.rest := by
    rw [hsource, position, ← byteLength_append, dropBytes_append]
  rw [PlacedLine.span, before_line, stop_line, next_line, hending]
  simp only [statementSpan, htake, hdrop, hstart, htail, dropBytes_append]
  rfl

end Division

/-- The place of an offset divides the source at a line of it, and the span for a statement there
is what the line loses. -/
theorem exists_division {source : List Char} {offset position : Nat}
    (h : bytePosition source offset = .ok position) :
    ∃ division : Division, division.source = source ∧ division.position = position ∧
      division.line ∈ placedLines source ∧
      statementSpan source position = division.line.span position := by
  obtain ⟨before, after, hbody, hposition, hcut⟩ := bytePosition_eq_ok h
  obtain ⟨text, hlines, hwhole⟩ := linesFrom_append [] hcut
  obtain ⟨ending, rest, hfirst, hending⟩ := linesFrom_eq_cons text after
  -- The lines before the place are closed; `text` is the beginning of the line of the place.
  have hstart := lastLineStart_eq (byteLength (leadingBom source)) [] before
  generalize (linesFrom [] before).dropLast = closed at hlines hwhole hstart
  have hbefore : before = closed.flatMap Line.chars ++ text := by
    have hflat := flatMap_chars_linesFrom [] before
    rw [hlines, List.flatMap_append] at hflat
    simpa [Line.chars] using hflat.symm
  have hafter : after = (after.takeWhile fun c => !isLineEnd c) ++ ending ++
      rest.flatMap Line.chars := by
    have hflat := flatMap_chars_linesFrom text after
    rw [hfirst] at hflat
    simpa [Line.chars] using hflat.symm
  let division : Division := ⟨leadingBom source ++ closed.flatMap Line.chars, text,
    after.takeWhile fun c => !isLineEnd c, ending, rest.flatMap Line.chars⟩
  have hsource : division.source = source := by
    have hparts : division.source = leadingBom source ++ (before ++ after) := by
      simp only [Division.source, division, List.append_assoc, hbefore]
      rw [← List.append_assoc _ ending, ← hafter]
    rw [hparts, ← hbody, leadingBom_append_afterBom]
  have hplace : division.position = position := by
    rw [hposition, hbefore, Division.position, byteLength_append, byteLength_append, Nat.add_assoc]
  have hmem : division.line ∈ placedLines source := by
    rw [placedLines, lines, hbody, hwhole, hfirst, placeLines_append, ← byteLength_append]
    exact List.mem_append_right _ List.mem_cons_self
  have hspan : statementSpan division.source division.position =
      division.line.span division.position := by
    have htext : division.head ++ division.text = leadingBom source ++ before := by
      rw [hbefore, List.append_assoc]
    refine division.statementSpan_eq ?_ ?_ ?_
    · rw [hsource, htext, lastLineStart_leadingBom, byteLength_append]
      exact hstart
    · rw [← hafter]
    · rw [← hafter, hending]
  refine ⟨division, hsource, hplace, hmem, ?_⟩
  rw [hsource, hplace] at hspan
  exact hspan

/-- The span of a statement cuts no character. -/
theorem fits_statementSpan {source : List Char} {offset position : Nat}
    (h : bytePosition source offset = .ok position) :
    (statementSpan source position).Fits source := by
  obtain ⟨division, rfl, rfl, -, hspan⟩ := exists_division h
  rw [hspan]
  exact division.fits_span

/-- The span of a statement covers the bytes that the line of the statement loses. -/
theorem covers_statementSpan_iff {source : List Char} {offset position p : Nat}
    (h : bytePosition source offset = .ok position) :
    (statementSpan source position).Covers p ↔
      ∃ line ∈ placedLines source, line.Has position ∧ line.Loses position p := by
  obtain ⟨division, -, rfl, hmem, hspan⟩ := exists_division h
  have hhas := division.has_line
  rw [hspan, PlacedLine.covers_span_iff hhas]
  constructor
  · intro hloses
    exact ⟨division.line, hmem, hhas, hloses⟩
  · -- The line that has the statement is the line of the division.
    rintro ⟨line, hline, hlineHas, hloses⟩
    rwa [PlacedLine.eq_of_has hmem hline hhas hlineHas]

/-- The bytes that go are those in the spans of the statements. -/
theorem removed_iff {source : List Char} {offsets : List Nat} {p : Nat} :
    Removed source offsets p ↔ ∃ offset ∈ offsets, ∃ position,
      bytePosition source offset = .ok position ∧ (statementSpan source position).Covers p := by
  constructor
  · rintro ⟨line, hline, offset, hoffset, position, hposition, hloses⟩
    have hcovers := (covers_statementSpan_iff hposition).2 ⟨line, hline, hloses⟩
    exact ⟨offset, hoffset, position, hposition, hcovers⟩
  · rintro ⟨offset, hoffset, position, hposition, hcovers⟩
    obtain ⟨line, hline, hloses⟩ := (covers_statementSpan_iff hposition).1 hcovers
    exact ⟨line, hline, offset, hoffset, position, hposition, hloses⟩

/-- A character goes as a whole. -/
theorem removed_add_iff {source before after : List Char} {offsets : List Nat} {c : Char}
    (hsource : source = before ++ c :: after) {i : Nat} (hi : i < c.utf8Size) :
    Removed source offsets (byteLength before + i) ↔
      Removed source offsets (byteLength before) := by
  rw [removed_iff, removed_iff]
  refine exists_congr fun offset => and_congr_right fun _ => exists_congr fun position =>
    and_congr_right fun hposition => ?_
  exact (fits_statementSpan hposition).covers_add_iff hsource hi

/-- The byte order mark stays. -/
theorem le_of_removed {source : List Char} {offsets : List Nat} {p : Nat}
    (h : Removed source offsets p) : byteLength (leadingBom source) ≤ p := by
  obtain ⟨line, hline, _, _, _, _, _, ⟨hle, _⟩, _⟩ := h
  exact Nat.le_trans (start_le_of_mem_placeLines hline) hle

/-! ## The removal -/

theorem mem_removalSpans_iff {source : List Char} {offsets : List Nat} {spans : List Span}
    (h : removalSpans source offsets = .ok spans) {span : Span} :
    span ∈ spans ↔ ∃ offset ∈ offsets, ∃ position,
      bytePosition source offset = .ok position ∧ statementSpan source position = span := by
  simp only [mem_of_mapM_eq_ok h, bind_eq_ok_iff, pure_eq_ok_iff]

/-- Spans are found exactly when each offset lies in the source. -/
theorem exists_removalSpans_iff {source : List Char} {offsets : List Nat} :
    (∃ spans, removalSpans source offsets = .ok spans) ↔
      ∀ offset ∈ offsets, ∃ position, bytePosition source offset = .ok position := by
  simp only [removalSpans, exists_mapM_eq_ok_iff, bind_eq_ok_iff, pure_eq_ok_iff]
  refine forall₂_congr fun offset _ => ⟨?_, ?_⟩
  · rintro ⟨_, position, hposition, -⟩
    exact ⟨position, hposition⟩
  · rintro ⟨position, hposition⟩
    exact ⟨statementSpan source position, position, hposition, rfl⟩

/-- The spans cover the bytes that go. -/
theorem covered_removalSpans_iff {source : List Char} {offsets : List Nat} {spans : List Span}
    (h : removalSpans source offsets = .ok spans) {p : Nat} :
    Covered spans p ↔ Removed source offsets p := by
  rw [removed_iff]
  constructor
  · rintro ⟨span, hspan, hcovers⟩
    obtain ⟨offset, hoffset, position, hposition, rfl⟩ := (mem_removalSpans_iff h).1 hspan
    exact ⟨offset, hoffset, position, hposition, hcovers⟩
  · rintro ⟨offset, hoffset, position, hposition, hcovers⟩
    have hspan := (mem_removalSpans_iff h).2 ⟨offset, hoffset, position, hposition, rfl⟩
    exact ⟨statementSpan source position, hspan, hcovers⟩

/-- The spans cut no character. -/
theorem fits_of_mem_removalSpans {source : List Char} {offsets : List Nat} {spans : List Span}
    (h : removalSpans source offsets = .ok spans) {span : Span} (hspan : span ∈ spans) :
    span.Fits source := by
  obtain ⟨offset, -, position, hposition, rfl⟩ := (mem_removalSpans_iff h).1 hspan
  exact fits_statementSpan hposition

/-- What is left is the source without the characters that go. -/
theorem removeLines_eq_ok_iff {source output : String} {offsets : List Nat} :
    removeLines source offsets = .ok output ↔
      (∀ offset ∈ offsets, ∃ position, bytePosition source.toList offset = .ok position) ∧
        output = String.ofList (keepFrom (Removed source.toList offsets) 0 source.toList) := by
  rw [removeLines, bind_eq_ok_iff, ← exists_removalSpans_iff,
    ← exists_and_right]
  refine exists_congr fun spans => and_congr_right fun hspans => ?_
  -- Merging and cutting leave what the spans do not cover, and they cover what goes.
  have hkept : eraseSpans (mergeSpans spans) source.toList =
      keepFrom (Removed source.toList offsets) 0 source.toList := by
    rw [eraseSpans_mergeSpans fun span hspan => fits_of_mem_removalSpans hspans hspan]
    exact keepFrom_congr fun p _ _ => covered_removalSpans_iff hspans
  rw [hkept, pure_eq_ok_iff, eq_comm]

/-- In bytes: what is left is the source without the bytes that go. -/
theorem encode_of_removeLines {source output : String} {offsets : List Nat}
    (h : removeLines source offsets = .ok output) :
    Text.encode output =
      ((Text.encode source).zipIdx.filter fun byte =>
        ¬ Removed source.toList offsets byte.2).map Prod.fst := by
  obtain ⟨-, rfl⟩ := removeLines_eq_ok_iff.1 h
  rw [encode_eq_encodeChars, encode_eq_encodeChars, String.toList_ofList]
  refine encodeChars_keepFrom 0 fun before c after hsource i hi => ?_
  rw [Nat.zero_add]
  exact removed_add_iff hsource hi

/-- What is left begins with the byte order mark, if the source does. -/
theorem leadingBom_isPrefix_of_removeLines {source output : String} {offsets : List Nat}
    (h : removeLines source offsets = .ok output) :
    leadingBom source.toList <+: output.toList := by
  obtain ⟨-, rfl⟩ := removeLines_eq_ok_iff.1 h
  have hmark : keepFrom (Removed source.toList offsets) 0 (leadingBom source.toList) =
      leadingBom source.toList := by
    refine keepFrom_eq_self fun p _ hp hremoved => ?_
    have hle := le_of_removed hremoved
    omega
  have hparts : keepFrom (Removed source.toList offsets) 0
      (leadingBom source.toList ++ afterBom source.toList) = _ := keepFrom_append 0 _ _
  rw [leadingBom_append_afterBom, hmark] at hparts
  rw [String.toList_ofList, hparts]
  exact List.prefix_append _ _

/-- A removal succeeds exactly when all offsets lie in the source. Then it takes away the bytes
that go and no others, keeps the byte order mark, and depends only on which offsets are given,
neither on their order nor on repeated ones. -/
theorem removeLines_exact (source : String) (offsets : List Nat) :
    ((∃ output, removeLines source offsets = .ok output) ↔
        ∀ offset ∈ offsets, ∃ position, bytePosition source.toList offset = .ok position) ∧
      ∀ output, removeLines source offsets = .ok output →
        Text.encode output =
            ((Text.encode source).zipIdx.filter fun byte =>
              ¬ Removed source.toList offsets byte.2).map Prod.fst ∧
          leadingBom source.toList <+: output.toList ∧
          ∀ others : List Nat, (∀ offset, offset ∈ others ↔ offset ∈ offsets) →
            removeLines source others = .ok output := by
  refine ⟨?_, fun output h => ⟨encode_of_removeLines h, leadingBom_isPrefix_of_removeLines h, ?_⟩⟩
  · simp only [removeLines_eq_ok_iff, exists_and_left, exists_eq, and_true]
  · -- Only membership in the list of offsets counts.
    intro others hothers
    rw [removeLines_eq_ok_iff] at h ⊢
    obtain ⟨hoffsets, rfl⟩ := h
    refine ⟨fun offset hoffset => hoffsets offset ((hothers offset).1 hoffset), ?_⟩
    congr 1
    refine keepFrom_congr fun p _ _ => ?_
    simp only [Removed, hothers]

/-- A source with a byte order mark, characters of several bytes, both kinds of line ends, and
statements alone on a line, after other text and on the last line. -/
def mixedSource : String :=
  "\ufeff// é\r\n\t@import \"a\";\r\nx;@import \"b\"; y\n@import \"c\";"

theorem removeLines_exact_mixedSource :
    removeLines mixedSource [36, 21, 6, 21] = .ok "\ufeff// é\r\nx;\n" ∧
      Text.encode "\ufeff// é\r\nx;\n" =
        ((Text.encode mixedSource).zipIdx.filter fun byte =>
          ¬ Removed mixedSource.toList [36, 21, 6, 21] byte.2).map Prod.fst ∧
      removeLines mixedSource [6, 21, 36] = .ok "\ufeff// é\r\nx;\n" := by
  have hrun : removeLines mixedSource [36, 21, 6, 21] = .ok "\ufeff// é\r\nx;\n" :=
    toOption_eq_some_iff.1 (by decide +kernel)
  obtain ⟨hbytes, -, hothers⟩ := (removeLines_exact mixedSource [36, 21, 6, 21]).2 _ hrun
  exact ⟨hrun, hbytes, hothers [6, 21, 36] (by simp; omega)⟩

end ImportSweep.Source

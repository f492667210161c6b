import ImportSweep.Proofs.LineNumbers

/-!
# The lines that a removal leaves

A removal drops the lines of the statements that have only white space before them, and cuts the
lines of the others at the first statement. All other lines stay as they are (`keptLines`).

What is left is the text of these lines (`removeLines_eq_ok_keptLines`). Divided into lines again it
gives the same lines, but for one thing: where lines were dropped between a line that ends in a
carriage return and an empty line that ends in a line feed, the two are one line now
(`filledLines_flatMap_chars`, `removeLines_lines`).
-/

namespace ImportSweep.Source

open ImportSweep.Tree

/-! ## Lines with characters -/

/-- There is a character on the line, or a line end. -/
def Line.isFilled (line : Line) : Bool :=
  !line.chars.isEmpty

/-- The lines of a text that hold a character. Only the last line may hold none, and then the text
ends with the line before it. -/
def filledLines (text : List Char) : List Line :=
  (lines text).filter Line.isFilled

theorem isFilled_iff {line : Line} : line.isFilled = true ↔ line.chars ≠ [] := by
  simp [Line.isFilled]

/-- A line end is one of three, or nothing on the last line. -/
def endings : List (List Char) :=
  [[], ['\n'], ['\r'], ['\r', '\n']]

/-- There is no line end before the end of the line. -/
structure Line.Proper (line : Line) : Prop where
  /-- The text goes up to the line end. -/
  text : ∀ c ∈ line.text, isLineEnd c = false
  /-- A line end follows, or nothing. -/
  ending : line.ending ∈ endings

/-- Lines as they come from dividing a text, with a character on each. -/
structure Divided (ls : List Line) : Prop where
  /-- Each is a line. -/
  proper : ∀ line ∈ ls, line.Proper
  /-- Each holds a character. -/
  filled : ∀ line ∈ ls, line.isFilled = true
  /-- Only the last may be without a line end. -/
  closed : ls.Pairwise fun line _ => line.ending ≠ []

theorem Divided.tail {line : Line} {ls : List Line} (h : Divided (line :: ls)) : Divided ls where
  proper other hother := h.proper other (.tail _ hother)
  filled other hother := h.filled other (.tail _ hother)
  closed := (List.pairwise_cons.1 h.closed).2

/-- Lines that come from dividing a text are lines. -/
theorem proper_of_mem_linesFrom {current text : List Char} {line : Line}
    (hcurrent : ∀ c ∈ current, isLineEnd c = false) (h : line ∈ linesFrom current text) :
    line.Proper := by
  fun_induction linesFrom current text with
  | case1 current =>
    cases List.mem_singleton.1 h
    exact ⟨hcurrent, by simp [endings]⟩
  | case2 current rest ih =>
    rcases List.mem_cons.1 h with rfl | h
    · exact ⟨hcurrent, by simp [endings]⟩
    · exact ih (by simp) h
  | case3 current c rest hpair hend ih =>
    rcases List.mem_cons.1 h with rfl | h
    · refine ⟨hcurrent, ?_⟩
      rw [isLineEnd, Bool.or_eq_true, decide_eq_true_eq, decide_eq_true_eq] at hend
      rcases hend with rfl | rfl <;> simp [endings]
    · exact ih (by simp) h
  | case4 current c rest hpair hend ih =>
    refine ih (fun d hd => ?_) h
    rcases List.mem_append.1 hd with hd | hd
    · exact hcurrent d hd
    · cases List.mem_singleton.1 hd
      exact Bool.eq_false_iff.2 hend

/-! ## Dividing again -/

/-- The line ends in a carriage return, and the other is nothing but a line feed. -/
def Line.Meets (line other : Line) : Prop :=
  line.ending = ['\r'] ∧ other = ⟨[], ['\n']⟩

instance (line other : Line) : Decidable (line.Meets other) :=
  inferInstanceAs (Decidable (_ ∧ _))

/-- Makes one line of a line that ends in a carriage return and a line after it that is nothing but
a line feed. -/
def joinReturns : List Line → List Line
  | [] => []
  | [line] => [line]
  | line :: other :: rest =>
    if line.Meets other then ⟨line.text, ['\r', '\n']⟩ :: joinReturns rest
    else line :: joinReturns (other :: rest)

/-- How often a line that is nothing but a line feed comes after one that ends in a carriage
return. -/
def meetings (ls : List Line) : Nat :=
  (ls.zip ls.tail).countP fun pair => pair.1.Meets pair.2

/-- Each meeting makes one line of two. -/
theorem length_joinReturns (ls : List Line) :
    (joinReturns ls).length + meetings ls = ls.length := by
  fun_induction joinReturns ls with
  | case1 => rfl
  | case2 line => rfl
  | case3 line other rest hmeets ih =>
    -- The second line ends in a line feed, so it does not meet a third one.
    have hrest : meetings (other :: rest) = meetings rest := by
      obtain ⟨-, rfl⟩ := hmeets
      cases rest with
      | nil => rfl
      | cons third rest => simp [meetings, Line.Meets]
    have hfirst : meetings (line :: other :: rest) = meetings (other :: rest) + 1 := by
      simp [meetings, hmeets]
    rw [hfirst, hrest, List.length_cons, List.length_cons, List.length_cons, ← ih]
    omega
  | case4 line other rest hmeets ih =>
    have hfirst : meetings (line :: other :: rest) = meetings (other :: rest) := by
      simp [meetings, hmeets]
    rw [hfirst, List.length_cons, List.length_cons, ← ih]
    omega

/-- A text without line ends continues the line. -/
theorem linesFrom_append_of_not_isLineEnd (current : List Char) {text : List Char}
    (htext : ∀ c ∈ text, isLineEnd c = false) (rest : List Char) :
    linesFrom current (text ++ rest) = linesFrom (current ++ text) rest := by
  induction text generalizing current with
  | nil => rw [List.nil_append, List.append_nil]
  | cons c text ih =>
    have hc := htext c List.mem_cons_self
    have hcut : CleanCut [c] (text ++ rest) := by
      refine cleanCut_singleton_iff.2 fun _ hreturn _ => ?_
      rw [hreturn] at hc
      cases hc
    rw [List.cons_append, linesFrom_cons hcut, if_neg (by simp [hc]),
      ih (current ++ [c]) (fun d hd => htext d (.tail _ hd)), List.append_assoc]
    rfl

/-- The first line of a text is what stands before its first line end, when the line end is not
continued behind it. -/
theorem filledLines_chars_append {line : Line} {rest : List Char} (hproper : line.Proper)
    (hending : line.ending ≠ []) (hcut : CleanCut line.ending rest) :
    filledLines (line.chars ++ rest) = line :: filledLines rest := by
  have hlines : lines (line.chars ++ rest) = line :: lines rest := by
    rw [lines, Line.chars, List.append_assoc,
      linesFrom_append_of_not_isLineEnd [] hproper.text, List.nil_append]
    obtain ⟨text, ending⟩ := line
    have hcases := hproper.ending
    simp only [endings, List.mem_cons, List.not_mem_nil, or_false] at hcases
    rcases hcases with rfl | rfl | rfl | rfl
    · exact absurd rfl hending
    · exact linesFrom_cons hcut
    · exact linesFrom_cons hcut
    · rfl
  have hfilled : line.isFilled = true := by
    rw [isFilled_iff, Line.chars]
    simp [hending]
  rw [filledLines, hlines, List.filter_cons_of_pos hfilled]
  rfl

/-- A text without a line end is one line. -/
theorem filledLines_of_not_isLineEnd {line : Line} (hproper : line.Proper)
    (hending : line.ending = []) (hfilled : line.isFilled = true) :
    filledLines line.chars = [line] := by
  obtain ⟨text, ending⟩ := line
  cases hending
  have hlines : lines (text ++ []) = [⟨text, []⟩] :=
    linesFrom_append_of_not_isLineEnd [] hproper.text []
  rw [filledLines, Line.chars, hlines, List.filter_cons_of_pos hfilled, List.filter_nil]

/-- A line that begins with a line feed is nothing else. -/
theorem eq_of_head?_chars {line : Line} (hproper : line.Proper)
    (hhead : line.chars.head? = some '\n') : line = ⟨[], ['\n']⟩ := by
  obtain ⟨text, ending⟩ := line
  have hcases := hproper.ending
  cases text with
  | cons c text =>
    -- The text of a line holds no line feed.
    have hc := hproper.text c List.mem_cons_self
    cases Option.some.inj hhead
    cases hc
  | nil =>
    simp only [endings, List.mem_cons, List.not_mem_nil, or_false] at hcases
    rcases hcases with rfl | rfl | rfl | rfl
    · cases hhead
    · rfl
    · cases hhead
    · cases hhead

/-- Dividing the text of lines gives the lines, where none meets the next, and the two as one where
they meet. -/
theorem filledLines_flatMap_chars {ls : List Line} (h : Divided ls) :
    filledLines (ls.flatMap Line.chars) = joinReturns ls := by
  fun_induction joinReturns ls with
  | case1 => rfl
  | case2 line =>
    have hproper := h.proper line List.mem_cons_self
    rw [List.flatMap_singleton]
    by_cases hending : line.ending = []
    · exact filledLines_of_not_isLineEnd hproper hending (h.filled line List.mem_cons_self)
    · have hcut : CleanCut line.ending [] := by simp [CleanCut]
      have hone := filledLines_chars_append hproper hending hcut
      rw [List.append_nil] at hone
      exact hone
  | case3 line other rest hmeets ih =>
    -- The two halves of a line end have come together.
    obtain ⟨hreturn, rfl⟩ := hmeets
    have hproper : Line.Proper ⟨line.text, ['\r', '\n']⟩ :=
      ⟨(h.proper line List.mem_cons_self).text, by simp [endings]⟩
    have hcut : CleanCut ['\r', '\n'] (rest.flatMap Line.chars) := by simp [CleanCut]
    have hchars : (line :: ⟨[], ['\n']⟩ :: rest).flatMap Line.chars =
        Line.chars ⟨line.text, ['\r', '\n']⟩ ++ rest.flatMap Line.chars := by
      simp [Line.chars, hreturn]
    rw [hchars, filledLines_chars_append hproper (by simp) hcut, ih h.tail.tail]
  | case4 line other rest hmeets ih =>
    have hproper := h.proper line List.mem_cons_self
    have hending : line.ending ≠ [] :=
      (List.pairwise_cons.1 h.closed).1 other List.mem_cons_self
    have hother := h.proper other (.tail _ (.head _))
    have hfilled := isFilled_iff.1 (h.filled other (.tail _ (.head _)))
    have hcut : CleanCut line.ending ((other :: rest).flatMap Line.chars) := by
      intro hlast hhead
      refine hmeets ⟨?_, ?_⟩
      · have hcases := hproper.ending
        simp only [endings, List.mem_cons, List.not_mem_nil, or_false] at hcases
        rcases hcases with hcase | hcase | hcase | hcase
        · exact absurd hcase hending
        · simp [hcase] at hlast
        · exact hcase
        · simp [hcase] at hlast
      · refine eq_of_head?_chars hother ?_
        rw [List.flatMap_cons, List.head?_append_of_ne_nil _ hfilled] at hhead
        exact hhead
    rw [List.flatMap_cons, filledLines_chars_append hproper hending hcut, ih h.tail]

/-! ## What is left of a line -/

/-- The offset lies on the line of that number. -/
def OnLine (source : List Char) (number offset : Nat) : Prop :=
  ∃ position, bytePosition source offset = .ok position ∧ lineOf source position = number

instance (source : List Char) (number : Nat) : DecidablePred (OnLine source number) :=
  fun offset => decidableExistsOk (bytePosition source offset)

namespace PlacedLine

/-- Only white space stands on the line before the offset. -/
def BlankBefore (source : List Char) (line : PlacedLine) (offset : Nat) : Prop :=
  ∃ position, bytePosition source offset = .ok position ∧ Text.AllBlank (line.before position)

instance (source : List Char) (line : PlacedLine) : DecidablePred (line.BlankBefore source) :=
  fun offset => decidableExistsOk (bytePosition source offset)

/-- The line without what stands from the offset up to the line end. -/
def cutAt (source : List Char) (line : PlacedLine) (offset : Nat) : Line :=
  match bytePosition source offset with
  | .ok position => ⟨line.before position, line.ending⟩
  | .error _ => line.toLine

/-- What is left of the line of that number: nothing, if one of its offsets has only white space
before it; otherwise what stands before its smallest offset, if it has one. -/
def remainder (source : List Char) (offsets : List Nat) (number : Nat) (line : PlacedLine) :
    Option Line :=
  if ∃ offset ∈ offsets, OnLine source number offset ∧ line.BlankBefore source offset then none
  else
    match (offsets.filter fun offset => OnLine source number offset).min? with
    | some offset => some (line.cutAt source offset)
    | none => some line.toLine

end PlacedLine

/-- The lines of a source that hold a character, with their numbers. The byte order mark is on none
of them. -/
def numberedLines (source : List Char) : List (PlacedLine × Nat) :=
  ((placedLines source).zipIdx 1).filter fun numbered => numbered.1.isFilled

/-- What a removal leaves of the lines of a source. -/
def keptLines (source : List Char) (offsets : List Nat) : List Line :=
  (numberedLines source).filterMap fun numbered =>
    numbered.1.remainder source offsets numbered.2

/-- How many lines of a source a removal drops. -/
def droppedLines (source : List Char) (offsets : List Nat) : Nat :=
  (numberedLines source).countP fun numbered =>
    numbered.1.remainder source offsets numbered.2 = none

theorem map_toLine_placeLines (start : Nat) (ls : List Line) :
    (placeLines start ls).map PlacedLine.toLine = ls := by
  induction ls generalizing start with
  | nil => rfl
  | cons line ls ih => rw [placeLines, List.map_cons, ih]

/-- Without their numbers and places, the lines are those of the text after the byte order mark. -/
theorem map_numberedLines (source : List Char) :
    (numberedLines source).map (·.1.toLine) = filledLines (afterBom source) := by
  have hnumbers : ((placedLines source).zipIdx 1).map (·.1.toLine) =
      (((placedLines source).zipIdx 1).map Prod.fst).map PlacedLine.toLine := by
    rw [List.map_map]
    rfl
  have hlines : ((placedLines source).zipIdx 1).map (·.1.toLine) = lines (afterBom source) := by
    rw [hnumbers, List.zipIdx_map_fst, placedLines, map_toLine_placeLines]
  rw [filledLines, ← hlines, List.filter_map]
  rfl

/-- Of the lines with a character, what is not kept is dropped. -/
theorem length_keptLines (source : List Char) (offsets : List Nat) :
    (keptLines source offsets).length + droppedLines source offsets =
      (filledLines (afterBom source)).length := by
  have hkept : (keptLines source offsets).length = (numberedLines source).countP fun numbered =>
      (numbered.1.remainder source offsets numbered.2).isSome :=
    List.length_filterMap_eq_countP
  have hdropped : droppedLines source offsets = (numberedLines source).countP fun numbered =>
      ¬ (numbered.1.remainder source offsets numbered.2).isSome := by
    simp [droppedLines]
  rw [hkept, hdropped, ← List.length_eq_countP_add_countP, ← map_numberedLines, List.length_map]

/-! ## Characters that stay -/

/-- A byte of a line goes when the line loses it with one of its statements. -/
theorem removed_iff_of_mem {source : List Char} {offsets : List Nat} {line : PlacedLine} {p : Nat}
    (hline : line ∈ placedLines source) (hstart : line.start ≤ p) (hnext : p < line.next) :
    Removed source offsets p ↔ ∃ offset ∈ offsets, ∃ position,
      bytePosition source offset = .ok position ∧ line.Has position ∧ line.Loses position p := by
  constructor
  · rintro ⟨other, hother, offset, hoffset, position, hposition, hhas, hloses⟩
    -- The byte is on one line only.
    have hsame : other = line :=
      PlacedLine.eq_of_has hother hline ⟨hloses.1.1, .inl hloses.1.2⟩ ⟨hstart, .inl hnext⟩
    rw [hsame] at hhas hloses
    exact ⟨offset, hoffset, position, hposition, hhas, hloses⟩
  · rintro ⟨offset, hoffset, position, hposition, hhas, hloses⟩
    exact ⟨line, hline, offset, hoffset, position, hposition, hhas, hloses⟩

theorem next_eq_add_byteLength_chars (line : PlacedLine) :
    line.next = line.start + byteLength line.chars := by
  rw [PlacedLine.next, PlacedLine.stop, Line.chars, byteLength_append, Nat.add_assoc]

/-- A place on a line divides the line at the place. -/
theorem exists_division_of_has {source : List Char} {offset position : Nat} {line : PlacedLine}
    (hposition : bytePosition source offset = .ok position) (hline : line ∈ placedLines source)
    (hhas : line.Has position) :
    ∃ division : Division, division.position = position ∧ division.line = line := by
  obtain ⟨division, -, hplace, hmem, -⟩ := exists_division hposition
  refine ⟨division, hplace, PlacedLine.eq_of_has hmem hline ?_ hhas⟩
  rw [← hplace]
  exact division.has_line

/-- Where a line loses the bytes from a place up to its line end, what stands before the place is
left, and the line end. -/
theorem keepFrom_division {removed : Nat → Prop} [DecidablePred removed] (division : Division)
    (h : ∀ p, division.line.start ≤ p → p < division.line.next →
      (removed p ↔ division.position ≤ p ∧ p < division.line.stop)) :
    keepFrom removed division.line.start division.line.chars =
      division.text ++ division.ending := by
  have hstart : division.line.start + byteLength division.text = division.position := rfl
  have hstop := division.stop_line
  have hnext := division.next_line
  have htext : keepFrom removed division.line.start division.text = division.text := by
    refine keepFrom_eq_self fun p hle hlt => ?_
    rw [h p hle (by omega)]
    omega
  have htail : keepFrom removed division.position division.tail = [] := by
    refine keepFrom_eq_nil fun p hle hlt => ?_
    rw [h p (by omega) (by omega)]
    omega
  have hending : keepFrom removed division.line.stop division.ending = division.ending := by
    refine keepFrom_eq_self fun p hle hlt => ?_
    rw [h p (by omega) (by omega)]
    omega
  have hchars : division.line.chars = division.text ++ (division.tail ++ division.ending) := by
    rw [Line.chars, Division.line, List.append_assoc]
  rw [hchars, keepFrom_append, keepFrom_append, hstart, ← hstop, htext, htail, hending,
    List.nil_append]

/-- What stays of the characters of a line is what is left of the line. -/
theorem keepFrom_chars {source : List Char} {offsets : List Nat} {i : Nat} {line : PlacedLine}
    (hi : (placedLines source)[i]? = some line) :
    keepFrom (Removed source offsets) line.start line.chars =
      (line.remainder source offsets (i + 1)).elim [] Line.chars := by
  have hline : line ∈ placedLines source := List.mem_of_getElem? hi
  have hnext := next_eq_add_byteLength_chars line
  rw [PlacedLine.remainder]
  split
  · -- A statement with only white space before it takes all of the line away.
    next hblank =>
    obtain ⟨offset, hoffset, ⟨position, hposition, hnumber⟩, position', hposition', hall⟩ := hblank
    cases hposition.symm.trans hposition'
    have hhas := (lineOf_eq_succ_iff hposition hi).1 hnumber
    refine keepFrom_eq_nil fun p hle hlt => ?_
    refine (removed_iff_of_mem hline hle (by omega)).2 ?_
    exact ⟨offset, hoffset, position, hposition, hhas, ⟨hle, by omega⟩, .inl hall⟩
  · next hblank =>
    -- No statement has only white space before it, so each takes away the end of the line.
    have hremoved : ∀ p, line.start ≤ p → p < line.next →
        (Removed source offsets p ↔ ∃ offset ∈ offsets, ∃ position,
          bytePosition source offset = .ok position ∧ line.Has position ∧
            position ≤ p ∧ p < line.stop) := by
      intro p hle hlt
      rw [removed_iff_of_mem hline hle hlt]
      refine exists_congr fun offset => and_congr_right fun hoffset => exists_congr fun position =>
        and_congr_right fun hposition => and_congr_right fun hhas => ?_
      have hnot : ¬ Text.AllBlank (line.before position) := fun hall =>
        hblank ⟨offset, hoffset, ⟨position, hposition, (lineOf_eq_succ_iff hposition hi).2 hhas⟩,
          position, hposition, hall⟩
      rw [PlacedLine.Loses, or_iff_right hnot]
      exact and_iff_right ⟨hle, hlt⟩
    split
    · -- The smallest offset takes away the most.
      next offset hmin =>
      obtain ⟨hmem, hsmallest⟩ := List.min?_eq_some_iff.1 hmin
      obtain ⟨hoffset, hon⟩ := List.mem_filter.1 hmem
      obtain ⟨position, hposition, hnumber⟩ := of_decide_eq_true hon
      have hhas := (lineOf_eq_succ_iff hposition hi).1 hnumber
      obtain ⟨division, rfl, rfl⟩ := exists_division_of_has hposition hline hhas
      have hcut : division.line.cutAt source offset = ⟨division.text, division.ending⟩ := by
        rw [PlacedLine.cutAt, hposition]
        simp only [division.before_line]
        rfl
      rw [Option.elim_some, hcut]
      refine keepFrom_division division fun p hle hlt => ?_
      rw [hremoved p hle hlt]
      constructor
      · rintro ⟨other, hother, place, hplace, hplaceHas, hp⟩
        have hlarger : offset ≤ other := by
          refine hsmallest other (List.mem_filter.2 ⟨hother, decide_eq_true ?_⟩)
          exact ⟨place, hplace, (lineOf_eq_succ_iff hplace hi).2 hplaceHas⟩
        have horder := bytePosition_le_of_le hlarger hposition hplace
        omega
      · intro hp
        exact ⟨offset, hoffset, division.position, hposition, hhas, hp⟩
    · -- There is no statement on the line.
      next hnone =>
      refine keepFrom_eq_self fun p hle hlt => ?_
      rw [hremoved p hle (by omega)]
      rintro ⟨offset, hoffset, position, hposition, hhas, -⟩
      have hempty := List.min?_eq_none_iff.1 hnone
      refine List.filter_eq_nil_iff.1 hempty offset hoffset (decide_eq_true ?_)
      exact ⟨position, hposition, (lineOf_eq_succ_iff hposition hi).2 hhas⟩

/-- What is left of a line is the line as it was, or what stands before a place on it, which is not
only white space. -/
theorem remainder_eq_some {source : List Char} {offsets : List Nat} {i : Nat} {line : PlacedLine}
    {left : Line} (hi : (placedLines source)[i]? = some line)
    (h : line.remainder source offsets (i + 1) = some left) :
    left = line.toLine ∨ ∃ division : Division, division.line = line ∧
      left = ⟨division.text, division.ending⟩ ∧ ¬ Text.AllBlank division.text := by
  rw [PlacedLine.remainder] at h
  split at h
  · cases h
  · next hblank =>
    split at h
    · next offset hmin =>
      cases h
      obtain ⟨hmem, -⟩ := List.min?_eq_some_iff.1 hmin
      obtain ⟨hoffset, hon⟩ := List.mem_filter.1 hmem
      obtain ⟨position, hposition, hnumber⟩ := of_decide_eq_true hon
      have hhas := (lineOf_eq_succ_iff hposition hi).1 hnumber
      obtain ⟨division, rfl, rfl⟩ :=
        exists_division_of_has hposition (List.mem_of_getElem? hi) hhas
      refine .inr ⟨division, rfl, ?_, fun hall => hblank ?_⟩
      · rw [PlacedLine.cutAt, hposition]
        simp only [division.before_line]
        rfl
      · rw [← division.before_line] at hall
        exact ⟨offset, hoffset, ⟨_, hposition, hnumber⟩, _, hposition, hall⟩
    · cases h
      exact .inl rfl

theorem ending_of_remainder_eq_some {source : List Char} {offsets : List Nat} {i : Nat}
    {line : PlacedLine} {left : Line} (hi : (placedLines source)[i]? = some line)
    (h : line.remainder source offsets (i + 1) = some left) : left.ending = line.ending := by
  rcases remainder_eq_some hi h with rfl | ⟨division, rfl, rfl, -⟩
  · rfl
  · rfl

theorem proper_of_mem_placedLines {source : List Char} {line : PlacedLine}
    (h : line ∈ placedLines source) : line.toLine.Proper := by
  have hmem : line.toLine ∈ (placedLines source).map PlacedLine.toLine := List.mem_map_of_mem h
  rw [placedLines, map_toLine_placeLines] at hmem
  exact proper_of_mem_linesFrom (by simp) hmem

/-- A numbered line stands at its number among the lines, counted from one. -/
theorem getElem?_of_mem_numberedLines {source : List Char} {numbered : PlacedLine × Nat}
    (h : numbered ∈ (placedLines source).zipIdx 1) :
    ∃ i, numbered.2 = i + 1 ∧ (placedLines source)[i]? = some numbered.1 := by
  obtain ⟨hle, hline⟩ := List.mem_zipIdx_iff_le_and_getElem?_sub.1 h
  exact ⟨numbered.2 - 1, by omega, hline⟩

/-- The lines that are kept are lines with a character each, and only the last may be without a line
end. -/
theorem divided_keptLines (source : List Char) (offsets : List Nat) :
    Divided (keptLines source offsets) := by
  have hkept : ∀ left ∈ keptLines source offsets, ∃ (i : Nat) (line : PlacedLine),
      (placedLines source)[i]? = some line ∧ line.isFilled = true ∧
        line.remainder source offsets (i + 1) = some left := by
    intro left hleft
    obtain ⟨⟨line, number⟩, hnumbered, hremainder⟩ := List.mem_filterMap.1 hleft
    obtain ⟨hmem, hfilled⟩ := List.mem_filter.1 hnumbered
    obtain ⟨i, rfl, hi⟩ := getElem?_of_mem_numberedLines hmem
    exact ⟨i, line, hi, hfilled, hremainder⟩
  refine ⟨fun left hleft => ?_, fun left hleft => ?_, ?_⟩
  · obtain ⟨i, line, hi, -, hremainder⟩ := hkept left hleft
    have hproper := proper_of_mem_placedLines (List.mem_of_getElem? hi)
    rcases remainder_eq_some hi hremainder with rfl | ⟨division, rfl, rfl, -⟩
    · exact hproper
    · exact ⟨fun c hc => hproper.text c (List.mem_append_left _ hc), hproper.ending⟩
  · obtain ⟨i, line, hi, hfilled, hremainder⟩ := hkept left hleft
    rcases remainder_eq_some hi hremainder with rfl | ⟨division, rfl, rfl, hblank⟩
    · exact hfilled
    · -- Before the cut there is something that is not white space.
      rw [isFilled_iff, Line.chars]
      intro hnil
      have htext : division.text = [] := (List.append_eq_nil_iff.1 hnil).1
      rw [htext] at hblank
      exact hblank (by simp [Text.AllBlank])
  · -- What is left of a line ends as the line does.
    have hplaced : ((placedLines source).zipIdx 1).Pairwise fun a _ => a.1.ending ≠ [] := by
      have hlines := (placedLines_pairwise source).imp fun h => h.2
      rw [← List.zipIdx_map_fst 1 (placedLines source)] at hlines
      exact List.pairwise_map.1 hlines
    refine List.pairwise_filterMap.2 (((List.Pairwise.and_mem.1 hplaced).imp ?_).filter _)
    rintro ⟨line, number⟩ other ⟨hmem, -, hending⟩ left hleft _ _
    obtain ⟨i, rfl, hi⟩ := getElem?_of_mem_numberedLines hmem
    rw [ending_of_remainder_eq_some hi hleft]
    exact hending

/-! ## The lines of the text that is left -/

theorem keepFrom_flatMap_chars {removed : Nat → Prop} [DecidablePred removed] (start : Nat)
    (ls : List Line) :
    keepFrom removed start (ls.flatMap Line.chars) =
      (placeLines start ls).flatMap fun line => keepFrom removed line.start line.chars := by
  induction ls generalizing start with
  | nil => rfl
  | cons line ls ih => rw [List.flatMap_cons, keepFrom_append, placeLines, List.flatMap_cons, ih]

/-- The characters that stay on lines with numbers are what is left of those that hold any. -/
theorem flatMap_keepFrom_chars {source : List Char} {offsets : List Nat}
    {numbered : List (PlacedLine × Nat)}
    (h : ∀ entry ∈ numbered, entry ∈ (placedLines source).zipIdx 1) :
    numbered.flatMap (fun entry => keepFrom (Removed source offsets) entry.1.start entry.1.chars) =
      ((numbered.filter fun entry => entry.1.isFilled).filterMap fun entry =>
        entry.1.remainder source offsets entry.2).flatMap Line.chars := by
  induction numbered with
  | nil => rfl
  | cons entry numbered ih =>
    have hrest := ih fun other hother => h other (.tail _ hother)
    rw [List.flatMap_cons, hrest]
    by_cases hfilled : entry.1.isFilled = true
    · obtain ⟨i, hnumber, hi⟩ := getElem?_of_mem_numberedLines (h entry List.mem_cons_self)
      have hline : keepFrom (Removed source offsets) entry.1.start entry.1.chars =
          (entry.1.remainder source offsets entry.2).elim [] Line.chars := by
        rw [hnumber]
        exact keepFrom_chars hi
      simp only [List.filter_cons, hfilled, if_true, List.filterMap_cons, hline]
      cases entry.1.remainder source offsets entry.2 with
      | none => rfl
      | some left => rfl
    · -- A line without characters leaves nothing, whatever is removed.
      have hempty : entry.1.chars = [] := by
        by_contra hne
        exact hfilled (isFilled_iff.2 hne)
      simp only [List.filter_cons, hfilled, hempty]
      rfl

/-- The characters that stay are the byte order mark and what is left of the lines. -/
theorem keepFrom_removed (source : List Char) (offsets : List Nat) :
    keepFrom (Removed source offsets) 0 source =
      leadingBom source ++ (keptLines source offsets).flatMap Line.chars := by
  have hmark : keepFrom (Removed source offsets) 0 (leadingBom source) = leadingBom source := by
    refine keepFrom_eq_self fun p _ hp hremoved => ?_
    have hle := le_of_removed hremoved
    omega
  have hbody : afterBom source = (lines (afterBom source)).flatMap Line.chars :=
    (flatMap_chars_linesFrom [] (afterBom source)).symm
  have hlines : keepFrom (Removed source offsets) (byteLength (leadingBom source))
      (afterBom source) = (placedLines source).flatMap
        fun line => keepFrom (Removed source offsets) line.start line.chars := by
    rw [hbody, keepFrom_flatMap_chars, placedLines]
  have hkept : (placedLines source).flatMap
      (fun line => keepFrom (Removed source offsets) line.start line.chars) =
        (keptLines source offsets).flatMap Line.chars := by
    have hnumbered : ((placedLines source).zipIdx 1).flatMap
        (fun entry => keepFrom (Removed source offsets) entry.1.start entry.1.chars) =
          (keptLines source offsets).flatMap Line.chars :=
      flatMap_keepFrom_chars fun _ hentry => hentry
    rw [← List.flatMap_map Prod.fst fun line : PlacedLine =>
      keepFrom (Removed source offsets) line.start line.chars, List.zipIdx_map_fst] at hnumbered
    exact hnumbered
  have hparts : keepFrom (Removed source offsets) 0 (leadingBom source ++ afterBom source) = _ :=
    keepFrom_append 0 _ _
  rw [leadingBom_append_afterBom, hmark, Nat.zero_add, hlines, hkept] at hparts
  exact hparts

/-- A removal with offsets in the source succeeds, and what is left are the byte order mark and the
lines that are kept. -/
theorem removeLines_eq_ok_keptLines {source : String} {offsets : List Nat}
    (h : ∀ offset ∈ offsets, ∃ position, bytePosition source.toList offset = .ok position) :
    removeLines source offsets = .ok (String.ofList (leadingBom source.toList ++
      (keptLines source.toList offsets).flatMap Line.chars)) :=
  removeLines_eq_ok_iff.2 ⟨h, by rw [keepFrom_removed]⟩

/-- A removal keeps the structure of lines. Behind the byte order mark, the lines of what is left
are the lines that are kept, except that a line which ends in a carriage return is joined with a
line after it that is nothing but a line feed. So there are fewer lines by those that are dropped
and by these meetings. -/
theorem removeLines_lines (source : String) (offsets : List Nat)
    (h : ∀ offset ∈ offsets, ∃ position, bytePosition source.toList offset = .ok position) :
    ∃ body, removeLines source offsets = .ok (String.ofList (leadingBom source.toList ++ body)) ∧
      filledLines body = joinReturns (keptLines source.toList offsets) ∧
      (filledLines body).length + droppedLines source.toList offsets +
          meetings (keptLines source.toList offsets) =
        (filledLines (afterBom source.toList)).length := by
  have hlines := filledLines_flatMap_chars (divided_keptLines source.toList offsets)
  refine ⟨_, removeLines_eq_ok_keptLines h, hlines, ?_⟩
  have hjoined := length_joinReturns (keptLines source.toList offsets)
  have hkept := length_keptLines source.toList offsets
  rw [hlines]
  omega

/-- In the source with both kinds of line ends one line is cut, two are dropped, and the others are
kept. -/
theorem removeLines_lines_mixedSource :
    (∀ offset ∈ [36, 21, 6, 21], ∃ position,
        bytePosition mixedSource.toList offset = .ok position) ∧
      ∃ body, removeLines mixedSource [36, 21, 6, 21] =
          .ok (String.ofList (leadingBom mixedSource.toList ++ body)) ∧
        filledLines body = [⟨"// é".toList, ['\r', '\n']⟩, ⟨"x;".toList, ['\n']⟩] ∧
        (filledLines body).length + 2 = (filledLines (afterBom mixedSource.toList)).length := by
  have hleft : removeLines mixedSource [36, 21, 6, 21] = .ok "\ufeff// é\r\nx;\n" :=
    toOption_eq_some_iff.1 (by decide +kernel)
  have hoffsets := (removeLines_eq_ok_iff.1 hleft).1
  obtain ⟨body, hrun, hlines, hcount⟩ := removeLines_lines mixedSource [36, 21, 6, 21] hoffsets
  have hkept : keptLines mixedSource.toList [36, 21, 6, 21] =
      [⟨"// é".toList, ['\r', '\n']⟩, ⟨"x;".toList, ['\n']⟩] := by
    decide +kernel
  have hdropped : droppedLines mixedSource.toList [36, 21, 6, 21] = 2 := by
    decide +kernel
  rw [hkept] at hlines hcount
  rw [hdropped] at hcount
  exact ⟨hoffsets, body, hrun, hlines, hcount⟩

/-- A source whose first statement stands between a line that ends in a carriage return and an empty
line that ends in a line feed. -/
def returnSource : String :=
  "a\r@import (reference) 'x';\n\n@import 'y';"

/-- When that statement is removed, the line feed joins the carriage return: the lines of what is
left are not those that are kept, and there are fewer by two, though only one is dropped. -/
theorem removeLines_joins_returnSource :
    (∃ output, removeLines returnSource [2] = .ok output) ∧
      ∀ body, removeLines returnSource [2] =
          .ok (String.ofList (leadingBom returnSource.toList ++ body)) →
        filledLines body ≠ keptLines returnSource.toList [2] ∧
          (filledLines body).length + droppedLines returnSource.toList [2] ≠
            (filledLines (afterBom returnSource.toList)).length := by
  have hrun : removeLines returnSource [2] = .ok "a\r\n@import 'y';" :=
    toOption_eq_some_iff.1 (by decide +kernel)
  refine ⟨⟨_, hrun⟩, fun body hbody => ?_⟩
  have htext : body = "a\r\n@import 'y';".toList := by
    have hleft : String.ofList (leadingBom returnSource.toList ++ body) = "a\r\n@import 'y';" :=
      Except.ok.inj (hbody.symm.trans hrun)
    calc body = leadingBom returnSource.toList ++ body := rfl
      _ = (String.ofList (leadingBom returnSource.toList ++ body)).toList :=
        String.toList_ofList.symm
      _ = "a\r\n@import 'y';".toList := congrArg String.toList hleft
  rw [htext]
  refine ⟨?_, ?_⟩ <;> decide +kernel

end ImportSweep.Source

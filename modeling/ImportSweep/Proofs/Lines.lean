import ImportSweep.Proofs.Bytes

/-!
# Lines of a text

`lines` divides a text at its line ends: a carriage return with a line feed after it, or one of the
two alone. What follows the last line end is a line without an end, and it may be empty. So every
place of a text is on one line, the end of the text included.

The cuts that matter leave a carriage return and its line feed together (`CleanCut`). At such a cut
the lines of the two parts are those of the whole, with the last of the first part and the first of
the second joined to one (`linesFrom_append`).
-/

namespace ImportSweep.Source

/-- A line of a text. -/
structure Line where
  /-- What stands before the line end. -/
  text : List Char
  /-- The line end; nothing on the last line. -/
  ending : List Char
  deriving DecidableEq, Repr

/-- All characters of a line. -/
def Line.chars (line : Line) : List Char :=
  line.text ++ line.ending

/-- The lines of a text that goes on a line; `current` is the text of that line so far. -/
def linesFrom (current : List Char) : List Char → List Line
  | [] => [⟨current, []⟩]
  | '\r' :: '\n' :: rest => ⟨current, ['\r', '\n']⟩ :: linesFrom [] rest
  | c :: rest =>
    if isLineEnd c then ⟨current, [c]⟩ :: linesFrom [] rest else linesFrom (current ++ [c]) rest

/-- The lines of a text. -/
def lines (text : List Char) : List Line :=
  linesFrom [] text

theorem linesFrom_ne_nil (current text : List Char) : linesFrom current text ≠ [] := by
  fun_induction linesFrom current text with
  | case1 => exact List.cons_ne_nil _ _
  | case2 => exact List.cons_ne_nil _ _
  | case3 => exact List.cons_ne_nil _ _
  | case4 _ _ _ _ _ ih => exact ih

/-- The lines hold all of the text. -/
theorem flatMap_chars_linesFrom (current text : List Char) :
    (linesFrom current text).flatMap Line.chars = current ++ text := by
  fun_induction linesFrom current text with
  | case1 => simp [Line.chars]
  | case2 _ _ ih => rw [List.flatMap_cons, ih]; simp [Line.chars]
  | case3 _ _ _ _ _ ih => rw [List.flatMap_cons, ih]; simp [Line.chars]
  | case4 _ _ _ _ _ ih => rw [ih, List.append_assoc]; rfl

/-- Only the last line has no line end. -/
theorem ending_ne_nil_of_mem_dropLast {current text : List Char} {line : Line}
    (h : line ∈ (linesFrom current text).dropLast) : line.ending ≠ [] := by
  fun_induction linesFrom current text with
  | case1 => cases h
  | case2 _ rest ih =>
    rw [List.dropLast_cons_of_ne_nil (linesFrom_ne_nil [] rest)] at h
    rcases List.mem_cons.1 h with rfl | h
    · exact List.cons_ne_nil _ _
    · exact ih h
  | case3 _ _ rest _ _ ih =>
    rw [List.dropLast_cons_of_ne_nil (linesFrom_ne_nil [] rest)] at h
    rcases List.mem_cons.1 h with rfl | h
    · exact List.cons_ne_nil _ _
    · exact ih h
  | case4 _ _ _ _ _ ih => exact ih h

/-! ## Clean cuts -/

/-- No carriage return is cut off from the line feed after it. -/
def CleanCut (before after : List Char) : Prop :=
  before.getLast? = some '\r' → after.head? ≠ some '\n'

theorem CleanCut.nil (after : List Char) : CleanCut [] after := by
  intro h
  cases h

theorem cleanCut_singleton_iff {c : Char} {after : List Char} :
    CleanCut [c] after ↔ ∀ rest, c = '\r' → after = '\n' :: rest → False := by
  cases after with
  | nil => simp [CleanCut]
  | cons d after => simp [CleanCut]

theorem cleanCut_cons_cons_iff {c d : Char} {before after : List Char} :
    CleanCut (c :: d :: before) after ↔ CleanCut (d :: before) after := by
  simp [CleanCut]

/-- A clean cut stays clean when its first character goes. -/
theorem CleanCut.of_cons {c : Char} {before after : List Char} (h : CleanCut (c :: before) after) :
    CleanCut before after := by
  cases before with
  | nil => exact .nil after
  | cons d before => exact cleanCut_cons_cons_iff.1 h

/-- A clean cut stays clean with one more character in front, if that is not the first half of a line
end. -/
theorem CleanCut.cons {c : Char} {before after : List Char} (h : CleanCut before after)
    (hfirst : CleanCut [c] (before ++ after)) : CleanCut (c :: before) after := by
  cases before with
  | nil => exact hfirst
  | cons d before => exact cleanCut_cons_cons_iff.2 h

/-- A clean cut after the first character, in a text that is continued at a clean cut. -/
theorem CleanCut.append_right {c : Char} {rest after : List Char} (hfirst : CleanCut [c] rest)
    (h : CleanCut (c :: rest) after) : CleanCut [c] (rest ++ after) := by
  cases rest with
  | nil => exact h
  | cons d rest => exact hfirst

/-- What a character does that is not the first half of a line end. -/
theorem linesFrom_cons {current rest : List Char} {c : Char} (h : CleanCut [c] rest) :
    linesFrom current (c :: rest) =
      if isLineEnd c then ⟨current, [c]⟩ :: linesFrom [] rest
      else linesFrom (current ++ [c]) rest := by
  rw [linesFrom]
  exact cleanCut_singleton_iff.1 h

/-- At a clean cut the lines of the two parts are the lines of the whole, with the last of the
first part and the first of the second joined. -/
theorem linesFrom_append (current : List Char) {before after : List Char} (hcut : CleanCut before after) :
    ∃ text, linesFrom current before = (linesFrom current before).dropLast ++ [⟨text, []⟩] ∧
      linesFrom current (before ++ after) =
        (linesFrom current before).dropLast ++ linesFrom text after := by
  -- By the recursion of `linesFrom`: the line that is open at the cut goes on behind it.
  fun_induction linesFrom current before with
  | case1 current => exact ⟨current, rfl, rfl⟩
  | case2 current rest ih =>
    obtain ⟨text, hbefore, hwhole⟩ := ih hcut.of_cons.of_cons
    rw [List.dropLast_cons_of_ne_nil (linesFrom_ne_nil [] rest)]
    refine ⟨text, ?_, ?_⟩
    · rw [List.cons_append, ← hbefore]
    · rw [List.cons_append, List.cons_append, linesFrom, hwhole, List.cons_append]
  | case3 current c rest hpair hend ih =>
    obtain ⟨text, hbefore, hwhole⟩ := ih hcut.of_cons
    -- Also with what is behind the cut, the line end is this one character.
    have hfirst := (cleanCut_singleton_iff.2 hpair).append_right hcut
    rw [List.dropLast_cons_of_ne_nil (linesFrom_ne_nil [] rest)]
    refine ⟨text, ?_, ?_⟩
    · rw [List.cons_append, ← hbefore]
    · rw [List.cons_append, linesFrom_cons hfirst, if_pos hend, hwhole, List.cons_append]
  | case4 current c rest hpair hend ih =>
    obtain ⟨text, hbefore, hwhole⟩ := ih hcut.of_cons
    have hfirst := (cleanCut_singleton_iff.2 hpair).append_right hcut
    refine ⟨text, hbefore, ?_⟩
    rw [List.cons_append, linesFrom_cons hfirst, if_neg hend, hwhole]

/-! ## The line of a place -/

theorem utf8Size_of_isLineEnd {c : Char} (h : isLineEnd c = true) : c.utf8Size = 1 := by
  rw [isLineEnd, Bool.or_eq_true, decide_eq_true_eq, decide_eq_true_eq] at h
  rcases h with rfl | rfl <;> rfl

/-- A line at the front is one of those before the last. -/
theorem byteLength_dropLast_cons (line : Line) (text : List Char) :
    byteLength ((line :: linesFrom [] text).dropLast.flatMap Line.chars) =
      byteLength line.text + byteLength line.ending +
        byteLength ((linesFrom [] text).dropLast.flatMap Line.chars) := by
  rw [List.dropLast_cons_of_ne_nil (linesFrom_ne_nil [] text), List.flatMap_cons,
    byteLength_append, Line.chars, byteLength_append]

/-- The last line of a text begins after all the others. The text goes on a line that begins at
byte `start`. -/
theorem lastLineStart_eq (start : Nat) (current text : List Char) :
    lastLineStart start (start + byteLength current) text =
      start + byteLength ((linesFrom current text).dropLast.flatMap Line.chars) := by
  fun_induction linesFrom current text generalizing start with
  | case1 => rfl
  | case2 current rest ih =>
    -- Both characters of the line end move the beginning of the line behind them.
    have hnext := ih (start + (byteLength current + 2))
    rw [byteLength_dropLast_cons, ← Nat.add_assoc]
    exact hnext
  | case3 current c rest hpair hend ih =>
    have hsize := utf8Size_of_isLineEnd hend
    have hnext := ih (start + (byteLength current + 1))
    rw [byteLength_dropLast_cons, ← Nat.add_assoc, lastLineStart, if_pos hend, hsize, byteLength,
      hsize]
    exact hnext
  | case4 current c rest hpair hend ih =>
    have hnext := ih start
    rw [byteLength_append, ← Nat.add_assoc] at hnext
    rw [lastLineStart, if_neg hend]
    exact hnext

/-- The byte order mark holds no line end. -/
theorem lastLineStart_leadingBom (start : Nat) (source text : List Char) :
    lastLineStart start 0 (leadingBom source ++ text) =
      lastLineStart start (byteLength (leadingBom source)) text := by
  cases source with
  | nil => rfl
  | cons c rest =>
    rw [leadingBom]
    split <;> rfl

/-- The line that a text goes on ends at the next line end. -/
theorem linesFrom_eq_cons (current text : List Char) :
    ∃ ending rest,
      linesFrom current text = ⟨current ++ text.takeWhile fun c => !isLineEnd c, ending⟩ :: rest ∧
      byteLength ending = lineEndLength (text.dropWhile fun c => !isLineEnd c) := by
  fun_induction linesFrom current text with
  | case1 current => exact ⟨[], [], by simp, rfl⟩
  | case2 current rest ih => exact ⟨['\r', '\n'], linesFrom [] rest, by simp [isLineEnd], rfl⟩
  | case3 current c rest hpair hend ih =>
    refine ⟨[c], linesFrom [] rest, by simp [hend], ?_⟩
    have hdrop : (c :: rest).dropWhile (fun c => !isLineEnd c) = c :: rest := by simp [hend]
    rw [hdrop, byteLength, utf8Size_of_isLineEnd hend, lineEndLength]
    · rfl
    · exact hpair
  | case4 current c rest hpair hend ih =>
    obtain ⟨ending, more, hlines, hending⟩ := ih
    refine ⟨ending, more, ?_, ?_⟩
    · rw [hlines, List.takeWhile_cons_of_pos (by simp [hend]), List.append_assoc]
      rfl
    · rw [hending, List.dropWhile_cons_of_pos (by simp [hend])]

/-- A text is its byte order mark and what comes after it. -/
theorem leadingBom_append_afterBom (source : List Char) :
    leadingBom source ++ afterBom source = source := by
  cases source with
  | nil => rfl
  | cons c rest =>
    rw [leadingBom, afterBom]
    split
    · next h => rw [h]; rfl
    · rfl

end ImportSweep.Source

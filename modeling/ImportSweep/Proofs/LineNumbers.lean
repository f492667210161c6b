import ImportSweep.Proofs.RemovedBytes

/-!
# Numbers of lines

`lineOf` counts the line ends before a place. The lines of a source that are closed before the place
are as many (`lineOf_eq_countP`), so an offset has the number of a line exactly when its place is on
that line (`lineOf_eq_succ_iff`).
-/

namespace ImportSweep.Source

open ImportSweep.Tree

/-! ## Counting line ends -/

/-- The line ends at this character. A carriage return leaves that to the line feed after it. -/
def EndsLine (c : Char) (rest : List Char) : Prop :=
  c = '\n' ∨ c = '\r' ∧ rest.head? ≠ some '\n'

instance (c : Char) (rest : List Char) : Decidable (EndsLine c rest) :=
  inferInstanceAs (Decidable (_ ∨ _))

/-- No line end begins before the text does. -/
theorem breaksBefore_of_le {limit position : Nat} (h : limit ≤ position) (text : List Char) :
    breaksBefore limit position text = 0 := by
  cases text with
  | nil => rfl
  | cons c rest => rw [breaksBefore, if_neg (by omega)]

/-- The first character counts by itself, and the others count behind it. -/
theorem breaksBefore_cons (limit position : Nat) (c : Char) (rest : List Char) :
    breaksBefore limit position (c :: rest) =
      (if position < limit ∧ EndsLine c rest then 1 else 0) +
        breaksBefore limit (position + c.utf8Size) rest := by
  rw [breaksBefore]
  by_cases hlt : position < limit
  · simp [hlt, EndsLine]
  · -- Behind the limit nothing counts any more.
    have hrest := breaksBefore_of_le (show limit ≤ position + c.utf8Size by omega) rest
    simp [hlt, hrest]

/-- The line ends before a place. -/
def PlacedLine.ClosedBefore (position : Nat) (line : PlacedLine) : Prop :=
  line.ending ≠ [] ∧ line.next ≤ position

instance (position : Nat) : DecidablePred (PlacedLine.ClosedBefore position) :=
  fun line => inferInstanceAs (Decidable (line.ending ≠ [] ∧ line.next ≤ position))

/-- A line is closed before a place when its line end is. -/
theorem closedBefore_mk_iff {limit start : Nat} {text ending : List Char} :
    PlacedLine.ClosedBefore limit ⟨⟨text, ending⟩, start⟩ ↔
      ending ≠ [] ∧ start + byteLength text + byteLength ending ≤ limit :=
  Iff.rfl

/-- The line ends before a place are those of the lines closed before it. The text goes on a line
that begins at byte `start`. -/
theorem breaksBefore_eq_countP (limit start : Nat) (current text : List Char) :
    breaksBefore limit (start + byteLength current) text =
      (placeLines start (linesFrom current text)).countP (PlacedLine.ClosedBefore limit) := by
  -- By the recursion of `linesFrom`: each line counts when its line end does.
  fun_induction linesFrom current text generalizing start with
  | case1 current =>
    simp [breaksBefore, placeLines, closedBefore_mk_iff]
  | case2 current rest ih =>
    have hnext := ih (start + byteLength (Line.chars ⟨current, ['\r', '\n']⟩))
    have hreturn : ¬ EndsLine '\r' ('\n' :: rest) := by simp [EndsLine]
    have hfeed : EndsLine '\n' rest := .inl rfl
    rw [placeLines, List.countP_cons, ← hnext, breaksBefore_cons, breaksBefore_cons]
    simp only [hreturn, hfeed, and_false, and_true, if_false, closedBefore_mk_iff, Line.chars,
      byteLength_append, byteLength, Nat.add_zero, decide_eq_true_eq]
    -- Of the two halves the second counts, and the line is closed behind it.
    have hsize : '\r'.utf8Size = 1 ∧ '\n'.utf8Size = 1 := ⟨rfl, rfl⟩
    rw [hsize.1, hsize.2, ← Nat.add_assoc, Nat.zero_add, Nat.add_comm]
    congr 1
    refine if_congr ?_ rfl rfl
    simp only [ne_eq, reduceCtorEq, not_false_eq_true, true_and]
    omega
  | case3 current c rest hpair hend ih =>
    have hnext := ih (start + byteLength (Line.chars ⟨current, [c]⟩))
    have hsize := utf8Size_of_isLineEnd hend
    have hends : EndsLine c rest := by
      rw [isLineEnd, Bool.or_eq_true, decide_eq_true_eq, decide_eq_true_eq] at hend
      refine hend.imp_right fun hreturn => ⟨hreturn, ?_⟩
      exact cleanCut_singleton_iff.2 hpair (by rw [hreturn]; rfl)
    rw [placeLines, List.countP_cons, ← hnext, breaksBefore_cons]
    simp only [hends, and_true, closedBefore_mk_iff, Line.chars, byteLength_append, byteLength,
      hsize, Nat.add_zero, decide_eq_true_eq]
    rw [← Nat.add_assoc, Nat.add_comm]
    congr 1
    refine if_congr ?_ rfl rfl
    simp only [ne_eq, reduceCtorEq, not_false_eq_true, true_and]
    omega
  | case4 current c rest hpair hend ih =>
    have hnext := ih start
    have hends : ¬ EndsLine c rest := by
      rintro (rfl | ⟨rfl, -⟩) <;> exact hend rfl
    rw [← hnext, breaksBefore_cons, byteLength_append]
    simp [hends, byteLength, Nat.add_assoc]

/-- The byte order mark is no line end. -/
theorem breaksBefore_leadingBom (limit : Nat) (source text : List Char) :
    breaksBefore limit 0 (leadingBom source ++ text) =
      breaksBefore limit (byteLength (leadingBom source)) text := by
  cases source with
  | nil => rfl
  | cons c rest =>
    rw [leadingBom]
    split
    · have hmark : ¬ EndsLine bom text := by simp [EndsLine, bom]
      rw [List.singleton_append, breaksBefore_cons]
      simp [hmark, byteLength]
    · rfl

/-- The number of a place is one more than the number of lines closed before it. -/
theorem lineOf_eq_countP (source : List Char) (position : Nat) :
    lineOf source position =
      (placedLines source).countP (PlacedLine.ClosedBefore position) + 1 := by
  have hbody := breaksBefore_eq_countP position (byteLength (leadingBom source)) []
    (afterBom source)
  have hsource := breaksBefore_leadingBom position source (afterBom source)
  rw [leadingBom_append_afterBom] at hsource
  rw [lineOf, hsource, placedLines, lines, ← hbody]
  rfl

/-! ## The line of a number -/

/-- The lines of a source follow each other, and all but the last have a line end. -/
theorem placedLines_pairwise (source : List Char) :
    (placedLines source).Pairwise fun a b => a.next ≤ b.start ∧ a.ending ≠ [] :=
  placeLines_pairwise fun _ => ending_ne_nil_of_mem_dropLast

/-- The lines closed before a place are those before the line of the place. -/
theorem countP_closedBefore {ls : List PlacedLine} {i position : Nat} {line : PlacedLine}
    (hls : ls.Pairwise fun a b => a.next ≤ b.start ∧ a.ending ≠ []) (hi : ls[i]? = some line)
    (hhas : line.Has position) : ls.countP (PlacedLine.ClosedBefore position) = i := by
  induction ls generalizing i with
  | nil => cases hi
  | cons first ls ih =>
    obtain ⟨hfirst, hrest⟩ := List.pairwise_cons.1 hls
    cases i with
    | zero =>
      cases Option.some.inj hi
      have hopen : ¬ line.ClosedBefore position := by
        rintro ⟨hending, hnext⟩
        rcases hhas.2 with hlt | ⟨hnil, -⟩
        · omega
        · exact hending hnil
      -- The lines behind this one end later still.
      have hlater : ls.countP (PlacedLine.ClosedBefore position) = 0 := by
        refine List.countP_eq_zero.2 fun other hother hclosed => ?_
        have hclosed : other.ClosedBefore position := of_decide_eq_true hclosed
        obtain ⟨hle, hending⟩ := hfirst other hother
        have hspan : other.start ≤ other.next := by
          rw [PlacedLine.next, PlacedLine.stop]
          omega
        rcases hhas.2 with hlt | ⟨hnil, -⟩
        · have := hclosed.2
          omega
        · exact hending hnil
      rw [List.countP_cons_of_neg (by simpa using hopen), hlater]
    | succ i =>
      have hline : ls[i]? = some line := hi
      obtain ⟨hle, hending⟩ := hfirst line (List.mem_of_getElem? hline)
      have hclosed : first.ClosedBefore position := ⟨hending, Nat.le_trans hle hhas.1⟩
      rw [List.countP_cons_of_pos (by simpa using hclosed), ih hrest hline]

/-- An offset has the number of a line exactly when its place is on the line. -/
theorem lineOf_eq_succ_iff {source : List Char} {offset position i : Nat} {line : PlacedLine}
    (hposition : bytePosition source offset = .ok position)
    (hi : (placedLines source)[i]? = some line) :
    lineOf source position = i + 1 ↔ line.Has position := by
  have hcount : ∀ {j : Nat} {other : PlacedLine}, (placedLines source)[j]? = some other →
      other.Has position → lineOf source position = j + 1 := by
    intro j other hj hhas
    rw [lineOf_eq_countP, countP_closedBefore (placedLines_pairwise source) hj hhas]
  constructor
  · -- The place is on some line, and the number of that line is the same.
    intro hnumber
    obtain ⟨division, -, rfl, hmem, -⟩ := exists_division hposition
    obtain ⟨j, hj⟩ := List.getElem?_of_mem hmem
    have hsame : j = i := Nat.succ.inj ((hcount hj division.has_line).symm.trans hnumber)
    rw [hsame, hi] at hj
    cases hj
    exact division.has_line
  · exact hcount hi

end ImportSweep.Source

import Mathlib.Data.List.Infix
import ImportSweep.Proofs.LineNumbers
import ImportSweep.Proofs.Pruning

/-!
# The lines that are reported

An unused import is reported with the number of its line. The number is found in the bytes of the
source, where a line may end in three ways. The offset of the import, however, counts UTF-16 units of
the normalised text, where every line ends in a line feed. `lineAt` is the number of the line as it is
seen there: the line feeds among the units before the offset are counted. The two numbers are the
same (`lineOf_eq_lineAt`), so what is reported is right for whoever gave the offset
(`Sweep.unused_line_eq_lineAt`).

## Main definitions

* `utf16`: the UTF-16 units of a text, one by one;
* `lineAt`: the number of a line, counted in these units.
-/

namespace ImportSweep.Source

open ImportSweep.Tree

/-! ## Units of a text -/

/-- The UTF-16 units of a character: its code point, or the two halves of a pair. -/
def charUnits (c : Char) : List Nat :=
  if c.toNat < 0x10000 then [c.toNat]
  else [0xD800 + (c.toNat - 0x10000) / 0x400, 0xDC00 + (c.toNat - 0x10000) % 0x400]

/-- The UTF-16 units of a text. -/
def utf16 (text : List Char) : List Nat :=
  text.flatMap charUnits

/-- The unit of a line feed. -/
def feedUnit : Nat :=
  '\n'.toNat

/-- The number of the line at an offset of a text in which all lines end in line feeds. Lines are
counted from one. -/
def lineAt (text : List Char) (offset : Nat) : Nat :=
  ((utf16 text).take offset).count feedUnit + 1

theorem utf16_append (a b : List Char) : utf16 (a ++ b) = utf16 a ++ utf16 b :=
  List.flatMap_append

theorem length_charUnits (c : Char) : (charUnits c).length = unitSize c := by
  unfold charUnits unitSize
  split <;> rfl

/-- A text has as many units as are counted. -/
theorem length_utf16 (text : List Char) : (utf16 text).length = units text := by
  induction text with
  | nil => rfl
  | cons c text ih =>
    unfold utf16 at ih ⊢
    rw [List.flatMap_cons, List.length_append, length_charUnits, ih, units]

/-- A line feed is one unit, and no other character has this unit among its own. -/
theorem count_charUnits (c : Char) : (charUnits c).count feedUnit = if c = '\n' then 1 else 0 := by
  unfold charUnits
  split
  · -- One unit, which is the code point.
    rw [List.count_singleton]
    refine if_congr ?_ rfl rfl
    rw [beq_iff_eq, feedUnit]
    exact Char.toNat_inj
  · -- The halves of a pair are far above the unit of a line feed.
    next hlarge =>
    have hother : c ≠ '\n' := by
      rintro rfl
      exact hlarge (by decide)
    rw [if_neg hother, List.count_eq_zero]
    intro hmem
    rw [feedUnit, show '\n'.toNat = 10 from rfl] at hmem
    rcases List.mem_pair.1 hmem with hfirst | hsecond
    · omega
    · omega

/-- The line feeds of a text are counted in its units. -/
theorem count_utf16 (text : List Char) : (utf16 text).count feedUnit = text.count '\n' := by
  induction text with
  | nil => rfl
  | cons c text ih =>
    unfold utf16 at ih ⊢
    rw [List.flatMap_cons, List.count_append, count_charUnits, ih, List.count_cons, Nat.add_comm]
    simp only [beq_iff_eq]

/-- At the end of a part of a text, the line feeds of that part have gone by. -/
theorem lineAt_append (before after : List Char) :
    lineAt (before ++ after) (units before) = before.count '\n' + 1 := by
  rw [lineAt, utf16_append, ← length_utf16, List.take_left, count_utf16]

/-- A later offset is not on an earlier line. -/
theorem lineAt_le_of_le (text : List Char) {small large : Nat} (h : small ≤ large) :
    lineAt text small ≤ lineAt text large := by
  unfold lineAt
  apply Nat.succ_le_succ
  exact (List.take_prefix_take_left h).sublist.count_le feedUnit

/-! ## Line ends and line feeds -/

/-- Up to a clean cut, the line ends of a text are the line feeds that folding makes of them. -/
theorem breaksBefore_append {before after : List Char} (hcut : CleanCut before after)
    (position : Nat) :
    breaksBefore (position + byteLength before) position (before ++ after) =
      (foldLineEnds before).count '\n' := by
  -- The limit stays where it is while the text before it gets shorter from the front.
  induction before using lineEnd_induction generalizing position with
  | nil =>
    rw [byteLength, Nat.add_zero, breaksBefore_of_le (Nat.le_refl position)]
    rfl
  | pair rest ih =>
    -- Two characters, but the carriage return leaves it to the line feed to count.
    have hreturn : ¬ EndsLine '\r' ('\n' :: (rest ++ after)) := by simp [EndsLine]
    have hfeed : EndsLine '\n' (rest ++ after) := .inl rfl
    have hrest := ih hcut.of_cons.of_cons (position + 2)
    rw [Nat.add_assoc, ← byteLength_pair] at hrest
    have hinside : position + 1 < position + byteLength ('\r' :: '\n' :: rest) := by
      rw [byteLength_pair]
      omega
    rw [List.cons_append, List.cons_append, breaksBefore_cons, breaksBefore_cons, foldLineEnds,
      List.count_cons_self, ← hrest, if_neg fun h => hreturn h.2,
      if_pos ⟨hinside, hfeed⟩, Nat.zero_add, Nat.add_comm]
    rfl
  | char c rest hfirst ih =>
    have hrest := ih hcut.of_cons (position + c.utf8Size)
    rw [Nat.add_assoc] at hrest
    have hinside : position < position + byteLength (c :: rest) := by
      have hpos := c.utf8Size_pos
      rw [byteLength]
      omega
    -- The character ends a line exactly when it is folded to a line feed.
    have hends : EndsLine c (rest ++ after) ↔ foldedChar c = '\n' := by
      have hclean := cleanCut_singleton_iff.1 (hfirst.append_right hcut)
      unfold EndsLine foldedChar
      by_cases hreturn : c = '\r'
      · simp only [hreturn, true_and, if_true, iff_true]
        right
        intro hhead
        obtain ⟨rest', hrest'⟩ := List.head?_eq_some_iff.1 hhead
        exact hclean rest' hreturn hrest'
      · simp [hreturn]
    rw [List.cons_append, breaksBefore_cons, foldLineEnds_cons hfirst, List.count_cons, ← hrest,
      byteLength, Nat.add_comm]
    congr 1
    refine if_congr ?_ rfl rfl
    rw [beq_iff_eq, ← hends]
    exact and_iff_right hinside

/-- The number of a line that is found in the source is the one that is seen in the normalised
text. -/
theorem lineOf_eq_lineAt {source : List Char} {offset position : Nat}
    (h : bytePosition source offset = .ok position) :
    lineOf source position = lineAt (normalise source) offset := by
  obtain ⟨before, after, hbody, rfl, hcut, rfl⟩ :=
    isPlace_iff.1 (bytePosition_eq_ok_iff_isPlace.1 h)
  have hsource := leadingBom_append_afterBom source
  rw [hbody] at hsource
  -- The cut divides the normalised text where it divides the source.
  calc lineOf source (byteLength (leadingBom source) + byteLength before)
      = breaksBefore (byteLength (leadingBom source) + byteLength before)
          (byteLength (leadingBom source)) (before ++ after) + 1 := by
        rw [lineOf, ← breaksBefore_leadingBom, hsource]
    _ = (foldLineEnds before).count '\n' + 1 := by rw [breaksBefore_append hcut]
    _ = lineAt (foldLineEnds before ++ foldLineEnds after) (units (foldLineEnds before)) :=
        (lineAt_append _ _).symm
    _ = lineAt (normalise source) (units (foldLineEnds before)) := by
        rw [normalise, hbody, foldLineEnds_append hcut]

/-- An offset that has a place lies in the normalised text. -/
theorem le_units_normalise {source : List Char} {offset position : Nat}
    (h : bytePosition source offset = .ok position) : offset ≤ units (normalise source) := by
  obtain ⟨before, after, hbody, -, hcut, rfl⟩ :=
    isPlace_iff.1 (bytePosition_eq_ok_iff_isPlace.1 h)
  rw [normalise, hbody, foldLineEnds_append hcut, units_append]
  exact Nat.le_add_right _ _

end ImportSweep.Source

namespace ImportSweep

open ImportSweep.Tree ImportSweep.Files ImportSweep.Source

/-! ## Reported imports -/

namespace Sweep

variable {σ : Type} [Store σ]

/-- The unused imports of a file are numbered by the lines of the normalised text. For every place
of a source, the number of the line that is found from the place is that of the offset; a later
offset is never on an earlier line. -/
theorem unused_line_eq_lineAt (s : Sweep) (files : σ) (target : Target) :
    (∀ source offset position, bytePosition source offset = .ok position →
      lineOf source position = lineAt (normalise source) offset) ∧
    (∀ source small large first second, small ≤ large → bytePosition source small = .ok first →
      bytePosition source large = .ok second → lineOf source first ≤ lineOf source second) ∧
    ∀ findings, s.unused files target = .ok findings →
      ∃ source, load files target = .ok source ∧
        (∀ finding ∈ findings, finding.offset ≤ (utf16 (normalise source.toList)).length ∧
          finding.line = lineAt (normalise source.toList) finding.offset) ∧
        ∀ finding ∈ findings, ∀ other ∈ findings, finding.offset ≤ other.offset →
          finding.line ≤ other.line := by
  refine ⟨fun source offset position => lineOf_eq_lineAt, ?_, ?_⟩
  · intro source small large first second hle hfirst hsecond
    rw [lineOf_eq_lineAt hfirst, lineOf_eq_lineAt hsecond]
    exact lineAt_le_of_le _ hle
  · intro findings h
    obtain ⟨source, hsource, hfound⟩ := unused_eq_ok_iff.1 h
    obtain ⟨root, statements, -, -, hfindings⟩ := unusedIn_eq_ok_iff.1 hfound
    have hlines : ∀ finding ∈ findings,
        finding.offset ≤ (utf16 (normalise source.toList)).length ∧
          finding.line = lineAt (normalise source.toList) finding.offset := by
      intro finding hfinding
      obtain ⟨statement, -, hof⟩ := (mem_of_mapM_eq_ok hfindings).1 hfinding
      obtain ⟨-, -, position, hposition, hline⟩ := Finding.ofStatement_eq_ok_iff.1 hof
      rw [length_utf16, hline]
      exact ⟨le_units_normalise hposition, lineOf_eq_lineAt hposition⟩
    refine ⟨source, hsource, hlines, fun finding hfinding other hother hle => ?_⟩
    rw [(hlines finding hfinding).2, (hlines other hother).2]
    exact lineAt_le_of_le _ hle

/-- A source in which two imports come after a character of two units, and whose lines end in three
ways. -/
def mixedSheet : String :=
  "\ufeff/* 😀 */\r\n@import 'a';\r@import 'b';\n"

/-- A sweep whose parser sees the two imports. -/
def mixedSweep : Sweep where
  parser _ _ :=
    .ok (Build.root
      [{ Build.importRule "a" (some (Build.root [])) false with index := some 9 },
       { Build.importRule "b" (some (Build.root [])) false with index := some 22 }])
  referenceOnly := false

/-- The imports are reported on the second and on the third line, where they are in the normalised
text too. -/
theorem unused_line_eq_lineAt_mixedSheet :
    ∃ first second,
      mixedSweep.unused importingFiles ⟨some mixedSheet, "a.less", []⟩ = .ok [first, second] ∧
        first.line = 2 ∧ lineAt (normalise mixedSheet.toList) first.offset = 2 ∧
        second.line = 3 ∧ lineAt (normalise mixedSheet.toList) second.offset = 3 ∧
        lineOf mixedSheet.toList 15 = lineAt (normalise mixedSheet.toList) 9 := by
  have hunused : mixedSweep.unused importingFiles ⟨some mixedSheet, "a.less", []⟩ =
      .ok [⟨"a", 9, 2⟩, ⟨"b", 22, 3⟩] := toOption_eq_some_iff.1 (by decide +kernel)
  have hplace : bytePosition mixedSheet.toList 9 = .ok 15 :=
    toOption_eq_some_iff.1 (by decide +kernel)
  obtain ⟨hplaces, -, hfindings⟩ :=
    unused_line_eq_lineAt mixedSweep importingFiles ⟨some mixedSheet, "a.less", []⟩
  obtain ⟨source, hsource, hlines, -⟩ := hfindings _ hunused
  cases hsource
  refine ⟨_, _, hunused, rfl, (hlines _ List.mem_cons_self).2.symm, rfl, ?_, hplaces _ _ _ hplace⟩
  exact (hlines _ (List.mem_cons_of_mem _ List.mem_cons_self)).2.symm

end Sweep

end ImportSweep

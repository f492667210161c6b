import ImportSweep.Proofs.RemovedBytes

/-!
# Removal one statement after the other

Removing statements all at once gives the same text as removing them one after the other, the last
one first. The text of each step is a new source: its places are found again and its lines begin and
end anew. So the proof goes by one step, in which the last statement goes. `Cut` is what that step
does to the source. `Cut.exists_place` says that each statement before it stays where it was and
that its span loses just what the cut takes out of it. `removeLines_last` puts this together, and
`removeOneByOne_of_descending` is the induction over the offsets.

Two conditions are needed. A carriage return that stands alone could come to stand before the line
feed of a later line, and the two would then be one line end. White space could go with the line of
a later statement, and an offset that led to it would then lead elsewhere.
-/

namespace ImportSweep.Source

open ImportSweep.Tree

/-! ## Texts and places -/

/-- Every carriage return has a line feed directly behind it. -/
def ReturnsPaired (text : List Char) : Prop :=
  ∀ before after, text = before ++ '\r' :: after → after.head? = some '\n'

/-- The offset leads to a character of the source that is not white space. -/
def PointsAtNonBlank (source : List Char) (offset : Nat) : Prop :=
  ∃ before c after, source = before ++ c :: after ∧ Text.isBlank c = false ∧
    bytePosition source offset = .ok (byteLength before)

theorem returnsPaired_nil : ReturnsPaired [] := by
  intro before after h
  cases before <;> cases h

theorem returnsPaired_cons_iff {c : Char} {text : List Char} :
    ReturnsPaired (c :: text) ↔ (c = '\r' → text.head? = some '\n') ∧ ReturnsPaired text := by
  constructor
  · intro h
    refine ⟨fun hc => h [] text (by rw [hc]; rfl), fun before after htext => ?_⟩
    exact h (c :: before) after (by rw [htext, List.cons_append])
  · rintro ⟨hfirst, hrest⟩ before after htext
    cases before with
    | nil =>
      cases htext
      exact hfirst rfl
    | cons d before =>
      cases htext
      exact hrest before after rfl

instance decidableReturnsPaired : (text : List Char) → Decidable (ReturnsPaired text)
  | [] => isTrue returnsPaired_nil
  | _ :: text =>
    have := decidableReturnsPaired text
    decidable_of_iff _ returnsPaired_cons_iff.symm

/-- A cut before a character that is not white space is clean. -/
theorem cleanCut_of_isBlank_eq_false {c : Char} (h : Text.isBlank c = false)
    (before after : List Char) : CleanCut before (c :: after) := by
  rintro - hhead
  cases Option.some.inj hhead
  exact absurd h (by decide)

/-- An offset leads to a character that is not white space, when it counts the units before it. -/
theorem bytePosition_of_isBlank_eq_false {source before after : List Char} {c : Char}
    (hbody : afterBom source = before ++ c :: after) (hc : Text.isBlank c = false) :
    bytePosition source (units (foldLineEnds before)) =
      .ok (byteLength (leadingBom source ++ before)) := by
  rw [bytePosition_eq_ok_iff_isPlace, isPlace_iff, byteLength_append]
  exact ⟨before, c :: after, hbody, rfl, cleanCut_of_isBlank_eq_false hc before after, rfl⟩

theorem pointsAtNonBlank_iff {source : List Char} {offset : Nat} :
    PointsAtNonBlank source offset ↔ ∃ before c after, afterBom source = before ++ c :: after ∧
      Text.isBlank c = false ∧ units (foldLineEnds before) = offset := by
  constructor
  · rintro ⟨before, c, after, hsource, hc, hposition⟩
    obtain ⟨body, rest, hbody, hlength, -, hunits⟩ :=
      isPlace_iff.1 (bytePosition_eq_ok_iff_isPlace.1 hposition)
    -- Both ways to divide the source at the place are the same.
    have hparts : leadingBom source ++ body ++ rest = before ++ c :: after := by
      rw [List.append_assoc, ← hbody, leadingBom_append_afterBom, hsource]
    obtain ⟨-, rfl⟩ :=
      append_inj_of_byteLength_eq hparts ((byteLength_append _ _).trans hlength.symm)
    exact ⟨body, c, after, hbody, hc, hunits⟩
  · rintro ⟨before, c, after, hbody, hc, rfl⟩
    refine ⟨leadingBom source ++ before, c, after, ?_, hc,
      bytePosition_of_isBlank_eq_false hbody hc⟩
    rw [List.append_assoc, ← hbody, leadingBom_append_afterBom]

theorem PointsAtNonBlank.exists_bytePosition {source : List Char} {offset : Nat}
    (h : PointsAtNonBlank source offset) :
    ∃ position, bytePosition source offset = .ok position := by
  obtain ⟨before, _, _, -, -, hposition⟩ := h
  exact ⟨byteLength before, hposition⟩

theorem pointsAtNonBlank_iff_any {source : List Char} {offset : Nat} :
    PointsAtNonBlank source offset ↔
      ((bytePosition source offset).toOption.bind fun position =>
        (dropBytes position source).head?).any (fun c => !Text.isBlank c) = true := by
  constructor
  · rintro ⟨before, c, after, rfl, hc, hposition⟩
    rw [hposition]
    simp [Except.toOption, dropBytes_append, hc]
  · intro h
    cases hposition : bytePosition source offset with
    | error _ => simp [hposition, Except.toOption] at h
    | ok position =>
      obtain ⟨before, after, rfl, rfl⟩ := (bytePosition_eq_ok_iff_isPlace.1 hposition).boundary
      rw [hposition] at h
      simp only [Except.toOption, Option.bind_some, dropBytes_append] at h
      cases after with
      | nil => simp at h
      | cons c after => exact ⟨before, c, after, rfl, by simpa using h, hposition⟩

instance (source : List Char) : DecidablePred (PointsAtNonBlank source) :=
  fun _ => decidable_of_iff _ pointsAtNonBlank_iff_any.symm

/-- Behind a carriage return comes a line feed, also where the text is divided. -/
theorem ReturnsPaired.head?_eq {before after : List Char} (h : ReturnsPaired (before ++ after))
    (hlast : before.getLast? = some '\r') : after.head? = some '\n' := by
  obtain ⟨init, rfl⟩ := List.getLast?_eq_some_iff.1 hlast
  exact h init after (by rw [List.append_assoc]; rfl)

theorem ReturnsPaired.append {before after : List Char} (hbefore : ReturnsPaired before)
    (hafter : ReturnsPaired after) : ReturnsPaired (before ++ after) := by
  induction before with
  | nil => exact hafter
  | cons c before ih =>
    obtain ⟨hfirst, hrest⟩ := returnsPaired_cons_iff.1 hbefore
    have hhead : c = '\r' → (before ++ after).head? = some '\n' := by
      intro hc
      rw [List.head?_append, hfirst hc]
      rfl
    exact returnsPaired_cons_iff.2 ⟨hhead, ih hrest⟩

theorem ReturnsPaired.of_append_right {before after : List Char}
    (h : ReturnsPaired (before ++ after)) : ReturnsPaired after := by
  intro start rest hafter
  exact h (before ++ start) rest (by rw [hafter, List.append_assoc])

/-- A text that does not end in a carriage return keeps its line feeds when what follows goes. -/
theorem ReturnsPaired.of_append_left {before after : List Char}
    (h : ReturnsPaired (before ++ after)) (hlast : before.getLast? ≠ some '\r') :
    ReturnsPaired before := by
  intro start rest hbefore
  have hhead := h start (rest ++ after) (by rw [hbefore, List.append_assoc]; rfl)
  cases rest with
  | nil => simp [hbefore] at hlast
  | cons c rest => exact hhead

/-! ## The line of a statement -/

/-- The text ends with a line end. -/
def EndsWithLineEnd (text : List Char) : Prop :=
  ∃ c, text.getLast? = some c ∧ isLineEnd c = true

/-- The last line of a text begins behind its last line end. The text goes on a line that begins at
byte `start`. -/
theorem exists_lastLineStart (start : Nat) (line : List Char)
    (hline : ∀ c ∈ line, isLineEnd c = false) (text : List Char) :
    ∃ closed rest, line ++ text = closed ++ rest ∧
      lastLineStart start (start + byteLength line) text = start + byteLength closed ∧
      (∀ c ∈ rest, isLineEnd c = false) ∧ (closed = [] ∨ EndsWithLineEnd closed) := by
  induction text generalizing start line with
  | nil => exact ⟨[], line, List.append_nil _, rfl, hline, .inl rfl⟩
  | cons c text ih =>
    by_cases hend : isLineEnd c = true
    · -- A new line is open behind the line end.
      have hsize := utf8Size_of_isLineEnd hend
      obtain ⟨closed, rest, rfl, hstart, hrest, hlast⟩ :=
        ih (start + byteLength line + 1) [] (by simp)
      refine ⟨line ++ c :: closed, rest, by simp, ?_, hrest, .inr ?_⟩
      · rw [byteLength, Nat.add_zero] at hstart
        rw [lastLineStart, if_pos hend, hsize, hstart, byteLength_append, byteLength, hsize]
        omega
      · rcases hlast with rfl | ⟨d, hd, hdend⟩
        · exact ⟨c, by simp, hend⟩
        · exact ⟨d, by simp [List.getLast?_append, List.getLast?_cons, hd], hdend⟩
    · have hnext : ∀ d ∈ line ++ [c], isLineEnd d = false := by
        intro d hd
        rcases List.mem_append.1 hd with hd | hd
        · exact hline d hd
        · cases List.mem_singleton.1 hd
          exact Bool.eq_false_iff.2 hend
      obtain ⟨closed, rest, htext, hstart, hrest, hlast⟩ := ih start (line ++ [c]) hnext
      refine ⟨closed, rest, ?_, ?_, hrest, hlast⟩
      · rw [← htext, List.append_assoc]
        rfl
      · rw [byteLength_append, ← Nat.add_assoc] at hstart
        rw [lastLineStart, if_neg hend]
        exact hstart

/-- The number of bytes from a place to the next line end. -/
def bytesToLineEnd (after : List Char) : Nat :=
  byteLength (after.takeWhile fun c => !isLineEnd c)

/-- The number of bytes of the next line end behind a place. -/
def bytesOfLineEnd (after : List Char) : Nat :=
  lineEndLength (after.dropWhile fun c => !isLineEnd c)

/-- The span of a statement begins at its line, if only white space stands before it there, and
otherwise at the statement. Where it begins depends only on what comes before the statement. -/
theorem exists_statementSpan (mark before : List Char) :
    ∃ closed line, before = closed ++ line ∧ (∀ c ∈ line, isLineEnd c = false) ∧
      (closed = [] ∨ EndsWithLineEnd closed) ∧
      ∀ source after, leadingBom source = mark → afterBom source = before ++ after →
        statementSpan source (byteLength (mark ++ before)) =
          let stop := byteLength (mark ++ before) + bytesToLineEnd after
          if Text.AllBlank line then ⟨byteLength (mark ++ closed), stop + bytesOfLineEnd after⟩
          else ⟨byteLength (mark ++ before), stop⟩ := by
  obtain ⟨closed, line, hbefore, hstart, hline, hclosed⟩ :=
    exists_lastLineStart (byteLength mark) [] (by simp) before
  rw [List.nil_append] at hbefore
  rw [byteLength, Nat.add_zero, ← byteLength_append] at hstart
  refine ⟨closed, line, hbefore, hline, hclosed, fun source after hmark hbody => ?_⟩
  have hsource : mark ++ before ++ after = source := by
    rw [List.append_assoc, ← hbody, ← hmark, leadingBom_append_afterBom]
  have htake := takeBytes_append (mark ++ before) after
  have hdrop := dropBytes_append (mark ++ before) after
  rw [hsource] at htake hdrop
  -- The line begins where the last line end before the statement says.
  have hlineStart : lastLineStart (byteLength (leadingBom source)) 0 (mark ++ before) =
      byteLength (mark ++ closed) := by
    rw [← hmark] at hstart ⊢
    rw [lastLineStart_leadingBom, hstart]
  have hlineText : dropBytes (byteLength (mark ++ closed)) (mark ++ before) = line := by
    rw [hbefore, ← List.append_assoc, dropBytes_append]
  simp only [statementSpan, htake, hdrop, hlineStart, hlineText, bytesToLineEnd, bytesOfLineEnd]

/-! ## Cutting out the line of a statement -/

/-- A line end is no longer than the text that it begins. -/
theorem lineEndLength_le (text : List Char) : lineEndLength text ≤ byteLength text := by
  fun_cases lineEndLength text with
  | case1 rest =>
    rw [byteLength_pair]
    exact Nat.le_add_right _ _
  | case2 c rest =>
    rw [byteLength]
    exact Nat.le_add_right_of_le c.utf8Size_pos
  | case3 => exact Nat.le_refl _

/-- A text that begins with a line end is divided behind it. -/
theorem exists_ending {text : List Char} (h : ∀ c ∈ text.head?, isLineEnd c = true) :
    ∃ ending rest, text = ending ++ rest ∧ byteLength ending = lineEndLength text := by
  fun_cases lineEndLength text with
  | case1 rest => exact ⟨['\r', '\n'], rest, rfl, rfl⟩
  | case2 c rest =>
    have hsize := utf8Size_of_isLineEnd (h c rfl)
    exact ⟨[c], rest, rfl, by rw [byteLength, hsize]; rfl⟩
  | case3 => exact ⟨[], [], rfl, rfl⟩

/-- A text is divided at the next line end and behind it. -/
theorem exists_lineEnd (after : List Char) :
    ∃ tail ending rest, after = tail ++ (ending ++ rest) ∧ (∀ c ∈ tail, isLineEnd c = false) ∧
      (∀ c ∈ (ending ++ rest).head?, isLineEnd c = true) ∧
      byteLength tail = bytesToLineEnd after ∧ byteLength ending = bytesOfLineEnd after := by
  have hhead : ∀ c ∈ (after.dropWhile fun c => !isLineEnd c).head?, isLineEnd c = true := by
    intro c hc
    have hnot := List.head?_dropWhile_not (fun c => !isLineEnd c) after
    rw [Option.mem_def.1 hc] at hnot
    simpa using hnot
  obtain ⟨ending, rest, hending, hlength⟩ := exists_ending hhead
  refine ⟨after.takeWhile fun c => !isLineEnd c, ending, rest, ?_, ?_, ?_, rfl, hlength⟩
  · rw [← hending, List.takeWhile_append_dropWhile]
  · intro c hc
    simpa using List.all_eq_true.1 List.all_takeWhile c hc
  · rwa [← hending]

/-- A source without the line of a statement, or without the rest of that line. -/
structure Cut (source : List Char) (position : Nat) (kept gone rest : List Char) : Prop where
  /-- Behind the byte order mark, the source is what is kept before, what goes and what is left. -/
  body : afterBom source = kept ++ gone ++ rest
  /-- What goes is the span of the statement. -/
  span : statementSpan source position =
    ⟨byteLength (leadingBom source ++ kept), byteLength (leadingBom source ++ kept ++ gone)⟩
  /-- No line feed is taken from a carriage return. -/
  last : kept.getLast? ≠ some '\r'
  /-- Whole lines go, or what stands on a line up to its line end. -/
  lines : (kept = [] ∨ EndsWithLineEnd kept) ∨
    (∀ c ∈ gone, isLineEnd c = false) ∧ ∀ c ∈ rest.head?, isLineEnd c = true
  /-- Before the statement, only white space goes. -/
  earlier : ∀ before c after, afterBom source = before ++ c :: after → Text.isBlank c = false →
    byteLength (leadingBom source ++ before) < position → ∃ tail, kept = before ++ c :: tail

/-- No line feed is taken from a carriage return before a character that is none. -/
theorem ReturnsPaired.getLast?_ne {source kept : List Char} {c : Char} {more : List Char}
    (hpaired : ReturnsPaired source) (hbody : afterBom source = kept ++ c :: more)
    (hc : c ≠ '\n') : kept.getLast? ≠ some '\r' := by
  intro hlast
  have hsource : leadingBom source ++ kept ++ c :: more = source := by
    rw [List.append_assoc, ← hbody, leadingBom_append_afterBom]
  rw [← hsource] at hpaired
  have hhead := hpaired.head?_eq (by rw [List.getLast?_append, hlast]; rfl)
  exact hc (Option.some.inj hhead)

/-- What is not white space does not stand on a line that is white space. -/
theorem exists_append_cons_of_allBlank {closed line more before after : List Char} {c : Char}
    (h : closed ++ line ++ more = before ++ c :: after) (hblank : Text.AllBlank line)
    (hc : Text.isBlank c = false) (hlt : byteLength before < byteLength (closed ++ line)) :
    ∃ tail, closed = before ++ c :: tail := by
  obtain ⟨tail, htail⟩ := exists_eq_append_cons_of_byteLength_lt h hlt
  rcases Nat.lt_or_ge (byteLength before) (byteLength closed) with hbefore | hbehind
  · exact exists_eq_append_cons_of_byteLength_lt htail hbefore
  · -- Otherwise it is one of the characters of the line.
    obtain ⟨middle, rfl, rfl⟩ := exists_eq_append_of_byteLength_le htail hbehind
    have hwhite := hblank c (by simp)
    rw [hc] at hwhite
    cases hwhite

/-- The span of a statement that begins with something other than white space is cut out. -/
theorem exists_cut {source before after : List Char} {c : Char} (hpaired : ReturnsPaired source)
    (hbody : afterBom source = before ++ c :: after) (hc : Text.isBlank c = false) :
    ∃ kept gone rest,
      Cut source (byteLength (leadingBom source ++ before)) kept gone rest := by
  obtain ⟨closed, line, rfl, hline, hclosed, hspans⟩ :=
    exists_statementSpan (leadingBom source) before
  have hspan := hspans source (c :: after) rfl hbody
  obtain ⟨tail, ending, rest, hafter, htail, hrest, hto, hof⟩ := exists_lineEnd (c :: after)
  have hfeed : c ≠ '\n' := by
    rintro rfl
    exact absurd hc (by decide)
  by_cases hblank : Text.AllBlank line
  · -- The whole line goes, with its line end.
    refine ⟨closed, line ++ tail ++ ending, rest, ?_, ?_, ?_, .inl hclosed, ?_⟩
    · rw [hbody, hafter]
      simp only [List.append_assoc]
    · rw [hspan, if_pos hblank, ← hto, ← hof]
      simp only [byteLength_append]
      congr 1
      omega
    · -- The line does not begin with a line feed.
      cases line with
      | nil => exact hpaired.getLast?_ne (by rw [hbody, List.append_nil]) hfeed
      | cons d line =>
        refine hpaired.getLast?_ne (by rw [hbody, List.append_assoc]; rfl) ?_
        rintro rfl
        exact absurd (hline '\n' List.mem_cons_self) (by decide)
    · intro before d after' hbody' hd hlt
      rw [byteLength_append, byteLength_append (leadingBom source)] at hlt
      exact exists_append_cons_of_allBlank (hbody.symm.trans hbody') hblank hd (by omega)
  · -- The line is cut at the statement.
    refine ⟨closed ++ line, tail, ending ++ rest, ?_, ?_, ?_, .inr ⟨htail, hrest⟩, ?_⟩
    · rw [hbody, hafter]
      simp only [List.append_assoc]
    · rw [hspan, if_neg hblank, ← hto, ← byteLength_append]
    · exact hpaired.getLast?_ne hbody hfeed
    · intro before d after' hbody' _ hlt
      rw [byteLength_append, byteLength_append (leadingBom source)] at hlt
      exact exists_eq_append_cons_of_byteLength_lt (hbody.symm.trans hbody') (by omega)

/-! ## Statements before the cut -/

/-- A line end has two characters when it is a carriage return with a line feed behind it. -/
theorem lineEndLength_cons (c : Char) (text : List Char) :
    lineEndLength (c :: text) = if c = '\r' ∧ text.head? = some '\n' then 2 else 1 := by
  split
  · next hpair =>
    obtain ⟨rfl, hhead⟩ := hpair
    obtain ⟨rest, rfl⟩ := List.head?_eq_some_iff.1 hhead
    rfl
  · next hpair =>
    rw [lineEndLength]
    rintro rest rfl rfl
    exact hpair ⟨rfl, rfl⟩

/-- Where a line ends inside a text, the line end does not depend on what follows the text. -/
theorem lineEnd_append_of_lineEnd {text : List Char} (hend : ∃ c ∈ text, isLineEnd c = true)
    (hlast : text.getLast? ≠ some '\r') (more : List Char) :
    bytesToLineEnd (text ++ more) = bytesToLineEnd text ∧
      bytesOfLineEnd (text ++ more) = bytesOfLineEnd text := by
  induction text with
  | nil =>
    obtain ⟨c, hc, -⟩ := hend
    cases hc
  | cons c text ih =>
    by_cases hc : isLineEnd c = true
    · -- The line ends here, and if with two characters, then the second is part of the text.
      have hlength : lineEndLength (c :: (text ++ more)) = lineEndLength (c :: text) := by
        rw [lineEndLength_cons, lineEndLength_cons]
        cases text with
        | nil =>
          have hreturn : c ≠ '\r' := by simpa using hlast
          simp [hreturn]
        | cons d text => rfl
      simpa [bytesToLineEnd, bytesOfLineEnd, hc] using hlength
    · obtain ⟨d, hd, hdend⟩ := hend
      have hd : d ∈ text := by
        rcases List.mem_cons.1 hd with rfl | hd
        · exact absurd hdend hc
        · exact hd
      rw [List.getLast?_cons_of_ne_nil (List.ne_nil_of_mem hd)] at hlast
      simpa [bytesToLineEnd, bytesOfLineEnd, hc, byteLength] using ih ⟨d, hd, hdend⟩ hlast

/-- A text without line ends goes up to the line end behind it. -/
theorem lineEnd_append_of_not_lineEnd {text rest : List Char}
    (htext : ∀ c ∈ text, isLineEnd c = false) (hrest : ∀ c ∈ rest.head?, isLineEnd c = true) :
    bytesToLineEnd (text ++ rest) = byteLength text ∧
      bytesOfLineEnd (text ++ rest) = lineEndLength rest := by
  have hall : ∀ c ∈ text, (!isLineEnd c) = true := by
    intro c hc
    rw [htext c hc]
    rfl
  rw [bytesToLineEnd, bytesOfLineEnd, List.takeWhile_append_of_pos hall,
    List.dropWhile_append_of_pos hall]
  cases rest with
  | nil => simp
  | cons c rest => simp [hrest c rfl]

/-- The line end lies inside the text. -/
theorem lineEnd_le_byteLength (text : List Char) :
    bytesToLineEnd text + bytesOfLineEnd text ≤ byteLength text := by
  have hle := lineEndLength_le (text.dropWhile fun c => !isLineEnd c)
  have hparts := byteLength_append (text.takeWhile fun c => !isLineEnd c)
    (text.dropWhile fun c => !isLineEnd c)
  rw [List.takeWhile_append_dropWhile] at hparts
  rw [bytesToLineEnd, bytesOfLineEnd]
  omega

/-- Byte `p` of a text is byte `q` once the bytes from `start` up to `stop` are gone. -/
def Slides (start stop p q : Nat) : Prop :=
  p < start ∧ q = p ∨ stop ≤ p ∧ q + stop = p + start

/-- Where the bytes of the middle part are all gone and the others slide, the same text is left. -/
theorem keepFrom_slide {removed removed' : Nat → Prop} [DecidablePred removed]
    [DecidablePred removed'] {kept gone : List Char}
    (hgone : ∀ p, byteLength kept ≤ p → p < byteLength (kept ++ gone) → removed p)
    (hslide : ∀ p q, Slides (byteLength kept) (byteLength (kept ++ gone)) p q →
      (removed p ↔ removed' q)) (rest : List Char) :
    keepFrom removed 0 (kept ++ gone ++ rest) = keepFrom removed' 0 (kept ++ rest) := by
  -- What is kept stays where it is, and the rest moves to the place where the middle part began.
  have hkept : keepFrom removed 0 kept = keepFrom removed' 0 kept :=
    keepFrom_congr fun p _ hlt => hslide p p (.inl ⟨by omega, rfl⟩)
  have hmiddle : keepFrom removed (byteLength kept) gone = [] :=
    keepFrom_eq_nil fun p hle hlt => hgone p hle (by rw [byteLength_append]; exact hlt)
  have hrest : keepFrom removed (byteLength (kept ++ gone)) rest =
      keepFrom removed' (byteLength kept) rest :=
    keepFrom_shift fun i _ => hslide _ _ (.inr ⟨Nat.le_add_right _ _, by omega⟩)
  rw [keepFrom_append, keepFrom_append, keepFrom_append, Nat.zero_add, Nat.zero_add, hkept, hmiddle,
    hrest, List.append_nil]

namespace Cut

variable {source kept gone rest before tail : List Char} {position : Nat} {c : Char}
  (cut : Cut source position kept gone rest) (hkept : kept = before ++ c :: tail)
include cut hkept

/-- When something is kept before the cut, what is left has the same byte order mark, and behind it
comes what is kept and the rest. -/
theorem leadingBom_and_afterBom :
    leadingBom (leadingBom source ++ kept ++ rest) = leadingBom source ∧
      afterBom (leadingBom source ++ kept ++ rest) = kept ++ rest := by
  have hbody := cut.body
  rw [List.append_assoc]
  cases kept with
  | nil => simp at hkept
  | cons d kept => exact leadingBom_append_cons hbody (kept ++ rest)

/-- A line that goes on at a place before the cut ends before the cut, and then in the same way when
the cut is made, or else it ends at the cut. -/
theorem lineEnd_cases :
    bytesOfLineEnd (c :: tail ++ gone ++ rest) = bytesOfLineEnd (c :: tail ++ rest) ∧
      (bytesToLineEnd (c :: tail ++ gone ++ rest) = bytesToLineEnd (c :: tail ++ rest) ∧
        bytesToLineEnd (c :: tail ++ rest) + bytesOfLineEnd (c :: tail ++ rest) ≤
          byteLength (c :: tail) ∨
      bytesToLineEnd (c :: tail ++ gone ++ rest) = byteLength (c :: tail ++ gone) ∧
        bytesToLineEnd (c :: tail ++ rest) = byteLength (c :: tail)) := by
  have hlast : kept.getLast? = (c :: tail).getLast? := by
    rw [hkept, List.getLast?_append_of_ne_nil _ (List.cons_ne_nil c tail)]
  have hlines := cut.lines
  by_cases hend : ∃ d ∈ c :: tail, isLineEnd d = true
  · have hreturn : (c :: tail).getLast? ≠ some '\r' := hlast ▸ cut.last
    obtain ⟨hto, hof⟩ := lineEnd_append_of_lineEnd hend hreturn (gone ++ rest)
    obtain ⟨hto', hof'⟩ := lineEnd_append_of_lineEnd hend hreturn rest
    rw [List.append_assoc, hto, hof, hto', hof']
    exact ⟨rfl, .inl ⟨rfl, lineEnd_le_byteLength _⟩⟩
  · have htail : ∀ d ∈ c :: tail, isLineEnd d = false := by
      intro d hd
      exact Bool.eq_false_iff.2 fun hdend => hend ⟨d, hd, hdend⟩
    rcases hlines with (hnil | ⟨d, hd, hdend⟩) | ⟨hgone, hrest⟩
    · simp [hnil] at hkept
    · -- The cut is not made at the beginning of a line.
      rw [hlast] at hd
      exact absurd ⟨d, List.mem_of_getLast? hd, hdend⟩ hend
    · have hboth : ∀ d ∈ c :: tail ++ gone, isLineEnd d = false := by
        intro d hd
        rcases List.mem_append.1 hd with hd | hd
        · exact htail d hd
        · exact hgone d hd
      obtain ⟨hto, hof⟩ := lineEnd_append_of_not_lineEnd hboth hrest
      obtain ⟨hto', hof'⟩ := lineEnd_append_of_not_lineEnd htail hrest
      rw [hto, hof, hto', hof']
      exact ⟨rfl, .inr ⟨rfl, rfl⟩⟩

/-- The span of a statement before the cut loses what the cut takes out of it. -/
theorem covers_iff {p q : Nat}
    (h : Slides (byteLength (leadingBom source ++ kept))
      (byteLength (leadingBom source ++ kept ++ gone)) p q) :
    (statementSpan source (byteLength (leadingBom source ++ before))).Covers p ↔
      (statementSpan (leadingBom source ++ kept ++ rest)
        (byteLength (leadingBom source ++ before))).Covers q := by
  obtain ⟨hmark, hleft⟩ := cut.leadingBom_and_afterBom hkept
  obtain ⟨closed, line, hbefore, -, -, hspans⟩ :=
    exists_statementSpan (leadingBom source) before
  have hspan := hspans source (c :: tail ++ gone ++ rest) rfl
    (by rw [cut.body, hkept]; simp only [List.append_assoc])
  have hspan' := hspans _ (c :: tail ++ rest) hmark
    (by rw [hleft, hkept, List.append_assoc])
  have hcases := cut.lineEnd_cases hkept
  have hplace : byteLength (leadingBom source ++ kept) =
      byteLength (leadingBom source ++ before) + byteLength (c :: tail) := by
    rw [hkept, ← List.append_assoc, byteLength_append _ (c :: tail)]
  have hstart : byteLength (leadingBom source ++ closed) ≤
      byteLength (leadingBom source ++ before) := by
    rw [hbefore, ← List.append_assoc, byteLength_append _ line]
    exact Nat.le_add_right _ _
  rw [byteLength_append _ gone] at h hcases
  -- Both spans begin at the same byte, and their ends slide: this is arithmetic on `hcases`.
  rw [hspan, hspan']
  simp only [Slides, Span.Covers] at h ⊢
  split
  · dsimp only
    omega
  · dsimp only
    omega

end Cut

section Earlier

variable {source kept gone rest : List Char} {offset position : Nat}
  (cut : Cut source position kept gone rest)
  (hposition : bytePosition source offset = .ok position)
include cut

/-- What is left of a source without lone carriage returns has none. -/
theorem Cut.returnsPaired (hpaired : ReturnsPaired source) :
    ReturnsPaired (leadingBom source ++ kept ++ rest) := by
  have hsource : leadingBom source ++ kept ++ (gone ++ rest) = source := by
    rw [List.append_assoc, ← List.append_assoc kept, ← cut.body, leadingBom_append_afterBom]
  have hlast : (leadingBom source ++ kept).getLast? ≠ some '\r' := by
    intro hreturn
    have hclean : CleanCut (leadingBom source ++ kept) ['\n'] :=
      cleanCut_leadingBom_append_iff.2 fun hkept => absurd hkept cut.last
    exact hclean hreturn rfl
  rw [← hsource] at hpaired
  exact (hpaired.of_append_left hlast).append hpaired.of_append_right.of_append_right

include hposition

/-- A statement before the cut is where it was, and its span loses what the cut takes out of it. -/
theorem Cut.exists_place {other : Nat} (hother : PointsAtNonBlank source other)
    (hlt : other < offset) :
    PointsAtNonBlank (leadingBom source ++ kept ++ rest) other ∧
      ∃ place, bytePosition source other = .ok place ∧
        bytePosition (leadingBom source ++ kept ++ rest) other = .ok place ∧
        ∀ p q, Slides (byteLength (leadingBom source ++ kept))
            (byteLength (leadingBom source ++ kept ++ gone)) p q →
          ((statementSpan source place).Covers p ↔
            (statementSpan (leadingBom source ++ kept ++ rest) place).Covers q) := by
  obtain ⟨before, c, after, hbody, hc, rfl⟩ := pointsAtNonBlank_iff.1 hother
  have hplace := bytePosition_of_isBlank_eq_false hbody hc
  -- A smaller offset leads to an earlier place, and before the cut only white space goes.
  obtain ⟨tail, hkept⟩ :=
    cut.earlier before c after hbody hc (bytePosition_lt_of_lt hlt hplace hposition)
  obtain ⟨hmark, hleft⟩ := cut.leadingBom_and_afterBom hkept
  have hbody' : afterBom (leadingBom source ++ kept ++ rest) = before ++ c :: (tail ++ rest) := by
    rw [hleft, hkept, List.append_assoc]
    rfl
  have hplace' := bytePosition_of_isBlank_eq_false hbody' hc
  rw [hmark] at hplace'
  exact ⟨pointsAtNonBlank_iff.2 ⟨before, c, _, hbody', hc, rfl⟩, _, hplace, hplace',
    fun p q => cut.covers_iff hkept⟩

/-- Once a cut is made for the last statement, the other statements take away what they took away
together with it. -/
theorem Cut.removed_iff {others : List Nat}
    (hothers : ∀ other ∈ others, PointsAtNonBlank source other ∧ other < offset) {p q : Nat}
    (hslides : Slides (byteLength (leadingBom source ++ kept))
      (byteLength (leadingBom source ++ kept ++ gone)) p q) :
    Removed source (offset :: others) p ↔
      Removed (leadingBom source ++ kept ++ rest) others q := by
  rw [Source.removed_iff, Source.removed_iff]
  constructor
  · rintro ⟨other, hmem, place, hplace, hcovers⟩
    rcases List.mem_cons.1 hmem with rfl | hmem
    · -- The cut takes nothing away beside itself.
      cases hplace.symm.trans hposition
      rw [cut.span] at hcovers
      simp only [Span.Covers] at hcovers
      simp only [Slides] at hslides
      omega
    · obtain ⟨hpoints, hlt⟩ := hothers other hmem
      obtain ⟨-, place', hplace', hleft, hspans⟩ := cut.exists_place hposition hpoints hlt
      cases hplace.symm.trans hplace'
      exact ⟨other, hmem, place, hleft, (hspans p q hslides).1 hcovers⟩
  · rintro ⟨other, hmem, place, hplace, hcovers⟩
    obtain ⟨hpoints, hlt⟩ := hothers other hmem
    obtain ⟨-, place', hplace', hleft, hspans⟩ := cut.exists_place hposition hpoints hlt
    cases hplace.symm.trans hleft
    exact ⟨other, .tail _ hmem, place, hplace', (hspans p q hslides).2 hcovers⟩

/-- The text that is left when all statements go is left when the other statements go from what
the cut leaves. -/
theorem Cut.keepFrom_eq {others : List Nat}
    (hothers : ∀ other ∈ others, PointsAtNonBlank source other ∧ other < offset) :
    keepFrom (Removed source (offset :: others)) 0 source =
      keepFrom (Removed (leadingBom source ++ kept ++ rest) others) 0
        (leadingBom source ++ kept ++ rest) := by
  have hsource : leadingBom source ++ kept ++ gone ++ rest = source := by
    rw [List.append_assoc, List.append_assoc, ← List.append_assoc kept, ← cut.body,
      leadingBom_append_afterBom]
  have hgone : ∀ p, byteLength (leadingBom source ++ kept) ≤ p →
      p < byteLength (leadingBom source ++ kept ++ gone) → Removed source (offset :: others) p := by
    intro p hle hlt
    refine Source.removed_iff.2 ⟨offset, List.mem_cons_self, position, hposition, ?_⟩
    rw [cut.span]
    exact ⟨hle, hlt⟩
  have hslide := keepFrom_slide hgone (fun p q => cut.removed_iff hposition hothers) rest
  rwa [hsource] at hslide

end Earlier

/-! ## One statement after the other -/

/-- The last statement goes first. What is left still has the statements before it, and without
these it is the text that is left when all statements go at once. -/
theorem removeLines_last {source : String} {offset : Nat} {others : List Nat}
    (hpaired : ReturnsPaired source.toList) (hoffset : PointsAtNonBlank source.toList offset)
    (hothers : ∀ other ∈ others, PointsAtNonBlank source.toList other ∧ other < offset) :
    ∃ text, removeLines source [offset] = .ok text ∧ ReturnsPaired text.toList ∧
      (∀ other ∈ others, PointsAtNonBlank text.toList other) ∧
      ∀ output, removeLines text others = .ok output →
        removeLines source (offset :: others) = .ok output := by
  obtain ⟨before, c, after, hbody, hc, rfl⟩ := pointsAtNonBlank_iff.1 hoffset
  have hposition := bytePosition_of_isBlank_eq_false hbody hc
  obtain ⟨kept, gone, rest, cut⟩ := exists_cut hpaired hbody hc
  refine ⟨String.ofList (leadingBom source.toList ++ kept ++ rest), ?_, ?_, ?_, ?_⟩
  · -- No statement is left to go after the cut.
    refine removeLines_eq_ok_iff.2 ⟨?_, ?_⟩
    · simpa using ⟨_, hposition⟩
    · rw [cut.keepFrom_eq hposition (by simp), keepFrom_eq_self]
      simp [Removed]
  · rw [String.toList_ofList]
    exact cut.returnsPaired hpaired
  · intro other hother
    rw [String.toList_ofList]
    exact (cut.exists_place hposition (hothers other hother).1 (hothers other hother).2).1
  · intro output houtput
    rw [removeLines_eq_ok_iff, String.toList_ofList] at houtput
    rw [removeLines_eq_ok_iff, cut.keepFrom_eq hposition hothers]
    refine ⟨fun other hother => ?_, houtput.2⟩
    rcases List.mem_cons.1 hother with rfl | hother
    · exact ⟨_, hposition⟩
    · obtain ⟨place, hplace⟩ := (hothers other hother).1.exists_bytePosition
      exact ⟨place, hplace⟩

/-- Removes the statements at the given offsets one after the other, each from the text that the
one before it left. -/
def removeOneByOne (source : String) (offsets : List Nat) : Except TreeError String :=
  offsets.foldlM (fun text offset => removeLines text [offset]) source

/-- With the largest offset first, all steps succeed and end with the text that is left when all
statements go at once. -/
theorem removeOneByOne_of_descending {source : String} {offsets : List Nat}
    (hsorted : offsets.Pairwise (· > ·)) (hpaired : ReturnsPaired source.toList)
    (hoffsets : ∀ offset ∈ offsets, PointsAtNonBlank source.toList offset) :
    ∃ output, removeLines source offsets = .ok output ∧
      removeOneByOne source offsets = .ok output := by
  -- On the offsets; what one step leaves is the source of the next.
  induction offsets generalizing source with
  | nil =>
    refine ⟨source, removeLines_eq_ok_iff.2 ⟨by simp, ?_⟩, rfl⟩
    rw [keepFrom_eq_self, String.ofList_toList]
    simp [Removed]
  | cons offset offsets ih =>
    obtain ⟨hlater, hsorted⟩ := List.pairwise_cons.1 hsorted
    obtain ⟨text, htext, htextPaired, htextOffsets, hall⟩ :=
      removeLines_last hpaired (hoffsets offset List.mem_cons_self) fun other hother =>
        ⟨hoffsets other (List.mem_cons_of_mem _ hother), hlater other hother⟩
    obtain ⟨output, honce, hsteps⟩ := ih hsorted htextPaired htextOffsets
    refine ⟨output, hall output honce, ?_⟩
    rw [removeOneByOne, List.foldlM_cons, htext]
    exact hsteps

/-- The text that is left does not depend on the order of the offsets. -/
theorem removeLines_of_perm {source output : String} {offsets others : List Nat}
    (hperm : offsets.Perm others) (h : removeLines source offsets = .ok output) :
    removeLines source others = .ok output := by
  obtain ⟨hoffsets, rfl⟩ := removeLines_eq_ok_iff.1 h
  refine removeLines_eq_ok_iff.2 ⟨fun offset hoffset => ?_, ?_⟩
  · exact hoffsets offset (hperm.mem_iff.2 hoffset)
  · refine congrArg String.ofList (keepFrom_congr fun p _ _ => ?_)
    simp only [Removed, hperm.mem_iff]

/-- Where no carriage return stands alone and each offset leads to a character that is not white
space, removing all statements at once is the same as removing them one after the other from the
last to the first, and every step succeeds. -/
theorem removeLines_eq_removeOneByOne (source : String) (offsets : List Nat)
    (hpaired : ReturnsPaired source.toList) (hdistinct : offsets.Nodup)
    (hoffsets : ∀ offset ∈ offsets, PointsAtNonBlank source.toList offset) :
    ∃ output, removeLines source offsets = .ok output ∧
      removeOneByOne source (offsets.insertionSort (· ≥ ·)) = .ok output := by
  have hperm := List.perm_insertionSort (· ≥ ·) offsets
  -- The offsets are distinct, so the sorted list goes down strictly.
  have hsorted : (offsets.insertionSort (· ≥ ·)).Pairwise (· > ·) := by
    have hge := List.pairwise_insertionSort (· ≥ ·) offsets
    have hne := hperm.nodup_iff.2 hdistinct
    exact hge.imp₂ (fun a b hab hne => Nat.lt_of_le_of_ne hab (Ne.symm hne)) hne
  obtain ⟨output, honce, hsteps⟩ := removeOneByOne_of_descending hsorted hpaired
    fun offset hoffset => hoffsets offset (hperm.mem_iff.1 hoffset)
  exact ⟨output, removeLines_of_perm hperm honce, hsteps⟩

/-- A source with a byte order mark, a character of two units, line ends of two characters, two
statements on one line and one behind a tab. -/
def crowdedSource : String :=
  "\ufeff// 𝄞\r\n@import \"a\"; @import \"b\";\r\n\t@import \"c\";\nx"

theorem removeLines_eq_removeOneByOne_crowdedSource :
    ReturnsPaired crowdedSource.toList ∧ [19, 33, 6].Nodup ∧
      (∀ offset ∈ [19, 33, 6], PointsAtNonBlank crowdedSource.toList offset) ∧
      removeLines crowdedSource [19, 33, 6] = .ok "\ufeff// 𝄞\r\nx" ∧
      removeOneByOne crowdedSource ([19, 33, 6].insertionSort (· ≥ ·)) =
        .ok "\ufeff// 𝄞\r\nx" := by
  have hpaired : ReturnsPaired crowdedSource.toList := by decide +kernel
  have hoffsets : ∀ offset ∈ [19, 33, 6], PointsAtNonBlank crowdedSource.toList offset := by
    decide +kernel
  have hrun : removeLines crowdedSource [19, 33, 6] = .ok "\ufeff// 𝄞\r\nx" :=
    toOption_eq_some_iff.1 (by decide +kernel)
  obtain ⟨output, honce, hsteps⟩ :=
    removeLines_eq_removeOneByOne crowdedSource [19, 33, 6] hpaired (by decide) hoffsets
  obtain rfl := Except.ok.inj (honce.symm.trans hrun)
  exact ⟨hpaired, by decide, hoffsets, hrun, hsteps⟩

end ImportSweep.Source

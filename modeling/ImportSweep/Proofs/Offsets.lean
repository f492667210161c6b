import ImportSweep.Proofs.Fallible
import ImportSweep.Proofs.Lines

/-!
# Offsets of the normalised text

An offset counts UTF-16 units of the normalised text, and a place counts bytes of the source. The
scan that turns the one into the other passes over a prefix of the text by as many units as the
prefix has after folding, if the cut behind the prefix is clean (`byteOffsetFrom_append`). So it
finds the place before which the units have been counted (`bytePosition_eq_ok_iff_isPlace`), and no
place for an offset that is too large or lies between the two units of a character
(`byteOffsetFrom_eq_none_iff`).

A larger offset leads to a later place (`bytePosition_lt_of_lt`).
-/

namespace ImportSweep.Source

open ImportSweep.Tree

/-! ## Units of the normalised text -/

theorem unitSize_pos (c : Char) : 0 < unitSize c := by
  rw [unitSize]
  split <;> decide

theorem unitSize_le_two (c : Char) : unitSize c ≤ 2 := by
  rw [unitSize]
  split <;> decide

theorem units_append (a b : List Char) : units (a ++ b) = units a + units b := by
  induction a with
  | nil => simp [units]
  | cons c a ih =>
    rw [List.cons_append, units, units, ih]
    omega

/-- The character that stands for one that is not the first half of a line end. -/
def foldedChar (c : Char) : Char :=
  if c = '\r' then '\n' else c

theorem unitSize_foldedChar (c : Char) : unitSize (foldedChar c) = unitSize c := by
  rw [foldedChar]
  split
  · next hreturn =>
    rw [hreturn]
    rfl
  · rfl

/-- A character that is not the first half of a line end is folded by itself. -/
theorem foldLineEnds_cons {c : Char} {rest : List Char} (h : CleanCut [c] rest) :
    foldLineEnds (c :: rest) = foldedChar c :: foldLineEnds rest := by
  have hpair := cleanCut_singleton_iff.1 h
  rw [foldedChar]
  by_cases hreturn : c = '\r'
  · subst hreturn
    rw [foldLineEnds, if_pos rfl]
    exact fun rest' => hpair rest' rfl
  · rw [foldLineEnds, if_neg hreturn]
    · exact hpair
    · exact hreturn

theorem units_foldLineEnds_cons {c : Char} {rest : List Char} (h : CleanCut [c] rest) :
    units (foldLineEnds (c :: rest)) = unitSize c + units (foldLineEnds rest) := by
  rw [foldLineEnds_cons h, units, unitSize_foldedChar]

/-- A line end of two characters is one unit. -/
theorem units_foldLineEnds_pair (rest : List Char) :
    units (foldLineEnds ('\r' :: '\n' :: rest)) = units (foldLineEnds rest) + 1 := by
  rw [foldLineEnds, units, Nat.add_comm]
  rfl

theorem byteLength_pair (rest : List Char) :
    byteLength ('\r' :: '\n' :: rest) = 2 + byteLength rest := by
  rw [byteLength, byteLength, ← Nat.add_assoc]
  rfl

/-- A cut is clean as soon as it is clean with more text behind it. -/
theorem CleanCut.of_append_right {before after more : List Char}
    (h : CleanCut before (after ++ more)) : CleanCut before after := by
  intro hlast hhead
  refine h hlast ?_
  rw [List.head?_append, hhead]
  rfl

/-- A text is taken apart from the front, with a line end of two characters at once. -/
@[elab_as_elim]
theorem lineEnd_induction {motive : List Char → Prop} (nil : motive [])
    (pair : ∀ rest, motive rest → motive ('\r' :: '\n' :: rest))
    (char : ∀ c rest, CleanCut [c] rest → motive rest → motive (c :: rest)) (text : List Char) :
    motive text := by
  fun_induction foldLineEnds text with
  | case1 => exact nil
  | case2 rest ih => exact pair rest ih
  | case3 rest hpair ih =>
    exact char _ rest (cleanCut_singleton_iff.2 fun rest' _ => hpair rest') ih
  | case4 c rest hpair _ ih => exact char c rest (cleanCut_singleton_iff.2 hpair) ih

/-- At a clean cut the two parts are folded separately. -/
theorem foldLineEnds_append {before after : List Char} (hcut : CleanCut before after) :
    foldLineEnds (before ++ after) = foldLineEnds before ++ foldLineEnds after := by
  induction before using lineEnd_induction with
  | nil => rfl
  | pair rest ih =>
    rw [List.cons_append, List.cons_append, foldLineEnds, foldLineEnds, ih hcut.of_cons.of_cons,
      List.cons_append]
  | char c rest hfirst ih =>
    rw [List.cons_append, foldLineEnds_cons (hfirst.append_right hcut), foldLineEnds_cons hfirst,
      ih hcut.of_cons, List.cons_append]

/-! ## The scan for a place -/

/-- The scan passes over a character by its units. -/
theorem byteOffsetFrom_cons {c : Char} {rest : List Char} (h : CleanCut [c] rest)
    (position offset : Nat) :
    byteOffsetFrom position (unitSize c + offset) (c :: rest) =
      byteOffsetFrom (position + c.utf8Size) offset rest := by
  obtain ⟨size, hsize⟩ := Nat.exists_eq_add_of_lt (unitSize_pos c)
  have hsum : unitSize c + offset = size + offset + 1 := by omega
  have hleft : size + offset + 1 - unitSize c = offset := by omega
  rw [hsum, byteOffsetFrom, if_pos (by omega), hleft]
  exact cleanCut_singleton_iff.1 h

/-- Between the two units of a character there is no place. -/
theorem byteOffsetFrom_one_of_unitSize_eq_two {c : Char} (hsize : unitSize c = 2)
    (position : Nat) (rest : List Char) : byteOffsetFrom position 1 (c :: rest) = none := by
  have hreturn : c ≠ '\r' := by
    rintro rfl
    cases hsize
  rw [byteOffsetFrom, if_neg (by omega)]
  exact fun _ hc => absurd hc hreturn

/-- The scan passes over a prefix by the units that the prefix has after folding. -/
theorem byteOffsetFrom_append {before after : List Char} (hcut : CleanCut before after)
    (position offset : Nat) :
    byteOffsetFrom position (units (foldLineEnds before) + offset) (before ++ after) =
      byteOffsetFrom (position + byteLength before) offset after := by
  induction before using lineEnd_induction generalizing position with
  | nil => simp [foldLineEnds, units, byteLength]
  | pair rest ih =>
    -- Both characters of the line end are passed for one unit.
    rw [units_foldLineEnds_pair, byteLength_pair, Nat.add_right_comm, ← Nat.add_assoc,
      ← ih hcut.of_cons.of_cons]
    rfl
  | char c rest hfirst ih =>
    rw [units_foldLineEnds_cons hfirst, Nat.add_assoc, List.cons_append,
      byteOffsetFrom_cons (hfirst.append_right hcut), ih hcut.of_cons, byteLength, Nat.add_assoc]

/-- Where the scan ends there is a clean cut, and the units before it have been counted. -/
theorem byteOffsetFrom_eq_some {position offset reached : Nat} {text : List Char}
    (h : byteOffsetFrom position offset text = some reached) :
    ∃ before after, text = before ++ after ∧ reached = position + byteLength before ∧
      CleanCut before after ∧ units (foldLineEnds before) = offset := by
  fun_induction byteOffsetFrom position offset text with
  | case1 position =>
    cases h
    exact ⟨[], _, rfl, rfl, .nil _, rfl⟩
  | case2 => cases h
  | case3 position offset rest ih =>
    obtain ⟨before, after, rfl, hreached, hcut, hunits⟩ := ih h
    refine ⟨'\r' :: '\n' :: before, after, rfl, ?_, ?_, ?_⟩
    · rw [hreached, byteLength_pair, Nat.add_assoc]
    · -- Both halves of the line end are passed at once.
      refine cleanCut_cons_cons_iff.2 (hcut.cons ?_)
      simp [CleanCut]
    · rw [units_foldLineEnds_pair, hunits]
  | case4 position offset c rest hpair hfits ih =>
    obtain ⟨before, after, rfl, hreached, hcut, hunits⟩ := ih h
    have hfirst : CleanCut [c] (before ++ after) := cleanCut_singleton_iff.2 hpair
    refine ⟨c :: before, after, rfl, ?_, hcut.cons hfirst, ?_⟩
    · rw [hreached, byteLength, Nat.add_assoc]
    · rw [units_foldLineEnds_cons hfirst.of_append_right, hunits]
      omega
  | case5 => cases h

/-- The offset lies between the two units of a character. -/
def InsidePair (text : List Char) (offset : Nat) : Prop :=
  ∃ before c after, text = before ++ c :: after ∧ unitSize c = 2 ∧ offset = units before + 1

theorem not_insidePair_zero (text : List Char) : ¬ InsidePair text 0 := by
  rintro ⟨before, c, after, -, -, hoffset⟩
  cases hoffset

theorem insidePair_cons_iff {c : Char} {text : List Char} {offset : Nat} :
    InsidePair (c :: text) offset ↔
      unitSize c = 2 ∧ offset = 1 ∨ ∃ later, offset = unitSize c + later ∧ InsidePair text later := by
  constructor
  · rintro ⟨before, d, after, htext, hsize, hoffset⟩
    cases before with
    | nil =>
      cases htext
      exact .inl ⟨hsize, hoffset⟩
    | cons e before =>
      cases htext
      refine .inr ⟨units before + 1, ?_, before, d, after, rfl, hsize, rfl⟩
      rw [hoffset, units, Nat.add_assoc]
  · rintro (⟨hsize, rfl⟩ | ⟨later, rfl, before, d, after, rfl, hsize, rfl⟩)
    · exact ⟨[], c, text, rfl, hsize, rfl⟩
    · exact ⟨c :: before, d, after, rfl, hsize, by rw [units, Nat.add_assoc]⟩

/-- No place is found exactly for an offset behind the end or between the two units of a
character. -/
theorem byteOffsetFrom_eq_none_iff {position offset : Nat} {text : List Char} :
    byteOffsetFrom position offset text = none ↔
      units (foldLineEnds text) < offset ∨ InsidePair (foldLineEnds text) offset := by
  induction text using lineEnd_induction generalizing position offset with
  | nil =>
    cases offset with
    | zero => simp [byteOffsetFrom, not_insidePair_zero]
    | succ offset => simp [byteOffsetFrom, foldLineEnds, units]
  | pair rest ih =>
    cases offset with
    | zero => simp [byteOffsetFrom, not_insidePair_zero]
    | succ offset =>
      have hpair : InsidePair (foldLineEnds ('\r' :: '\n' :: rest)) (offset + 1) ↔
          InsidePair (foldLineEnds rest) offset := by
        rw [foldLineEnds, insidePair_cons_iff, show unitSize '\n' = 1 from rfl]
        simp [Nat.add_comm 1]
      rw [byteOffsetFrom, ih, hpair, units_foldLineEnds_pair, Nat.add_lt_add_iff_right]
  | char c rest hfirst ih =>
    cases offset with
    | zero => simp [byteOffsetFrom, not_insidePair_zero]
    | succ offset =>
      have htwo := unitSize_le_two c
      rw [units_foldLineEnds_cons hfirst, foldLineEnds_cons hfirst, insidePair_cons_iff,
        unitSize_foldedChar]
      rcases Nat.lt_or_ge (offset + 1) (unitSize c) with hlt | hge
      · -- The offset is inside the character.
        have hsize : unitSize c = 2 := by omega
        obtain rfl : offset = 0 := by omega
        simp [byteOffsetFrom_one_of_unitSize_eq_two hsize, hsize]
      · obtain ⟨later, hlater⟩ := Nat.exists_eq_add_of_le hge
        have hbehind : ¬ (unitSize c = 2 ∧ unitSize c + later = 1) := by omega
        rw [hlater, byteOffsetFrom_cons hfirst, ih, or_iff_right hbehind]
        simp

/-! ## Places of offsets -/

/-- The place at which an offset lies: between two characters, behind the byte order mark and not
inside a line end, where the normalised text before it has as many units as the offset says. -/
structure IsPlace (source : List Char) (offset position : Nat) : Prop where
  /-- No character is cut. -/
  boundary : Boundary source position
  /-- The byte order mark comes before it. -/
  behindBom : byteLength (leadingBom source) ≤ position
  /-- No line end of two characters is cut. -/
  clean : CleanCut (takeBytes position source) (dropBytes position source)
  /-- The units before it are counted. -/
  counted : units (normalise (takeBytes position source)) = offset

/-- With another text behind the first character after the byte order mark, the mark is the same. -/
theorem leadingBom_append_cons {source more : List Char} {c : Char}
    (h : afterBom source = c :: more) (other : List Char) :
    leadingBom (leadingBom source ++ c :: other) = leadingBom source ∧
      afterBom (leadingBom source ++ c :: other) = c :: other := by
  cases source with
  | nil => cases h
  | cons d rest =>
    rw [afterBom] at h
    rw [leadingBom]
    split
    · simp [leadingBom, afterBom]
    · next hd =>
      rw [if_neg hd] at h
      cases h
      simp [leadingBom, afterBom, hd]

/-- What comes after the byte order mark is taken from a part of the source as from the source. -/
theorem afterBom_leadingBom_append {source before after : List Char}
    (h : afterBom source = before ++ after) : afterBom (leadingBom source ++ before) = before := by
  cases before with
  | nil =>
    cases source with
    | nil => rfl
    | cons c rest =>
      rw [leadingBom]
      split <;> rfl
  | cons c before => exact (leadingBom_append_cons h before).2

/-- The byte order mark is no half of a line end. -/
theorem cleanCut_leadingBom_append_iff {source before after : List Char} :
    CleanCut (leadingBom source ++ before) after ↔ CleanCut before after := by
  cases source with
  | nil => rfl
  | cons c rest =>
    rw [leadingBom]
    split
    · cases before with
      | nil => simp [CleanCut, bom]
      | cons d before => exact cleanCut_cons_cons_iff
    · rfl

/-- A place divides what comes after the byte order mark at a clean cut. -/
theorem isPlace_iff {source : List Char} {offset position : Nat} :
    IsPlace source offset position ↔ ∃ before after, afterBom source = before ++ after ∧
      position = byteLength (leadingBom source) + byteLength before ∧ CleanCut before after ∧
      units (foldLineEnds before) = offset := by
  have hsource := leadingBom_append_afterBom source
  -- What the two sides say of a division is the same.
  have hdivision : ∀ {before after : List Char}, afterBom source = before ++ after →
      takeBytes (byteLength (leadingBom source ++ before)) source = leadingBom source ++ before ∧
        dropBytes (byteLength (leadingBom source ++ before)) source = after := by
    intro before after hbody
    have hparts : source = leadingBom source ++ before ++ after := by
      rw [List.append_assoc, ← hbody, hsource]
    have htake := takeBytes_append (leadingBom source ++ before) after
    have hdrop := dropBytes_append (leadingBom source ++ before) after
    rw [← hparts] at htake hdrop
    exact ⟨htake, hdrop⟩
  constructor
  · rintro ⟨hboundary, hbehind, hclean, hcounted⟩
    obtain ⟨before, after, hbody, rfl⟩ : ∃ before after, afterBom source = before ++ after ∧
        position = byteLength (leadingBom source ++ before) := by
      rw [← hsource] at hboundary
      exact hboundary.exists_append hbehind
    obtain ⟨htake, hdrop⟩ := hdivision hbody
    rw [htake, hdrop, cleanCut_leadingBom_append_iff] at hclean
    rw [htake, normalise, afterBom_leadingBom_append hbody] at hcounted
    exact ⟨before, after, hbody, byteLength_append _ _, hclean, hcounted⟩
  · rintro ⟨before, after, hbody, rfl, hcut, rfl⟩
    obtain ⟨htake, hdrop⟩ := hdivision hbody
    rw [byteLength_append] at htake hdrop
    refine ⟨?_, Nat.le_add_right _ _, ?_, ?_⟩
    · exact ⟨leadingBom source ++ before, after, by rw [List.append_assoc, ← hbody, hsource],
        (byteLength_append _ _).symm⟩
    · rw [htake, hdrop, cleanCut_leadingBom_append_iff]
      exact hcut
    · rw [htake, normalise, afterBom_leadingBom_append hbody]

/-- The place of an offset is found from the end of the byte order mark on. -/
theorem bytePosition_eq_ok_iff {source : List Char} {offset position : Nat} :
    bytePosition source offset = .ok position ↔
      byteOffsetFrom (byteLength (leadingBom source)) offset (afterBom source) = some position := by
  rw [bytePosition]
  cases byteOffsetFrom (byteLength (leadingBom source)) offset (afterBom source) with
  | none => simp
  | some reached => simp

theorem bytePosition_eq_error_iff {source : List Char} {offset : Nat} :
    bytePosition source offset = .error (.offsetOutOfRange offset) ↔
      byteOffsetFrom (byteLength (leadingBom source)) offset (afterBom source) = none := by
  rw [bytePosition]
  cases byteOffsetFrom (byteLength (leadingBom source)) offset (afterBom source) with
  | none => simp
  | some reached => simp

/-- What is found for an offset is the place at which it lies. -/
theorem bytePosition_eq_ok_iff_isPlace {source : List Char} {offset position : Nat} :
    bytePosition source offset = .ok position ↔ IsPlace source offset position := by
  rw [bytePosition_eq_ok_iff, isPlace_iff]
  constructor
  · intro h
    obtain ⟨before, after, hbody, rfl, hcut, hunits⟩ := byteOffsetFrom_eq_some h
    exact ⟨before, after, hbody, rfl, hcut, hunits⟩
  · rintro ⟨before, after, hbody, rfl, hcut, rfl⟩
    have hfound := byteOffsetFrom_append hcut (byteLength (leadingBom source)) 0
    rw [Nat.add_zero, ← hbody] at hfound
    rw [hfound, byteOffsetFrom]

/-- Offsets lead to clean cuts of what comes after the byte order mark. -/
theorem bytePosition_eq_ok {source : List Char} {offset position : Nat}
    (h : bytePosition source offset = .ok position) :
    ∃ before after, afterBom source = before ++ after ∧
      position = byteLength (leadingBom source) + byteLength before ∧ CleanCut before after := by
  obtain ⟨before, after, hbody, hposition, hcut, -⟩ :=
    isPlace_iff.1 (bytePosition_eq_ok_iff_isPlace.1 h)
  exact ⟨before, after, hbody, hposition, hcut⟩

/-- A larger offset does not lie at an earlier place. -/
theorem IsPlace.le_of_le {source : List Char} {small large first second : Nat}
    (hfirst : IsPlace source small first) (hsecond : IsPlace source large second)
    (hle : first ≤ second) : small ≤ large := by
  obtain ⟨before, after, hbody, rfl, hcut, rfl⟩ := isPlace_iff.1 hfirst
  obtain ⟨before', after', hbody', rfl, -, rfl⟩ := isPlace_iff.1 hsecond
  -- The text before the later place continues the text before the earlier one.
  obtain ⟨middle, rfl, rfl⟩ :=
    exists_eq_append_of_byteLength_le (hbody.symm.trans hbody') (Nat.le_of_add_le_add_left hle)
  rw [foldLineEnds_append hcut.of_append_right, units_append]
  exact Nat.le_add_right _ _

/-- A larger offset leads to a later place. -/
theorem bytePosition_lt_of_lt {source : List Char} {small large first second : Nat}
    (hlt : small < large) (hfirst : bytePosition source small = .ok first)
    (hsecond : bytePosition source large = .ok second) : first < second := by
  by_contra hle
  have hfirst := bytePosition_eq_ok_iff_isPlace.1 hfirst
  have hsecond := bytePosition_eq_ok_iff_isPlace.1 hsecond
  exact Nat.not_lt.2 (hsecond.le_of_le hfirst (Nat.not_lt.1 hle)) hlt

/-- A larger offset does not lead to an earlier place. -/
theorem bytePosition_le_of_le {source : List Char} {small large first second : Nat}
    (hle : small ≤ large) (hfirst : bytePosition source small = .ok first)
    (hsecond : bytePosition source large = .ok second) : first ≤ second := by
  rcases Nat.lt_or_eq_of_le hle with hlt | rfl
  · exact Nat.le_of_lt (bytePosition_lt_of_lt hlt hfirst hsecond)
  · exact Nat.le_of_eq (Except.ok.inj (hfirst.symm.trans hsecond))

/-- To find the place of an offset is the inverse of normalising the text before a place and
counting its units. What is found is a place at which the offset lies, and there is no other. If
there is none, the offset is out of range, which it is behind the end of the normalised text and
between the two units of a character. A larger offset leads to a later place. -/
theorem bytePosition_inverts_normalise (source : List Char) (offset : Nat) :
    (∀ position, bytePosition source offset = .ok position ↔ IsPlace source offset position) ∧
      (∀ first second, IsPlace source offset first → IsPlace source offset second →
        first = second) ∧
      (bytePosition source offset = .error (.offsetOutOfRange offset) ↔
        ¬ ∃ position, IsPlace source offset position) ∧
      ((¬ ∃ position, IsPlace source offset position) ↔
        units (normalise source) < offset ∨ InsidePair (normalise source) offset) ∧
      ∀ larger first second, offset < larger → bytePosition source offset = .ok first →
        bytePosition source larger = .ok second → first < second := by
  have hnone : (¬ ∃ position, IsPlace source offset position) ↔
      byteOffsetFrom (byteLength (leadingBom source)) offset (afterBom source) = none := by
    simp only [← bytePosition_eq_ok_iff_isPlace, bytePosition_eq_ok_iff,
      Option.eq_none_iff_forall_ne_some, ne_eq, not_exists]
  refine ⟨fun position => bytePosition_eq_ok_iff_isPlace, ?_, ?_, ?_, ?_⟩
  · intro first second hfirst hsecond
    rw [← bytePosition_eq_ok_iff_isPlace] at hfirst hsecond
    exact Except.ok.inj (hfirst.symm.trans hsecond)
  · rw [hnone, bytePosition_eq_error_iff]
  · rw [hnone, byteOffsetFrom_eq_none_iff, normalise]
  · intro larger first second hlt
    exact bytePosition_lt_of_lt hlt

/-- A source with a byte order mark, a line end of two characters, a character of two units and a
carriage return that stands alone. -/
def pairSource : List Char :=
  "\ufeffa\r\n😀b\rc".toList

theorem bytePosition_inverts_normalise_pairSource :
    IsPlace pairSource 4 10 ∧ IsPlace pairSource 7 13 ∧ (10 : Nat) < 13 ∧
      bytePosition pairSource 3 = .error (.offsetOutOfRange 3) ∧
      bytePosition pairSource 8 = .error (.offsetOutOfRange 8) := by
  have hafter : bytePosition pairSource 4 = .ok 10 := toOption_eq_some_iff.1 (by decide +kernel)
  have hend : bytePosition pairSource 7 = .ok 13 := toOption_eq_some_iff.1 (by decide +kernel)
  obtain ⟨hplaces, -, -, -, hlater⟩ := bytePosition_inverts_normalise pairSource 4
  obtain ⟨hplaces', -⟩ := bytePosition_inverts_normalise pairSource 7
  obtain ⟨-, -, hinside, hwhere, -⟩ := bytePosition_inverts_normalise pairSource 3
  obtain ⟨-, -, hbehind, hwhere', -⟩ := bytePosition_inverts_normalise pairSource 8
  refine ⟨(hplaces 10).1 hafter, (hplaces' 13).1 hend, hlater 7 10 13 (by decide) hafter hend,
    hinside.2 (hwhere.2 (.inr ?_)), hbehind.2 (hwhere'.2 (.inl (by decide +kernel)))⟩
  exact ⟨['a', '\n'], '😀', ['b', '\n', 'c'], by decide +kernel, rfl, rfl⟩

end ImportSweep.Source

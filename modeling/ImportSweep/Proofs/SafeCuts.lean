import ImportSweep.Proofs.LineNumbers
import ImportSweep.Proofs.StepwiseRemoval
import ImportSweep.Proofs.Utf8

/-!
# Safe cuts

A removal cuts a source where its spans begin and end. Such a place is safe when it divides neither
a character nor a line end of two characters and leaves the byte order mark in front of it
(`SafeCut`). While the spans are cut out from the last to the first, the text gets shorter, but each
span still fits what is left when its turn comes (`fits_eraseSpans`).

A part of a text between two bytes need not exist: the bytes may be in the wrong order, inside a
character or behind the end. `slice?` says so, where `takeBytes` and `dropBytes` would go on with
some other text. The scans for the place of an offset, for the span of a statement and for the
number of a line are stated here a second time, with each part of the text that they look at as a
slice. They find what the plain scans find, and so no slice is missing.

## Main definitions

* `slice?`: the text from one byte up to another, if there is one;
* `bytePosition?`, `statementSpan?`, `lineOf?`: the scans with slices, the last one over bytes;
* `SafeCut`: the source may be cut at this byte.

## Main results

* `slice?_eq_some_iff`: which slices there are;
* `safeCut_statementSpan`: the span of a statement begins and ends at safe cuts;
* `bytePosition?_eq_some`, `statementSpan?_eq_some`, `lineOf?_eq_some`: no scan misses a slice;
* `fits_eraseSpans`: a span fits what is left when its turn comes.
-/

namespace ImportSweep.Source

open ImportSweep.Tree

/-! ## Slices -/

/-- The text before a byte and the text from it on. There is none if the byte lies inside a
character or behind the end. -/
def divide? : Nat → List Char → Option (List Char × List Char)
  | 0, text => some ([], text)
  | _ + 1, [] => none
  | position + 1, c :: rest =>
    if c.utf8Size ≤ position + 1 then
      (divide? (position + 1 - c.utf8Size) rest).map fun parts => (c :: parts.1, parts.2)
    else none

/-- The text from one byte up to another. There is none if the bytes are in the wrong order, inside
a character or behind the end. -/
def slice? (start stop : Nat) (text : List Char) : Option (List Char) :=
  (divide? stop text).bind fun parts => (divide? start parts.1).map Prod.snd

theorem divide?_append (before after : List Char) :
    divide? (byteLength before) (before ++ after) = some (before, after) := by
  induction before with
  | nil => cases after <;> rfl
  | cons c before ih =>
    -- Every character has a byte, so the recursion takes the step for a position that is not zero.
    have hc := c.utf8Size_pos
    obtain ⟨size, hsize⟩ : ∃ size, byteLength (c :: before) = size + 1 :=
      Nat.exists_eq_succ_of_ne_zero (by rw [byteLength]; omega)
    have hleft : size + 1 - c.utf8Size = byteLength before := by
      rw [← hsize, byteLength, Nat.add_sub_cancel_left]
    rw [hsize, List.cons_append, divide?, hleft, ih]
    rw [byteLength] at hsize
    rw [if_pos (by omega)]
    rfl

/-- A text is divided at its boundaries and nowhere else. -/
theorem divide?_eq_some_iff {position : Nat} {text before after : List Char} :
    divide? position text = some (before, after) ↔
      text = before ++ after ∧ position = byteLength before := by
  constructor
  · intro h
    fun_induction divide? position text generalizing before with
    | case1 text =>
      cases h
      exact ⟨rfl, rfl⟩
    | case2 => cases h
    | case3 position c rest hle ih =>
      obtain ⟨⟨first, second⟩, hparts, heq⟩ := Option.map_eq_some_iff.1 h
      cases heq
      obtain ⟨rfl, hlength⟩ := ih hparts
      refine ⟨rfl, ?_⟩
      rw [byteLength, ← hlength]
      omega
    | case4 => cases h
  · rintro ⟨rfl, rfl⟩
    exact divide?_append before after

/-- What a slice is, and that there is none elsewhere. -/
theorem slice?_eq_some_iff {start stop : Nat} {text part : List Char} :
    slice? start stop text = some part ↔
      ∃ before after, text = before ++ part ++ after ∧ start = byteLength before ∧
        stop = byteLength (before ++ part) := by
  constructor
  · intro h
    obtain ⟨⟨whole, after⟩, hwhole, h⟩ := Option.bind_eq_some_iff.1 h
    obtain ⟨⟨before, part'⟩, hpart, rfl⟩ := Option.map_eq_some_iff.1 h
    obtain ⟨rfl, rfl⟩ := divide?_eq_some_iff.1 hwhole
    obtain ⟨rfl, rfl⟩ := divide?_eq_some_iff.1 hpart
    exact ⟨before, after, rfl, rfl, rfl⟩
  · rintro ⟨before, after, rfl, rfl, rfl⟩
    rw [slice?, divide?_append, Option.bind_some, divide?_append]
    rfl

/-- Between two boundaries, a slice is what taking and dropping bytes gives. -/
theorem slice?_of_boundary {start stop : Nat} {text : List Char} (hstart : Boundary text start)
    (hstop : Boundary text stop) (hle : start ≤ stop) :
    slice? start stop text = some (dropBytes start (takeBytes stop text)) := by
  obtain ⟨before, part, after, rfl, rfl, rfl⟩ := hstart.split hstop hle
  rw [takeBytes_append, dropBytes_append, slice?_eq_some_iff]
  exact ⟨before, after, rfl, rfl, rfl⟩

/-- No boundary lies behind the end. -/
theorem Boundary.le_byteLength {text : List Char} {p : Nat} (h : Boundary text p) :
    p ≤ byteLength text := by
  obtain ⟨before, after, rfl, rfl⟩ := h
  rw [byteLength_append]
  exact Nat.le_add_right _ _

/-- The slice up to a boundary. -/
theorem slice?_zero {stop : Nat} {text : List Char} (h : Boundary text stop) :
    slice? 0 stop text = some (takeBytes stop text) := by
  obtain ⟨before, after, rfl, rfl⟩ := h
  rw [takeBytes_append, slice?_eq_some_iff]
  exact ⟨[], after, rfl, rfl, rfl⟩

/-- The slice from a boundary to the end. -/
theorem slice?_byteLength {start : Nat} {text : List Char} (h : Boundary text start) :
    slice? start (byteLength text) text = some (dropBytes start text) := by
  obtain ⟨before, after, rfl, rfl⟩ := h
  rw [dropBytes_append, slice?_eq_some_iff]
  exact ⟨before, [], (List.append_nil _).symm, rfl, rfl⟩

/-! ## Checked scans -/

/-- The byte of a source at which an offset lies, with the text after the byte order mark as a
slice. -/
def bytePosition? (source : List Char) (offset : Nat) : Option (Except TreeError Nat) :=
  let start := byteLength (leadingBom source)
  (slice? start (byteLength source) source).map fun body =>
    match byteOffsetFrom start offset body with
    | some position => .ok position
    | none => .error (.offsetOutOfRange offset)

/-- The span to remove for a statement, with all parts of the text as slices. -/
def statementSpan? (source : List Char) (position : Nat) : Option Span := do
  let before ← slice? 0 position source
  let lineStart := lastLineStart (byteLength (leadingBom source)) 0 before
  let line ← slice? lineStart position source
  let rest ← slice? position (byteLength source) source
  let toLineEnd := byteLength (rest.takeWhile fun c => !isLineEnd c)
  let ending ← slice? toLineEnd (byteLength rest) rest
  if Text.AllBlank line then
    return ⟨lineStart, position + toLineEnd + lineEndLength ending⟩
  else return ⟨position, position + toLineEnd⟩

/-- The number of line ends among bytes, of which a carriage return before a line feed is none;
`after` are the bytes that follow. -/
def byteBreaks (after : List UInt8) : List UInt8 → Nat
  | [] => 0
  | b :: rest =>
    (if b = 10 ∨ b = 13 ∧ (rest ++ after).head? ≠ some 10 then 1 else 0) + byteBreaks after rest

/-- The line on which a byte of a source lies, counted over the bytes before it. There is none if
the source has fewer bytes. -/
def lineOf? (source : List Char) (position : Nat) : Option Nat :=
  let bytes := encodeChars source
  if position ≤ bytes.length then
    some (byteBreaks (bytes.drop position) (bytes.take position) + 1)
  else none

/-- The text after the byte order mark is always a slice. -/
theorem bytePosition?_eq_some (source : List Char) (offset : Nat) :
    bytePosition? source offset = some (bytePosition source offset) := by
  have hsource := leadingBom_append_afterBom source
  have hboundary : Boundary source (byteLength (leadingBom source)) :=
    ⟨leadingBom source, afterBom source, hsource.symm, rfl⟩
  have hbody : dropBytes (byteLength (leadingBom source)) source = afterBom source := by
    have hdrop := dropBytes_append (leadingBom source) (afterBom source)
    rwa [hsource] at hdrop
  rw [bytePosition?, slice?_byteLength hboundary, hbody, bytePosition]
  rfl

/-! ## Counting over bytes -/

theorem byteBreaks_append (after a b : List UInt8) :
    byteBreaks after (a ++ b) = byteBreaks (b ++ after) a + byteBreaks after b := by
  induction a with
  | nil => simp [byteBreaks]
  | cons x a ih =>
    rw [List.cons_append, byteBreaks, byteBreaks, ih, List.append_assoc, Nat.add_assoc]

/-- Bytes that belong to longer characters end no line. -/
theorem byteBreaks_eq_zero {after bytes : List UInt8} (h : ∀ b ∈ bytes, 0x80 ≤ b.toNat) :
    byteBreaks after bytes = 0 := by
  induction bytes with
  | nil => rfl
  | cons b bytes ih =>
    obtain ⟨hb, hbytes⟩ := List.forall_mem_cons.1 h
    have hother : ¬ (b = 10 ∨ b = 13 ∧ (bytes ++ after).head? ≠ some 10) := by
      rintro (rfl | ⟨rfl, -⟩) <;> exact absurd hb (by decide)
    rw [byteBreaks, if_neg hother, ih hbytes]

theorem length_encodeChars (text : List Char) : (encodeChars text).length = byteLength text := by
  induction text with
  | nil => rfl
  | cons c text ih =>
    rw [encodeChars_cons, List.length_append, String.length_utf8EncodeChar, ih, byteLength]

theorem encodeChars_append (a b : List Char) :
    encodeChars (a ++ b) = encodeChars a ++ encodeChars b :=
  List.flatMap_append

/-- A character is one byte, or all its bytes are beyond ASCII. -/
theorem utf8EncodeChar_cases (c : Char) :
    c.toNat < 0x80 ∧ String.utf8EncodeChar c = [UInt8.ofNat c.toNat] ∨
      0x80 ≤ c.toNat ∧ ∀ b ∈ String.utf8EncodeChar c, 0x80 ≤ b.toNat := by
  rcases Nat.lt_or_ge c.toNat 0x80 with hlt | hge
  · refine .inl ⟨hlt, ?_⟩
    unfold String.utf8EncodeChar
    rw [show c.val.toNat = c.toNat from rfl, if_pos (by omega)]
  · refine .inr ⟨hge, fun b hb => ?_⟩
    -- A smaller byte would be a character of its own, and there is no other than this one.
    by_contra hsmall
    have hmem : b ∈ Text.encode (String.singleton c) := by
      rw [encode_eq_encodeChars]
      simpa [encodeChars] using hb
    obtain ⟨d, hd, hvalue⟩ := Text.exists_mem_toList_of_mem_encode hmem (by omega)
    have hsame : d = c := by simpa using hd
    rw [hsame] at hvalue
    omega

theorem ofNat_toNat_eq_iff {c d : Char} (hc : c.toNat < 0x80) (hd : d.toNat < 0x80) :
    UInt8.ofNat c.toNat = UInt8.ofNat d.toNat ↔ c = d := by
  have hcsmall : c.toNat < 256 := by omega
  have hdsmall : d.toNat < 256 := by omega
  rw [← UInt8.toNat_inj, UInt8.toNat_ofNat_of_lt' hcsmall, UInt8.toNat_ofNat_of_lt' hdsmall,
    Char.toNat_inj]

/-- The first byte of a text is a line feed exactly when the first character is. -/
theorem head?_encodeChars_iff {text : List Char} :
    (encodeChars text).head? = some 10 ↔ text.head? = some '\n' := by
  cases text with
  | nil => simp [encodeChars]
  | cons c text =>
    rw [encodeChars_cons, List.head?_cons, Option.some.injEq]
    rcases utf8EncodeChar_cases c with ⟨hlt, hbytes⟩ | ⟨hge, hbytes⟩
    · rw [hbytes, List.singleton_append, List.head?_cons, Option.some.injEq]
      exact ofNat_toNat_eq_iff hlt (show '\n'.toNat < 0x80 by decide)
    · refine iff_of_false (fun hhead => ?_) (fun hc => ?_)
      · obtain ⟨b, more, hcons⟩ := List.exists_cons_of_length_pos (l := String.utf8EncodeChar c)
          (by rw [String.length_utf8EncodeChar]; exact c.utf8Size_pos)
        have hb := hbytes b (by rw [hcons]; exact List.mem_cons_self)
        rw [hcons, List.cons_append, List.head?_cons] at hhead
        cases Option.some.inj hhead
        exact absurd hb (by decide)
      · subst hc
        exact absurd hge (by decide)

/-- A character ends a line exactly when one of its bytes does. -/
theorem byteBreaks_utf8EncodeChar (c : Char) (rest : List Char) :
    byteBreaks (encodeChars rest) (String.utf8EncodeChar c) =
      if EndsLine c rest then 1 else 0 := by
  rcases utf8EncodeChar_cases c with ⟨hlt, hbytes⟩ | ⟨hge, hbytes⟩
  · have hfeed : UInt8.ofNat c.toNat = 10 ↔ c = '\n' :=
      ofNat_toNat_eq_iff hlt (show '\n'.toNat < 0x80 by decide)
    have hreturn : UInt8.ofNat c.toNat = 13 ↔ c = '\r' :=
      ofNat_toNat_eq_iff hlt (show '\r'.toNat < 0x80 by decide)
    rw [hbytes, byteBreaks, byteBreaks, Nat.add_zero, List.nil_append]
    refine if_congr ?_ rfl rfl
    rw [hfeed, hreturn, ne_eq, head?_encodeChars_iff, EndsLine]
  · have hends : ¬ EndsLine c rest := by
      rintro (rfl | ⟨rfl, -⟩) <;> exact absurd hge (by decide)
    rw [byteBreaks_eq_zero hbytes, if_neg hends]

/-- The line ends before a place are counted alike over characters and over bytes. -/
theorem byteBreaks_encodeChars (position : Nat) (before after : List Char) :
    byteBreaks (encodeChars after) (encodeChars before) =
      breaksBefore (position + byteLength before) position (before ++ after) := by
  induction before generalizing position with
  | nil => exact (breaksBefore_of_le (Nat.le_refl _) after).symm
  | cons c before ih =>
    have hc := c.utf8Size_pos
    rw [encodeChars_cons, byteBreaks_append, ← encodeChars_append, byteBreaks_utf8EncodeChar,
      ih (position + c.utf8Size), List.cons_append, breaksBefore_cons, byteLength, Nat.add_assoc]
    have hlt : position < position + (c.utf8Size + byteLength before) := by omega
    simp only [hlt, true_and]

/-- Up to a boundary, the line of a place is found over bytes as over characters. -/
theorem lineOf?_eq_some {source : List Char} {position : Nat} (h : Boundary source position) :
    lineOf? source position = some (lineOf source position) := by
  have hle := h.le_byteLength
  obtain ⟨before, after, rfl, rfl⟩ := h
  have hbytes := byteBreaks_encodeChars 0 before after
  rw [Nat.zero_add] at hbytes
  rw [← length_encodeChars (before ++ after)] at hle
  rw [lineOf?, if_pos hle, encodeChars_append, ← length_encodeChars before,
    List.drop_left, List.take_left, hbytes, length_encodeChars, lineOf]

/-! ## Safe cuts -/

/-- The source may be cut at this byte: neither a character nor a line end of two characters is
divided, and the byte order mark stays before the cut. -/
structure SafeCut (source : List Char) (position : Nat) : Prop where
  /-- No character is divided. -/
  boundary : Boundary source position
  /-- The byte order mark comes before it. -/
  behindBom : byteLength (leadingBom source) ≤ position
  /-- No carriage return is cut off from its line feed. -/
  clean : CleanCut (takeBytes position source) (dropBytes position source)

theorem IsPlace.safeCut {source : List Char} {offset position : Nat}
    (h : IsPlace source offset position) : SafeCut source position :=
  ⟨h.boundary, h.behindBom, h.clean⟩

/-- A clean cut of what comes after the byte order mark is safe. -/
theorem safeCut_of_cleanCut {source before after : List Char}
    (hbody : afterBom source = before ++ after) (hcut : CleanCut before after) :
    SafeCut source (byteLength (leadingBom source ++ before)) := by
  have hplace : IsPlace source (units (foldLineEnds before))
      (byteLength (leadingBom source ++ before)) :=
    isPlace_iff.2 ⟨before, after, hbody, byteLength_append _ _, hcut, rfl⟩
  exact hplace.safeCut

/-- Nothing is cut off from a character that does not end a line. -/
theorem cleanCut_of_isLineEnd_eq_false {before after : List Char} {c : Char}
    (hc : isLineEnd c = false) : CleanCut before (c :: after) := by
  rintro - hhead
  cases Option.some.inj hhead
  exact absurd hc (by decide)

/-- The line of a place begins behind the last line end before it. -/
theorem exists_lineStart {source before after : List Char}
    (hbody : afterBom source = before ++ after) :
    ∃ closed line, before = closed ++ line ∧ (∀ c ∈ line, isLineEnd c = false) ∧
      lastLineStart (byteLength (leadingBom source)) 0
          (takeBytes (byteLength (leadingBom source ++ before)) source) =
        byteLength (leadingBom source ++ closed) := by
  obtain ⟨closed, line, hbefore, hstart, hline, -⟩ :=
    exists_lastLineStart (byteLength (leadingBom source)) [] (by simp) before
  have htake := takeBytes_append (leadingBom source ++ before) after
  rw [List.append_assoc, ← hbody, leadingBom_append_afterBom] at htake
  refine ⟨closed, line, hbefore, hline, ?_⟩
  rw [htake, lastLineStart_leadingBom, byteLength_append]
  exact hstart

/-- Where the line of a statement begins there is a safe cut. -/
theorem safeCut_lineStart {source : List Char} {offset position : Nat}
    (h : bytePosition source offset = .ok position) :
    SafeCut source (lastLineStart (byteLength (leadingBom source)) 0 (takeBytes position source)) ∧
      lastLineStart (byteLength (leadingBom source)) 0 (takeBytes position source) ≤ position := by
  obtain ⟨before, after, hbody, hposition, hcut⟩ := bytePosition_eq_ok h
  rw [← byteLength_append] at hposition
  subst hposition
  obtain ⟨closed, line, rfl, hline, hstart⟩ := exists_lineStart hbody
  rw [hstart]
  constructor
  · -- The line goes on with a character that ends no line, or the statement is all of it.
    have hclean : CleanCut closed (line ++ after) := by
      cases line with
      | nil => rwa [List.append_nil] at hcut
      | cons c line => exact cleanCut_of_isLineEnd_eq_false (hline c List.mem_cons_self)
    exact safeCut_of_cleanCut (by rw [hbody, List.append_assoc]) hclean
  · rw [← List.append_assoc, byteLength_append _ line]
    exact Nat.le_add_right _ _

/-- A cut behind a text is clean whatever comes before the text, if only the end of all follows an
empty one. -/
theorem CleanCut.append_left {text after : List Char} (h : CleanCut text after)
    (hnil : text = [] → after = []) (before : List Char) : CleanCut (before ++ text) after := by
  intro hlast
  cases text with
  | nil =>
    rw [hnil rfl]
    simp
  | cons c text =>
    rw [List.getLast?_append_of_ne_nil _ (List.cons_ne_nil c text)] at hlast
    exact h hlast

/-- Behind a line end there is a clean cut. -/
theorem cleanCut_ending {text ending rest : List Char} (htext : text = ending ++ rest)
    (hhead : ∀ c ∈ text.head?, isLineEnd c = true)
    (hlength : byteLength ending = lineEndLength text) :
    CleanCut ending rest ∧ (ending = [] → rest = []) := by
  -- By the form of the line end: a pair, one character, or the end of the text.
  fun_cases lineEndLength text with
  | case1 more =>
    have hparts : ['\r', '\n'] ++ more = ending ++ rest := htext
    obtain ⟨rfl, rfl⟩ := append_inj_of_byteLength_eq hparts hlength.symm
    simp [CleanCut]
  | case2 c more hpair =>
    have hsize := utf8Size_of_isLineEnd (hhead c rfl)
    have hone : lineEndLength (c :: more) = 1 := by
      rw [lineEndLength]
      exact hpair
    have hparts : [c] ++ more = ending ++ rest := htext
    obtain ⟨rfl, rfl⟩ := append_inj_of_byteLength_eq hparts
      (by rw [hlength, hone, byteLength, hsize]; rfl)
    exact ⟨cleanCut_singleton_iff.2 hpair, fun h => absurd h (List.cons_ne_nil _ _)⟩
  | case3 =>
    obtain ⟨rfl, rfl⟩ := List.append_eq_nil_iff.1 htext.symm
    exact ⟨.nil [], fun _ => rfl⟩

/-- Up to the next line end and behind it, cuts are clean. -/
theorem exists_cleanEnding {before after : List Char} (hcut : CleanCut before after) :
    ∃ tail ending rest, after = tail ++ (ending ++ rest) ∧
      byteLength tail = bytesToLineEnd after ∧ byteLength ending = bytesOfLineEnd after ∧
      CleanCut (before ++ tail) (ending ++ rest) ∧ CleanCut (before ++ tail ++ ending) rest := by
  obtain ⟨tail, ending, rest, rfl, htail, hhead, hto, hof⟩ := exists_lineEnd after
  have hdrop : (tail ++ (ending ++ rest)).dropWhile (fun c => !isLineEnd c) = ending ++ rest := by
    have hparts := List.takeWhile_append_dropWhile (p := fun c => !isLineEnd c)
      (l := tail ++ (ending ++ rest))
    exact (append_inj_of_byteLength_eq hparts hto.symm).2
  rw [bytesOfLineEnd, hdrop] at hof
  obtain ⟨hending, hnil⟩ := cleanCut_ending rfl hhead hof
  refine ⟨tail, ending, rest, rfl, hto, by rw [bytesOfLineEnd, hdrop, hof], ?_,
    hending.append_left hnil _⟩
  intro hlast
  cases tail with
  | nil => exact hcut (by rwa [List.append_nil] at hlast)
  | cons c tail =>
    -- The last character before the line end is no carriage return.
    rw [List.getLast?_append_of_ne_nil _ (List.cons_ne_nil c tail)] at hlast
    exact absurd (htail _ (List.mem_of_getLast? hlast)) (by decide)

/-- Where the line of a statement ends, and behind its line end, there are safe cuts. -/
theorem safeCut_lineEnd {source : List Char} {offset position : Nat}
    (h : bytePosition source offset = .ok position) :
    SafeCut source (position + bytesToLineEnd (dropBytes position source)) ∧
      SafeCut source (position + bytesToLineEnd (dropBytes position source) +
        bytesOfLineEnd (dropBytes position source)) := by
  obtain ⟨before, after, hbody, hposition, hcut⟩ := bytePosition_eq_ok h
  rw [← byteLength_append] at hposition
  subst hposition
  have hdrop := dropBytes_append (leadingBom source ++ before) after
  rw [List.append_assoc, ← hbody, leadingBom_append_afterBom] at hdrop
  obtain ⟨tail, ending, rest, rfl, hto, hof, hstop, hnext⟩ := exists_cleanEnding hcut
  -- Both places are now lengths of what stands before them.
  rw [hdrop, ← hto, ← hof, ← byteLength_append, ← byteLength_append, List.append_assoc,
    List.append_assoc]
  constructor
  · exact safeCut_of_cleanCut (by rw [hbody, List.append_assoc]) hstop
  · exact safeCut_of_cleanCut (by simp only [hbody, List.append_assoc]) hnext

/-- The span of a statement begins and ends at safe cuts. -/
theorem safeCut_statementSpan {source : List Char} {offset position : Nat}
    (h : bytePosition source offset = .ok position) :
    SafeCut source (statementSpan source position).start ∧
      SafeCut source (statementSpan source position).stop := by
  have hplace := bytePosition_eq_ok_iff_isPlace.1 h
  rw [statementSpan]
  split
  · exact ⟨(safeCut_lineStart h).1, (safeCut_lineEnd h).2⟩
  · exact ⟨hplace.safeCut, (safeCut_lineEnd h).1⟩

/-- All parts of the text that the span of a statement is found from are slices. -/
theorem statementSpan?_eq_some {source : List Char} {offset position : Nat}
    (h : bytePosition source offset = .ok position) :
    statementSpan? source position = some (statementSpan source position) := by
  have hposition := (bytePosition_eq_ok_iff_isPlace.1 h).boundary
  obtain ⟨hlineStart, hle⟩ := safeCut_lineStart h
  have hending (rest : List Char) :
      slice? (byteLength (rest.takeWhile fun c => !isLineEnd c)) (byteLength rest) rest =
        some (rest.dropWhile fun c => !isLineEnd c) := by
    refine slice?_eq_some_iff.2 ⟨rest.takeWhile fun c => !isLineEnd c, [], ?_, rfl, ?_⟩
    · rw [List.append_nil, List.takeWhile_append_dropWhile]
    · rw [List.takeWhile_append_dropWhile]
  simp only [statementSpan?, slice?_zero hposition, slice?_byteLength hposition,
    slice?_of_boundary hlineStart.boundary hposition hle, hending, Option.bind_eq_bind,
    Option.bind_some, statementSpan]
  split <;> rfl

/-! ## Cuts from the last to the first -/

/-- While spans with gaps between them are cut out from the last to the first, the next one still
fits what is left. -/
theorem fits_eraseSpans {text : List Char} {span : Span} {later : List Span}
    (hfits : ∀ other ∈ span :: later, other.Fits text)
    (hapart : (span :: later).Pairwise fun a b => a.stop < b.start) :
    span.Fits (eraseSpans later text) := by
  obtain ⟨hspan, hlater⟩ := List.pairwise_cons.1 hapart
  have hfit := hfits span List.mem_cons_self
  rw [eraseSpans_eq_keepFrom (fun other hother => hfits other (.tail _ hother)) hlater]
  obtain ⟨before, middle, after, rfl, hstart, hstop⟩ := hfit.start.split hfit.stop hfit.le
  -- Up to the end of the span nothing has changed.
  have hkept : keepFrom (Covered later) 0 (before ++ middle) = before ++ middle := by
    refine keepFrom_eq_self fun p _ hp => ?_
    rintro ⟨other, hother, hcovers, -⟩
    have := hspan other hother
    omega
  rw [keepFrom_append, hkept]
  refine ⟨hfit.le, ?_, ?_⟩
  · rw [hstart]
    exact (boundary_append before middle).append _
  · rw [hstop]
    exact boundary_append (before ++ middle) _

/-- No cut is made at a bad place. For offsets that lie in the source, each span begins and ends at
safe cuts, and merging leaves spans in order with gaps between them that cover the same bytes. So
each span, when its turn comes, fits what the later ones have left of the text. On the way to the
spans and to the numbers of lines, every part of the text that is looked at is there. -/
theorem removeLines_cuts_safely (source : String) (offsets : List Nat)
    (haccepted : ∀ offset ∈ offsets, ∃ position,
      bytePosition source.toList offset = .ok position) :
    ∃ spans, removalSpans source.toList offsets = .ok spans ∧
      removeLines source offsets =
        .ok (String.ofList (eraseSpans (mergeSpans spans) source.toList)) ∧
      (∀ span ∈ spans, span.start ≤ span.stop ∧ span.stop ≤ byteLength source.toList ∧
        SafeCut source.toList span.start ∧ SafeCut source.toList span.stop) ∧
      (mergeSpans spans).Pairwise (fun a b => a.start < b.start ∧ a.stop < b.start) ∧
      (∀ p, Covered (mergeSpans spans) p ↔ Covered spans p) ∧
      (∀ earlier span later, mergeSpans spans = earlier ++ span :: later →
        span.stop ≤ byteLength (eraseSpans later source.toList) ∧
          span.Fits (eraseSpans later source.toList)) ∧
      (∀ offset, bytePosition? source.toList offset = some (bytePosition source.toList offset)) ∧
      ∀ offset ∈ offsets, ∀ position, bytePosition source.toList offset = .ok position →
        statementSpan? source.toList position = some (statementSpan source.toList position) ∧
          lineOf? source.toList position = some (lineOf source.toList position) := by
  obtain ⟨spans, hspans⟩ := exists_removalSpans_iff.2 haccepted
  have hfits : ∀ span ∈ spans, span.Fits source.toList :=
    fun span hspan => fits_of_mem_removalSpans hspans hspan
  have hmerged : ∀ span ∈ mergeSpans spans, span.Fits source.toList :=
    fun span hspan => .of_mem_mergeSpans hfits hspan
  refine ⟨spans, hspans, ?_, ?_, ?_, ?_, ?_, bytePosition?_eq_some source.toList, ?_⟩
  · rw [removeLines, hspans]
    rfl
  · intro span hspan
    obtain ⟨offset, -, position, hposition, rfl⟩ := (mem_removalSpans_iff hspans).1 hspan
    have hfit := hfits _ hspan
    exact ⟨hfit.le, hfit.stop.le_byteLength, safeCut_statementSpan hposition⟩
  · refine (mergeSpans_apart spans).imp_of_mem fun ha _ hlt => ⟨?_, hlt⟩
    exact Nat.lt_of_le_of_lt (hmerged _ ha).le hlt
  · exact fun p => covered_mergeSpans_iff fun span hspan => (hfits span hspan).le
  · -- The later spans have been cut out by then, and the earlier ones are still in the text.
    intro earlier span later hsplit
    have hapart := mergeSpans_apart spans
    rw [hsplit] at hapart hmerged
    have hfit : span.Fits (eraseSpans later source.toList) :=
      fits_eraseSpans (fun other hother => hmerged other (List.mem_append_right earlier hother))
        (List.pairwise_append.1 hapart).2.1
    exact ⟨hfit.stop.le_byteLength, hfit⟩
  · intro offset _ position hposition
    have hplace := bytePosition_eq_ok_iff_isPlace.1 hposition
    exact ⟨statementSpan?_eq_some hposition, lineOf?_eq_some hplace.boundary⟩

/-- The spans of three of the four statements overlap or touch, and they become one. The fourth is
cut out of what the others leave. -/
theorem removeLines_cuts_safely_crowdedSource :
    removalSpans crowdedSource.toList [19, 33, 6, 3] =
        .ok [⟨25, 37⟩, ⟨39, 53⟩, ⟨12, 39⟩, ⟨6, 10⟩] ∧
      mergeSpans [⟨25, 37⟩, ⟨39, 53⟩, ⟨12, 39⟩, ⟨6, 10⟩] = [⟨6, 10⟩, ⟨12, 53⟩] ∧
      SafeCut crowdedSource.toList 39 ∧
      (⟨6, 10⟩ : Span).Fits (eraseSpans [⟨12, 53⟩] crowdedSource.toList) ∧
      lineOf? crowdedSource.toList 40 = some 3 := by
  have hspans : removalSpans crowdedSource.toList [19, 33, 6, 3] =
      .ok [⟨25, 37⟩, ⟨39, 53⟩, ⟨12, 39⟩, ⟨6, 10⟩] := toOption_eq_some_iff.1 (by decide +kernel)
  have hmerge : mergeSpans [⟨25, 37⟩, ⟨39, 53⟩, ⟨12, 39⟩, ⟨6, 10⟩] = [⟨6, 10⟩, ⟨12, 53⟩] := by
    decide
  have hline : bytePosition crowdedSource.toList 33 = .ok 40 :=
    toOption_eq_some_iff.1 (by decide +kernel)
  obtain ⟨spans, hrun, -, hsafe, -, -, hsteps, -, hslices⟩ :=
    removeLines_cuts_safely crowdedSource [19, 33, 6, 3] (exists_removalSpans_iff.1 ⟨_, hspans⟩)
  obtain rfl := Except.ok.inj (hrun.symm.trans hspans)
  refine ⟨hspans, hmerge, (hsafe ⟨12, 39⟩ (by simp)).2.2.2, (hsteps [] _ _ hmerge).2, ?_⟩
  rw [(hslices 33 (by simp) 40 hline).2]
  decide +kernel

end ImportSweep.Source

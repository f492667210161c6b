import ImportSweep.Source.Removal
import ImportSweep.Text.Utf8

/-!
# Bytes of a text

A text is a list of characters and its places are numbers of bytes. `Boundary text p` says that a
character begins at byte `p`, or that the text ends there; at a boundary a text is cut in two
without harm (`takeBytes_append`, `dropBytes_append`).

`keepFrom` leaves out the characters that begin at certain bytes. Where these bytes make up whole
characters, that is the same as leaving out the bytes themselves (`encodeChars_keepFrom`).
-/

namespace ImportSweep.Source

/-! ## Lengths and cuts -/

theorem byteLength_append (a b : List Char) : byteLength (a ++ b) = byteLength a + byteLength b := by
  induction a with
  | nil => simp [byteLength]
  | cons c a ih =>
    rw [List.cons_append, byteLength, byteLength, ih]
    omega

theorem byteLength_eq_zero_iff {text : List Char} : byteLength text = 0 ↔ text = [] := by
  cases text with
  | nil => simp [byteLength]
  | cons c text =>
    have hc := c.utf8Size_pos
    simp only [byteLength, reduceCtorEq, iff_false]
    omega

/-- The first bytes of two texts, as many as the first text has. -/
theorem takeBytes_append (a b : List Char) : takeBytes (byteLength a) (a ++ b) = a := by
  induction a with
  | nil =>
    cases b with
    | nil => rfl
    | cons c b =>
      have hc := c.utf8Size_pos
      rw [List.nil_append, byteLength, takeBytes, if_neg (by omega)]
  | cons c a ih =>
    rw [List.cons_append, byteLength, takeBytes, if_pos (by omega), Nat.add_sub_cancel_left, ih]

/-- What comes after the bytes of the first text is the second. -/
theorem dropBytes_append (a b : List Char) : dropBytes (byteLength a) (a ++ b) = b := by
  induction a with
  | nil =>
    cases b with
    | nil => rfl
    | cons c b =>
      have hc := c.utf8Size_pos
      rw [List.nil_append, byteLength, dropBytes, if_neg (by omega)]
  | cons c a ih =>
    rw [List.cons_append, byteLength, dropBytes, if_pos (by omega), Nat.add_sub_cancel_left, ih]

/-- At this byte a character begins, or the text ends. -/
def Boundary (text : List Char) (position : Nat) : Prop :=
  ∃ before after, text = before ++ after ∧ position = byteLength before

/-- Where one text is joined to another there is a boundary. -/
theorem boundary_append (a b : List Char) : Boundary (a ++ b) (byteLength a) :=
  ⟨a, b, rfl, rfl⟩

/-- A boundary stays when the text is continued. -/
theorem Boundary.append {text : List Char} {p : Nat} (h : Boundary text p) (more : List Char) :
    Boundary (text ++ more) p := by
  obtain ⟨before, after, rfl, rfl⟩ := h
  exact ⟨before, after ++ more, by rw [List.append_assoc], rfl⟩

/-- Of two ways to cut a text, the one that cuts off more bytes cuts the rest of the other. -/
theorem exists_eq_append_of_byteLength_le {a b a' b' : List Char} (h : a ++ b = a' ++ b')
    (hle : byteLength a ≤ byteLength a') : ∃ middle, a' = a ++ middle ∧ b = middle ++ b' := by
  rcases List.append_eq_append_iff.1 h with ⟨middle, rfl, rfl⟩ | ⟨middle, rfl, rfl⟩
  · exact ⟨middle, rfl, rfl⟩
  · -- The second would cut off less, so there is nothing between the two.
    rw [byteLength_append] at hle
    have hmiddle : middle = [] := byteLength_eq_zero_iff.1 (by omega)
    subst hmiddle
    exact ⟨[], by simp, by simp⟩

/-- A text is cut in one way only after a number of bytes. -/
theorem append_inj_of_byteLength_eq {a b a' b' : List Char} (h : a ++ b = a' ++ b')
    (heq : byteLength a = byteLength a') : a = a' ∧ b = b' := by
  obtain ⟨middle, rfl, rfl⟩ := exists_eq_append_of_byteLength_le h (Nat.le_of_eq heq)
  rw [byteLength_append] at heq
  have hmiddle : middle = [] := byteLength_eq_zero_iff.1 (by omega)
  simp [hmiddle]

/-- A character that begins before the end of the first text is one of its characters. -/
theorem exists_eq_append_cons_of_byteLength_lt {a b before after : List Char} {c : Char}
    (h : a ++ b = before ++ c :: after) (hlt : byteLength before < byteLength a) :
    ∃ tail, a = before ++ c :: tail := by
  obtain ⟨middle, rfl, hmiddle⟩ := exists_eq_append_of_byteLength_le h.symm (Nat.le_of_lt hlt)
  cases middle with
  | nil =>
    rw [List.append_nil] at hlt
    exact absurd hlt (Nat.lt_irrefl _)
  | cons d tail =>
    obtain ⟨rfl, -⟩ := List.cons.inj hmiddle
    exact ⟨tail, rfl⟩

/-- A boundary that does not lie before the end of the first text cuts the second. -/
theorem Boundary.exists_append {a b : List Char} {p : Nat} (h : Boundary (a ++ b) p)
    (hle : byteLength a ≤ p) :
    ∃ middle after, b = middle ++ after ∧ p = byteLength (a ++ middle) := by
  obtain ⟨a', b', heq, rfl⟩ := h
  obtain ⟨middle, rfl, rfl⟩ := exists_eq_append_of_byteLength_le heq hle
  exact ⟨middle, b', rfl, rfl⟩

/-- Of two boundaries the first cuts the text before the second. -/
theorem Boundary.split {text : List Char} {p q : Nat} (hp : Boundary text p) (hq : Boundary text q)
    (h : p ≤ q) :
    ∃ before middle after, text = before ++ middle ++ after ∧ p = byteLength before ∧
      q = byteLength (before ++ middle) := by
  obtain ⟨a, b, rfl, rfl⟩ := hp
  obtain ⟨middle, after, rfl, rfl⟩ := hq.exists_append h
  exact ⟨a, middle, after, by rw [List.append_assoc], rfl, rfl⟩

/-- No boundary lies inside a character. -/
theorem Boundary.le_or_le {text before after : List Char} {c : Char} {p : Nat}
    (hp : Boundary text p) (htext : text = before ++ c :: after) :
    p ≤ byteLength before ∨ byteLength before + c.utf8Size ≤ p := by
  obtain ⟨a, b, rfl, rfl⟩ := hp
  rcases List.append_eq_append_iff.1 htext with ⟨middle, rfl, -⟩ | ⟨middle, rfl, hmiddle⟩
  · left
    rw [byteLength_append]
    omega
  · -- The cut comes later, so the character is before it as a whole.
    cases middle with
    | nil => exact .inl (Nat.le_of_eq (by rw [List.append_nil]))
    | cons d middle =>
      obtain ⟨rfl, -⟩ := List.cons.inj hmiddle
      right
      rw [byteLength_append, byteLength]
      omega

/-! ## Leaving characters out -/

/-- The text without the characters that begin at removed bytes. The text begins at byte
`position`. -/
def keepFrom (removed : Nat → Prop) [DecidablePred removed] : Nat → List Char → List Char
  | _, [] => []
  | position, c :: rest =>
    if removed position then keepFrom removed (position + c.utf8Size) rest
    else c :: keepFrom removed (position + c.utf8Size) rest

section keepFrom

variable {removed removed' : Nat → Prop} [DecidablePred removed] [DecidablePred removed']

theorem keepFrom_append (position : Nat) (a b : List Char) :
    keepFrom removed position (a ++ b) =
      keepFrom removed position a ++ keepFrom removed (position + byteLength a) b := by
  induction a generalizing position with
  | nil => rfl
  | cons c a ih =>
    rw [List.cons_append, keepFrom, keepFrom, byteLength, ih, Nat.add_assoc]
    split <;> rfl

/-- Only the bytes of the text matter, wherever it begins. -/
theorem keepFrom_shift {position position' : Nat} {text : List Char}
    (h : ∀ i < byteLength text, (removed (position + i) ↔ removed' (position' + i))) :
    keepFrom removed position text = keepFrom removed' position' text := by
  induction text generalizing position position' with
  | nil => rfl
  | cons c text ih =>
    have hc := c.utf8Size_pos
    rw [byteLength] at h
    have hfirst := h 0 (by omega)
    have hrest := ih fun i hi => by
      have := h (c.utf8Size + i) (by omega)
      rwa [← Nat.add_assoc, ← Nat.add_assoc] at this
    rw [Nat.add_zero, Nat.add_zero] at hfirst
    simp only [keepFrom, hrest, hfirst]

/-- Only the bytes of the text matter. -/
theorem keepFrom_congr {position : Nat} {text : List Char}
    (h : ∀ p, position ≤ p → p < position + byteLength text → (removed p ↔ removed' p)) :
    keepFrom removed position text = keepFrom removed' position text :=
  keepFrom_shift fun i hi => h (position + i) (by omega) (by omega)

/-- Where no byte is removed, the text stays. -/
theorem keepFrom_eq_self {position : Nat} {text : List Char}
    (h : ∀ p, position ≤ p → p < position + byteLength text → ¬ removed p) :
    keepFrom removed position text = text := by
  induction text generalizing position with
  | nil => rfl
  | cons c text ih =>
    have hc := c.utf8Size_pos
    rw [byteLength] at h
    rw [keepFrom, if_neg (h position (by omega) (by omega)),
      ih fun p hle hlt => h p (by omega) (by omega)]

/-- Where all bytes are removed, nothing stays. -/
theorem keepFrom_eq_nil {position : Nat} {text : List Char}
    (h : ∀ p, position ≤ p → p < position + byteLength text → removed p) :
    keepFrom removed position text = [] := by
  induction text generalizing position with
  | nil => rfl
  | cons c text ih =>
    have hc := c.utf8Size_pos
    rw [byteLength] at h
    rw [keepFrom, if_pos (h position (by omega) (by omega)),
      ih fun p hle hlt => h p (by omega) (by omega)]

end keepFrom

/-! ## The bytes themselves -/

/-- The bytes of a list of characters. -/
def encodeChars (text : List Char) : List UInt8 :=
  text.flatMap String.utf8EncodeChar

theorem encodeChars_cons (c : Char) (text : List Char) :
    encodeChars (c :: text) = String.utf8EncodeChar c ++ encodeChars text :=
  rfl

theorem byteArray_toList_loop (bytes : ByteArray) (i : Nat) (done : List UInt8) :
    ByteArray.toList.loop bytes i done = done.reverse ++ bytes.data.toList.drop i := by
  fun_induction ByteArray.toList.loop bytes i done with
  | case1 i done hlt ih =>
    have hi : i < bytes.data.toList.length := by simpa using hlt
    rw [ih, List.drop_eq_getElem_cons hi, List.reverse_cons, List.append_assoc]
    simp [ByteArray.get!, hlt]
  | case2 i done hge =>
    have hi : bytes.data.toList.length ≤ i := by simpa using hge
    rw [List.drop_eq_nil_of_le hi, List.append_nil]

/-- The bytes of a text are those of its characters. -/
theorem encode_eq_encodeChars (text : String) : Text.encode text = encodeChars text.toList := by
  rw [Text.encode, ByteArray.toList, byteArray_toList_loop, String.toUTF8_eq_toByteArray,
    ← String.utf8Encode_toList, List.utf8Encode, List.toList_data_toByteArray]
  rfl

/-- Leaving out characters is leaving out bytes, when each character goes as a whole. -/
theorem encodeChars_keepFrom {removed : Nat → Prop} [DecidablePred removed] (position : Nat)
    {text : List Char}
    (h : ∀ before c after, text = before ++ c :: after → ∀ i < c.utf8Size,
      (removed (position + byteLength before + i) ↔ removed (position + byteLength before))) :
    encodeChars (keepFrom removed position text) =
      (((encodeChars text).zipIdx position).filter fun b => ¬ removed b.2).map Prod.fst := by
  induction text generalizing position with
  | nil => rfl
  | cons c text ih =>
    have hlen := String.length_utf8EncodeChar c
    -- The characters after the first begin where its bytes end.
    have hrest := ih (position + c.utf8Size) fun before d after heq i hi => by
      have := h (c :: before) d after (by rw [heq, List.cons_append]) i hi
      rwa [byteLength, ← Nat.add_assoc] at this
    -- The bytes of the first character are all removed, or none is.
    have hfirst : ∀ b ∈ (String.utf8EncodeChar c).zipIdx position,
        (removed b.2 ↔ removed position) := by
      intro b hb
      obtain ⟨hle, hlt, -⟩ := List.mem_zipIdx hb
      have := h [] c text rfl (b.2 - position) (by omega)
      rw [byteLength, Nat.add_zero, Nat.add_sub_cancel' hle] at this
      exact this
    rw [encodeChars_cons, List.zipIdx_append, List.filter_append, List.map_append, hlen, keepFrom,
      ← hrest]
    by_cases hremoved : removed position
    · have hnone : ((String.utf8EncodeChar c).zipIdx position).filter
          (fun b => ¬ removed b.2) = [] := by
        rw [List.filter_eq_nil_iff]
        intro b hb
        simp [(hfirst b hb).2 hremoved]
      rw [if_pos hremoved, hnone]
      rfl
    · have hall : ((String.utf8EncodeChar c).zipIdx position).filter
          (fun b => ¬ removed b.2) = (String.utf8EncodeChar c).zipIdx position := by
        rw [List.filter_eq_self]
        intro b hb
        simp [mt (hfirst b hb).1 hremoved]
      rw [if_neg hremoved, hall, List.zipIdx_map_fst, encodeChars_cons]

end ImportSweep.Source

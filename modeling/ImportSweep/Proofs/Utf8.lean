import ImportSweep.Proofs.Bytes

/-!
# The bytes of a text stand for that text

Reading the bytes of a text gives its characters back, with no stray byte among them
(`pieces_encode`). So different texts have different bytes (`encode_inj`). A byte that could be a
character of ASCII is one (`exists_mem_toList_of_mem_encode`).

A first byte fixes how many bytes follow and which range the second one is in; all others add six
bits each.
-/

namespace ImportSweep.Text

open ImportSweep.Source (encodeChars encode_eq_encodeChars)

/-! ## Single bytes -/

/-- A byte that follows and is not the last of its character. -/
theorem piecesFrom_more {p : Pending} {x : Nat} (hdue : 1 < p.due) (hx : x < 64)
    (hlow : p.low ≤ x + 128) (hhigh : x + 128 ≤ p.high) (rest : List UInt8) :
    piecesFrom (some p) (UInt8.ofNat (x + 128) :: rest) =
      piecesFrom (some ⟨p.seen + 1, p.due - 1, p.bits * 64 + x, 0x80, 0xBF⟩) rest := by
  have hsmall : x + 128 < 256 := by omega
  have hbyte : (UInt8.ofNat (x + 128)).toNat = x + 128 := UInt8.toNat_ofNat_of_lt' hsmall
  have hnot : ¬ p.due ≤ 1 := by omega
  rw [piecesFrom, hbyte, feedByte]
  simp [hlow, hhigh, hnot]

/-- The last byte of a character. -/
theorem piecesFrom_last {p : Pending} {x : Nat} (hdue : p.due = 1) (hx : x < 64)
    (hlow : p.low ≤ x + 128) (hhigh : x + 128 ≤ p.high) (rest : List UInt8) :
    piecesFrom (some p) (UInt8.ofNat (x + 128) :: rest) =
      .char (Char.ofNat (p.bits * 64 + x)) :: piecesFrom none rest := by
  have hsmall : x + 128 < 256 := by omega
  have hbyte : (UInt8.ofNat (x + 128)).toNat = x + 128 := UInt8.toNat_ofNat_of_lt' hsmall
  rw [piecesFrom, hbyte, feedByte]
  simp [hlow, hhigh, hdue]

/-- The first of two bytes. -/
theorem piecesFrom_firstOfTwo {y : Nat} (hlow : 2 ≤ y) (hhigh : y < 32) (rest : List UInt8) :
    piecesFrom none (UInt8.ofNat (y + 192) :: rest) =
      piecesFrom (some ⟨1, 1, y, 0x80, 0xBF⟩) rest := by
  have hsmall : y + 192 < 256 := by omega
  have hbyte : (UInt8.ofNat (y + 192)).toNat = y + 192 := UInt8.toNat_ofNat_of_lt' hsmall
  have hbegin : beginPiece (y + 192) = (some ⟨1, 1, y, 0x80, 0xBF⟩, []) := by
    rw [beginPiece, if_neg (by omega), if_pos (by omega), Nat.add_sub_cancel]
  rw [piecesFrom, hbyte, feedByte, hbegin]
  rfl

/-- The first of three bytes. The second one is bounded so that no shorter form and no half of a
pair is written. -/
theorem piecesFrom_firstOfThree {y : Nat} (hy : y < 16) (rest : List UInt8) :
    piecesFrom none (UInt8.ofNat (y + 224) :: rest) =
      piecesFrom (some ⟨1, 2, y, if y = 0 then 0xA0 else 0x80, if y = 13 then 0x9F else 0xBF⟩)
        rest := by
  have hsmall : y + 224 < 256 := by omega
  have hbyte : (UInt8.ofNat (y + 224)).toNat = y + 224 := UInt8.toNat_ofNat_of_lt' hsmall
  have hbegin : ∀ y < 16, beginPiece (y + 224) =
      (some ⟨1, 2, y, if y = 0 then 0xA0 else 0x80, if y = 13 then 0x9F else 0xBF⟩, []) := by
    decide
  rw [piecesFrom, hbyte, feedByte, hbegin y hy]
  rfl

/-- The first of four bytes. The second one is bounded so that no shorter form and nothing beyond
the last character is written. -/
theorem piecesFrom_firstOfFour {y : Nat} (hy : y < 5) (rest : List UInt8) :
    piecesFrom none (UInt8.ofNat (y + 240) :: rest) =
      piecesFrom (some ⟨1, 3, y, if y = 0 then 0x90 else 0x80, if y = 4 then 0x8F else 0xBF⟩)
        rest := by
  have hsmall : y + 240 < 256 := by omega
  have hbyte : (UInt8.ofNat (y + 240)).toNat = y + 240 := UInt8.toNat_ofNat_of_lt' hsmall
  have hbegin : ∀ y < 5, beginPiece (y + 240) =
      (some ⟨1, 3, y, if y = 0 then 0x90 else 0x80, if y = 4 then 0x8F else 0xBF⟩, []) := by
    decide
  rw [piecesFrom, hbyte, feedByte, hbegin y hy]
  rfl

/-! ## Characters and texts -/

/-- The bytes of a character are read as that character, whatever follows them. -/
theorem piecesFrom_utf8EncodeChar (c : Char) (rest : List UInt8) :
    piecesFrom none (String.utf8EncodeChar c ++ rest) = .char c :: piecesFrom none rest := by
  have hvalid : c.toNat < 0xD800 ∨ 0xDFFF < c.toNat ∧ c.toNat < 0x110000 := c.valid
  have hback : Char.ofNat c.toNat = c := Char.ofNat_toNat c
  unfold String.utf8EncodeChar
  simp only [show c.val.toNat = c.toNat from rfl]
  generalize c.toNat = v at hvalid hback
  split
  · next hone =>
    have hsmall : v < 256 := by omega
    have hbyte : (UInt8.ofNat v).toNat = v := UInt8.toNat_ofNat_of_lt' hsmall
    rw [List.singleton_append, piecesFrom, hbyte, feedByte, beginPiece, if_pos (by omega), hback]
    rfl
  split
  · next htwo =>
    have hbits : v / 64 % 32 * 64 + v % 64 = v := by omega
    rw [List.cons_append, piecesFrom_firstOfTwo (by omega) (by omega), List.singleton_append,
      piecesFrom_last rfl (by omega) (by simp) (by simp only; omega), hbits, hback]
  split
  · next hthree =>
    have hbits : (v / 4096 % 16 * 64 + v / 64 % 64) * 64 + v % 64 = v := by omega
    rw [List.cons_append, piecesFrom_firstOfThree (by omega), List.cons_append,
      piecesFrom_more (by simp) (by omega) (by simp only; split <;> omega)
        (by simp only; split <;> omega),
      List.singleton_append, piecesFrom_last rfl (by omega) (by simp) (by simp only; omega), hbits,
      hback]
  · next hfour =>
    have hbits : ((v / 262144 % 8 * 64 + v / 4096 % 64) * 64 + v / 64 % 64) * 64 + v % 64 = v := by
      omega
    rw [List.cons_append, piecesFrom_firstOfFour (by omega), List.cons_append,
      piecesFrom_more (by simp) (by omega) (by simp only; split <;> omega)
        (by simp only; split <;> omega),
      List.cons_append, piecesFrom_more (by simp) (by omega) (by simp) (by simp only; omega),
      List.singleton_append, piecesFrom_last rfl (by omega) (by simp) (by simp only; omega), hbits,
      hback]

theorem pieces_encodeChars (text : List Char) : pieces (encodeChars text) = text.map .char := by
  rw [pieces]
  induction text with
  | nil => rfl
  | cons c text ih =>
    rw [encodeChars, List.flatMap_cons, piecesFrom_utf8EncodeChar, ← encodeChars, ih, List.map_cons]

/-- The pieces of the bytes of a text are its characters. -/
theorem pieces_encode (text : String) : pieces (encode text) = text.toList.map .char := by
  rw [encode_eq_encodeChars, pieces_encodeChars]

/-- The bytes of a text are decoded to that text. -/
theorem decode?_encode (text : String) : decode? (encode text) = some text := by
  have hchars {f : Piece → Option Char} (hf : ∀ c, f (.char c) = some c) (chars : List Char) :
      (chars.map Piece.char).mapM f = some chars := by
    induction chars with
    | nil => rfl
    | cons c chars ih => simp [hf, ih]
  rw [decode?, pieces_encode, hchars fun _ => rfl, Option.map_some, String.ofList_toList]

/-- Different texts have different bytes. -/
theorem encode_inj {text other : String} : encode text = encode other ↔ text = other := by
  constructor
  · intro h
    have hdecode := decode?_encode text
    rw [h, decode?_encode other] at hdecode
    exact (Option.some.inj hdecode).symm
  · rintro rfl
    rfl

/-- A byte below `0x80` is a character by itself. -/
theorem exists_mem_toList_of_mem_encode {text : String} {b : UInt8} (hmem : b ∈ encode text)
    (hb : b.toNat < 0x80) : ∃ c ∈ text.toList, c.toNat = b.toNat := by
  rw [encode_eq_encodeChars, encodeChars, List.mem_flatMap] at hmem
  obtain ⟨c, hc, hmem⟩ := hmem
  have hvalid : c.toNat < 0xD800 ∨ 0xDFFF < c.toNat ∧ c.toNat < 0x110000 := c.valid
  -- All bytes of a longer character are at least `0x80`.
  have hlarge {n : Nat} (hlow : 0x80 ≤ n) (hhigh : n < 256) : b ≠ UInt8.ofNat n := by
    rintro rfl
    rw [UInt8.toNat_ofNat_of_lt' hhigh] at hb
    omega
  unfold String.utf8EncodeChar at hmem
  simp only [show c.val.toNat = c.toNat from rfl] at hmem
  split at hmem
  · next hone =>
    have hsmall : c.toNat < 256 := by omega
    rw [List.mem_singleton.1 hmem, UInt8.toNat_ofNat_of_lt' hsmall]
    exact ⟨c, hc, rfl⟩
  split at hmem
  · simp only [List.mem_cons, List.not_mem_nil, or_false] at hmem
    obtain hmem | hmem := hmem <;> exact absurd hmem (hlarge (by omega) (by omega))
  split at hmem
  · simp only [List.mem_cons, List.not_mem_nil, or_false] at hmem
    obtain hmem | hmem | hmem := hmem <;> exact absurd hmem (hlarge (by omega) (by omega))
  · simp only [List.mem_cons, List.not_mem_nil, or_false] at hmem
    obtain hmem | hmem | hmem | hmem := hmem <;> exact absurd hmem (hlarge (by omega) (by omega))

/-- The symbols of the bytes of a text are its characters. -/
theorem symbols_encode (text : String) : symbols (encode text) = text.toList.map some := by
  rw [symbols, pieces_encode, List.flatMap_map, List.map_eq_flatMap]

end ImportSweep.Text

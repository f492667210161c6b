import Mathlib.Data.Nat.Digits.Defs
import Mathlib.Tactic.IntervalCases
import ImportSweep.Json.Printer

/-!
# Written JSON reads back

Reading undoes writing, in either style: `parse_write` for a value whose numbers are whole numbers
below `2 ^ 64` and that is not nested too deep.

Reading has two machines, and there is one statement about each. `tokens_write` says which tokens
the lexer finds in a written value, whatever stands after it. `foldl_feed_tokens` says that the
assembly takes the tokens of a value as that value, whatever stands around it.
-/

namespace ImportSweep.Json

/-! ## Texts -/

/-- A quoted text without fault, its characters so far last first. -/
def TextReading.faultless (chars : List Char) : TextReading :=
  ⟨chars, none, false, .plain none⟩

theorem hexDigit?_hexChar (n : Nat) : TextReading.hexDigit? (hexChar n) = some (n % 16) := by
  have hall : ∀ d < 16, TextReading.hexDigit? (Nat.digitChar d) = some d := by decide
  exact hall (n % 16) (Nat.mod_lt _ (by omega))

theorem utf8Size_hexChar (n : Nat) : (hexChar n).utf8Size = 1 := by
  have hall : ∀ d < 16, (Nat.digitChar d).utf8Size = 1 := by decide
  exact hall (n % 16) (Nat.mod_lt _ (by omega))

/-- One of the first three digits of a four digit escape. -/
theorem tokens_hexChar (n bytes value : Nat) (hbytes : bytes < 3) (chars : List Char)
    (rest : List Symbol) :
    (Lexer.text ⟨chars, none, false, .hex none bytes (some value)⟩).tokens
        (some (hexChar n) :: rest)
      = (Lexer.text ⟨chars, none, false, .hex none (bytes + 1) (some (value * 16 + n % 16))⟩).tokens
          rest := by
  have hmore : bytes + 1 < 4 := by omega
  simp [Lexer.tokens, Lexer.feed, Lexer.feedText, TextReading.takeHex, symbolSize,
    hexDigit?_hexChar, utf8Size_hexChar, hmore]

/-- The last digit of a four digit escape, whose value is no half of a pair. -/
theorem tokens_hexChar_last (n value : Nat) (hvalue : value * 16 + n % 16 < 0xD800)
    (chars : List Char) (rest : List Symbol) :
    (Lexer.text ⟨chars, none, false, .hex none 3 (some value)⟩).tokens (some (hexChar n) :: rest)
      = (Lexer.text (.faultless (Char.ofNat (value * 16 + n % 16) :: chars))).tokens rest := by
  have htrailing : TextReading.isTrailing (value * 16 + n % 16) = false := by
    simp only [TextReading.isTrailing, Bool.and_eq_false_iff, decide_eq_false_iff_not]
    omega
  have hleading : TextReading.isLeading (value * 16 + n % 16) = false := by
    simp only [TextReading.isLeading, Bool.and_eq_false_iff, decide_eq_false_iff_not]
    omega
  simp [Lexer.tokens, Lexer.feed, Lexer.feedText, TextReading.takeHex, symbolSize,
    hexDigit?_hexChar, utf8Size_hexChar, TextReading.takeUnit, TextReading.push,
    TextReading.faultless, htrailing, hleading]

/-- The four digit escape of a control character is read as that character. -/
theorem tokens_unicodeEscape (c : Char) (hc : c.toNat < 0x20) (chars : List Char)
    (rest : List Symbol) :
    (Lexer.text (.faultless chars)).tokens
        (some '\\' :: some 'u' :: some (hexChar 0) :: some (hexChar 0) ::
          some (hexChar (c.toNat / 16)) :: some (hexChar c.toNat) :: rest)
      = (Lexer.text (.faultless (c :: chars))).tokens rest := by
  have hvalue : (((0 * 16 + 0 % 16) * 16 + 0 % 16) * 16 + c.toNat / 16 % 16) * 16 + c.toNat % 16
      = c.toNat := by omega
  calc _ = (Lexer.text ⟨chars, none, false, .hex none 0 (some 0)⟩).tokens _ := rfl
    _ = (Lexer.text (.faultless (Char.ofNat c.toNat :: chars))).tokens rest := by
      rw [tokens_hexChar _ _ _ (by omega), tokens_hexChar _ _ _ (by omega),
        tokens_hexChar _ _ _ (by omega), tokens_hexChar_last _ _ (by omega), hvalue]
    _ = _ := by rw [Char.ofNat_toNat]

/-- An escaped character is read as that character. -/
theorem tokens_escapeChar (c : Char) (chars : List Char) (rest : List Symbol) :
    (Lexer.text (.faultless chars)).tokens ((escapeChar c).map some ++ rest)
      = (Lexer.text (.faultless (c :: chars))).tokens rest := by
  unfold escapeChar
  -- the seven short escapes are read back by evaluation, the rest is told by the code point
  split
  case h_8 _ hquote hslash _ _ _ _ _ =>
    have hquote : c ≠ '"' := hquote
    have hslash : c ≠ '\\' := hslash
    split
    · rename_i hc
      exact tokens_unicodeEscape c hc chars rest
    · rename_i hc
      simp [Lexer.tokens, Lexer.feed, Lexer.feedText, TextReading.faultless, TextReading.takePlain,
        TextReading.push, hquote, hslash, hc]
  all_goals rfl

theorem tokens_escapeChars (text chars : List Char) (rest : List Symbol) :
    (Lexer.text (.faultless chars)).tokens ((text.flatMap escapeChar).map some ++ rest)
      = (Lexer.text (.faultless (text.reverse ++ chars))).tokens rest := by
  induction text generalizing chars with
  | nil => rfl
  | cons c text ih =>
    rw [List.flatMap_cons, List.map_append, List.append_assoc, tokens_escapeChar, ih,
      List.reverse_cons, List.append_assoc, List.singleton_append]

/-- A written text is one token. -/
theorem tokens_writeText (text : String) (rest : List Symbol) :
    Lexer.idle.tokens ((writeText text).map some ++ rest)
      = .text (.ok text) :: Lexer.idle.tokens rest := by
  have hend (chars : List Char) :
      (Lexer.text (.faultless chars)).tokens (some '"' :: rest)
        = .text (.ok (String.ofList chars.reverse)) :: Lexer.idle.tokens rest := rfl
  calc Lexer.idle.tokens ((writeText text).map some ++ rest)
      = (Lexer.text (.faultless [])).tokens
          ((text.toList.flatMap escapeChar).map some ++ some '"' :: rest) := by
        simp only [writeText, List.map_cons, List.map_append, List.map_nil, List.cons_append,
          List.append_assoc, List.nil_append]
        rfl
    _ = .text (.ok text) :: Lexer.idle.tokens rest := by
        rw [tokens_escapeChars, hend, List.append_nil, List.reverse_reverse, String.ofList_toList]

/-! ## Numbers -/

/-- The digits of a number as the lexer holds them, last first. -/
def digitsOf (n : Nat) : List Nat :=
  if n = 0 then [0] else Nat.digits 10 n

theorem digitsOf_of_lt {d : Nat} (hd : d < 10) : digitsOf d = [d] := by
  by_cases h : d = 0
  · rw [h]
    rfl
  · rw [digitsOf, if_neg h, Nat.digits_of_lt 10 d h hd]

theorem digitsOf_mul_add {n d : Nat} (hn : n ≠ 0) (hd : d < 10) :
    digitsOf (n * 10 + d) = d :: digitsOf n := by
  have hmod : (n * 10 + d) % 10 = d := by omega
  have hdiv : (n * 10 + d) / 10 = n := by omega
  rw [digitsOf, if_neg (by omega), Nat.digits_def' (by omega) (by omega), hmod, hdiv, digitsOf,
    if_neg hn]

/-- The reading of a numeral after the digits of a number. -/
def NumeralReading.ofNat (n : Nat) : NumeralReading :=
  ⟨⟨false, digitsOf n, none, none⟩, if n = 0 then .zero else .whole⟩

/-- The first digit begins a numeral. -/
theorem feedIdle_digitChar {d : Nat} (hd : d < 10) :
    Lexer.feedIdle (some (Nat.digitChar d)) = (.numeral (.ofNat d), []) := by
  rw [NumeralReading.ofNat, digitsOf_of_lt hd]
  interval_cases d <;> rfl

/-- A digit after a number other than zero. -/
theorem feedNumeral_digitChar {n d : Nat} (hn : n ≠ 0) (hd : d < 10) :
    Lexer.feedNumeral (.ofNat n) (some (Nat.digitChar d))
      = (.numeral (.ofNat (n * 10 + d)), []) := by
  have hdigit : ∀ d < 10, NumeralReading.digit? (some (Nat.digitChar d)) = some d := by decide
  simp [Lexer.feedNumeral, NumeralReading.ofNat, NumeralReading.advance, NumeralReading.pushWhole,
    hdigit d hd, hn, digitsOf_mul_add hn hd]

/-- The lexer follows the digits of a number one by one. -/
theorem tokens_toDigits (n : Nat) (rest : List Symbol) :
    Lexer.idle.tokens ((Nat.toDigits 10 n).map some ++ rest)
      = (Lexer.numeral (.ofNat n)).tokens rest := by
  -- on the number, whose last digit is read last
  induction n using Nat.strongRecOn generalizing rest with
  | ind n ih =>
    by_cases hn : n < 10
    · rw [Nat.toDigits_of_lt_base hn, List.map_singleton, List.singleton_append, Lexer.tokens,
        Lexer.feed, feedIdle_digitChar hn]
      rfl
    · have hback : n / 10 * 10 + n % 10 = n := by omega
      rw [Nat.toDigits_of_base_le (by omega) (by omega), List.map_append, List.append_assoc,
        ih (n / 10) (by omega), List.map_singleton, List.singleton_append, Lexer.tokens, Lexer.feed,
        feedNumeral_digitChar (by omega) (by omega), hback]
      rfl

theorem foldl_digitsOf (n : Nat) :
    (digitsOf n).reverse.foldl (fun n d => n * 10 + d) 0 = n := by
  induction n using Nat.strongRecOn with
  | ind n ih =>
    by_cases hn : n < 10
    · simp [digitsOf_of_lt hn]
    · have hback : n = n / 10 * 10 + n % 10 := by omega
      rw [hback, digitsOf_mul_add (by omega) (by omega), List.reverse_cons, List.foldl_append,
        ih (n / 10) (by omega)]
      rfl

theorem le_foldl_digits (n : Nat) (digits : List Nat) :
    n ≤ digits.foldl (fun n d => n * 10 + d) n := by
  induction digits generalizing n with
  | nil => exact Nat.le_refl n
  | cons d digits ih => exact le_trans (by omega) (ih (n * 10 + d))

/-- No digit of a number that fits is dropped. -/
theorem extendWhole_of_le (n : Nat) (digits : List Nat)
    (h : digits.foldl (fun n d => n * 10 + d) n ≤ Numeral.largest) :
    Numeral.extendWhole n digits = (digits.foldl (fun n d => n * 10 + d) n, 0) := by
  induction digits generalizing n with
  | nil => rfl
  | cons d digits ih =>
    -- each part of the number is below the whole, so no digit is dropped on the way
    have hfits : n * 10 + d ≤ Numeral.largest := le_trans (le_foldl_digits _ digits) h
    rw [Numeral.extendWhole, if_pos hfits, ih _ h, List.foldl_cons]

theorem finish_ofNat {n : Nat} (h : n ≤ Numeral.largest) :
    (NumeralReading.ofNat n).finish = .number (.ok (.natural n)) := by
  have hvalue : Numeral.extendWhole 0 (digitsOf n).reverse = (n, 0) := by
    rw [extendWhole_of_le _ _ (by rwa [foldl_digitsOf]), foldl_digitsOf]
  simp [NumeralReading.finish, NumeralReading.ofNat, Numeral.value, hvalue]

/-- No numeral goes on with what follows. -/
def EndsNumeral (rest : List Symbol) : Prop :=
  ∀ symbol ∈ rest.head?, NumeralReading.digit? symbol = none ∧
    symbol ≠ some '.' ∧ symbol ≠ some 'e' ∧ symbol ≠ some 'E'

/-- A written number is one token, if its numeral ends where it does. -/
theorem tokens_natural {n : Nat} (h : n ≤ Numeral.largest) {rest : List Symbol}
    (hrest : EndsNumeral rest) :
    Lexer.idle.tokens ((Number.natural n).text.toList.map some ++ rest)
      = .number (.ok (.natural n)) :: Lexer.idle.tokens rest := by
  rw [Number.text, String.toList_ofList, tokens_toDigits, ← finish_ofNat h]
  cases rest with
  | nil =>
    have hcomplete : (NumeralReading.ofNat n).complete = true := by
      by_cases hn : n = 0 <;> simp [NumeralReading.complete, NumeralReading.ofNat, hn]
    simp [Lexer.tokens, Lexer.finish, hcomplete]
  | cons symbol rest =>
    obtain ⟨hdigit, hpoint, hsmall, hlarge⟩ := hrest symbol rfl
    have hdone : (NumeralReading.ofNat n).advance symbol = .done := by
      by_cases hn : n = 0 <;>
        simp [NumeralReading.advance, NumeralReading.ofNat, hn, hdigit, hpoint, hsmall, hlarge]
    simp [Lexer.tokens, Lexer.feed, Lexer.feedNumeral, hdone]

/-! ## From text to tokens -/

/-- A value that can be written and read again: its numbers are whole numbers that keep all their
digits, and at most `levels` arrays and objects stand inside one another. -/
inductive Readable : Nat → Json → Prop
  | null {levels : Nat} : Readable levels .null
  | flag {levels : Nat} (b : Bool) : Readable levels (.flag b)
  | natural {levels n : Nat} (h : n ≤ Numeral.largest) : Readable levels (.number (.natural n))
  | text {levels : Nat} (s : String) : Readable levels (.text s)
  | array {levels : Nat} {items : List Json} (h : ∀ item ∈ items, Readable levels item) :
      Readable (levels + 1) (.array items)
  | object {levels : Nat} {members : List (String × Json)}
      (h : ∀ member ∈ members, Readable levels member.2) : Readable (levels + 1) (.object members)

@[simp] theorem readable_null {levels : Nat} : Readable levels .null :=
  .null

@[simp] theorem readable_flag {levels : Nat} (b : Bool) : Readable levels (.flag b) :=
  .flag b

@[simp] theorem readable_text {levels : Nat} (s : String) : Readable levels (.text s) :=
  .text s

@[simp] theorem readable_natural_iff {levels n : Nat} :
    Readable levels (.number (.natural n)) ↔ n ≤ Numeral.largest :=
  ⟨fun | .natural h => h, .natural⟩

@[simp] theorem readable_array_iff {levels : Nat} {items : List Json} :
    Readable (levels + 1) (.array items) ↔ ∀ item ∈ items, Readable levels item :=
  ⟨fun | .array h => h, .array⟩

@[simp] theorem readable_object_iff {levels : Nat} {members : List (String × Json)} :
    Readable (levels + 1) (.object members) ↔ ∀ member ∈ members, Readable levels member.2 :=
  ⟨fun | .object h => h, .object⟩

mutual

/-- The tokens of a value. -/
def tokensOf : Json → List Token
  | .null => [.null]
  | .flag b => [.flag b]
  | .number n => [.number (.ok n)]
  | .text s => [.text (.ok s)]
  | .array [] => [.openArray, .closeArray]
  | .array (item :: rest) => .openArray :: (tokensOf item ++ itemTokens rest ++ [.closeArray])
  | .object [] => [.openObject, .closeObject]
  | .object ((name, value) :: rest) =>
    .openObject :: .text (.ok name) :: .colon ::
      (tokensOf value ++ memberTokens rest ++ [.closeObject])

/-- The tokens of the items after the first one. -/
def itemTokens : List Json → List Token
  | [] => []
  | item :: rest => .comma :: (tokensOf item ++ itemTokens rest)

/-- The tokens of the members after the first one. -/
def memberTokens : List (String × Json) → List Token
  | [] => []
  | (name, value) :: rest =>
    .comma :: .text (.ok name) :: .colon :: (tokensOf value ++ memberTokens rest)

end

variable (style : Style)

theorem tokens_comma (rest : List Symbol) :
    Lexer.idle.tokens (some ',' :: rest) = .comma :: Lexer.idle.tokens rest :=
  rfl

theorem tokens_lineBreak (depth : Nat) (rest : List Symbol) :
    Lexer.idle.tokens ((style.lineBreak depth).map some ++ rest) = Lexer.idle.tokens rest := by
  have hblanks (n : Nat) :
      Lexer.idle.tokens ((List.replicate n ' ').map some ++ rest) = Lexer.idle.tokens rest := by
    induction n with
    | zero => rfl
    | succ n ih => exact ih
  cases style with
  | compact => rfl
  | pretty => exact hblanks (2 * depth)

theorem tokens_colon (rest : List Symbol) :
    Lexer.idle.tokens (style.colon.map some ++ rest) = .colon :: Lexer.idle.tokens rest := by
  cases style <;> rfl

theorem endsNumeral_lineBreak (depth : Nat) {rest : List Symbol} (h : EndsNumeral rest) :
    EndsNumeral ((style.lineBreak depth).map some ++ rest) := by
  cases style with
  | compact => exact h
  | pretty => simp [Style.lineBreak, EndsNumeral, NumeralReading.digit?]

theorem endsNumeral_writeItems (depth : Nat) {rest : List Symbol} (h : EndsNumeral rest)
    (items : List Json) :
    EndsNumeral ((writeItems style depth items).map some ++ rest) := by
  cases items with
  | nil => exact h
  | cons item items => simp [writeItems, EndsNumeral, NumeralReading.digit?]

theorem endsNumeral_writeMembers (depth : Nat) {rest : List Symbol} (h : EndsNumeral rest)
    (members : List (String × Json)) :
    EndsNumeral ((writeMembers style depth members).map some ++ rest) := by
  cases members with
  | nil => exact h
  | cons member members => simp [writeMembers, EndsNumeral, NumeralReading.digit?]

mutual

/-- The lexer finds the tokens of a written value, and goes on with what follows it. -/
theorem tokens_write (depth : Nat) {levels : Nat} {rest : List Symbol} :
    (j : Json) → Readable levels j → EndsNumeral rest →
    Lexer.idle.tokens ((write style depth j).map some ++ rest)
      = tokensOf j ++ Lexer.idle.tokens rest
  | .null, _, _ => rfl
  | .flag true, _, _ => rfl
  | .flag false, _, _ => rfl
  | .number _, .natural h, hrest => tokens_natural h hrest
  | .text s, _, _ => tokens_writeText s rest
  | .array [], _, _ => rfl
  | .array (item :: items), .array h, _ => by
    -- a numeral inside ends at a comma, a line break or the bracket, whatever follows the array
    have hend : EndsNumeral (some ']' :: rest) := by simp [EndsNumeral, NumeralReading.digit?]
    have hline := endsNumeral_lineBreak style depth hend
    have hopen (more : List Symbol) :
        Lexer.idle.tokens (some '[' :: more) = .openArray :: Lexer.idle.tokens more := rfl
    have hclose : Lexer.idle.tokens (some ']' :: rest) = .closeArray :: Lexer.idle.tokens rest :=
      rfl
    simp only [write, tokensOf, List.map_cons, List.map_append, List.map_nil, List.cons_append,
      List.append_assoc, List.nil_append, hopen, tokens_lineBreak]
    rw [tokens_write (depth + 1) item (h item List.mem_cons_self)
        (endsNumeral_writeItems style _ hline items),
      tokens_writeItems (depth + 1) items (fun j hj => h j (List.mem_cons_of_mem _ hj)) hline,
      tokens_lineBreak, hclose]
  | .object [], _, _ => rfl
  | .object ((name, value) :: members), .object h, _ => by
    have hend : EndsNumeral (some '\x7d' :: rest) := by simp [EndsNumeral, NumeralReading.digit?]
    have hline := endsNumeral_lineBreak style depth hend
    have hopen (more : List Symbol) :
        Lexer.idle.tokens (some '\x7b' :: more) = .openObject :: Lexer.idle.tokens more := rfl
    have hclose :
        Lexer.idle.tokens (some '\x7d' :: rest) = .closeObject :: Lexer.idle.tokens rest := rfl
    simp only [write, tokensOf, List.map_cons, List.map_append, List.map_nil, List.cons_append,
      List.append_assoc, List.nil_append, hopen, tokens_lineBreak, tokens_writeText, tokens_colon]
    rw [tokens_write (depth + 1) value (h _ List.mem_cons_self)
        (endsNumeral_writeMembers style _ hline members),
      tokens_writeMembers (depth + 1) members (fun m hm => h m (List.mem_cons_of_mem _ hm)) hline,
      tokens_lineBreak, hclose]

/-- The same for the items after the first one. -/
theorem tokens_writeItems (depth : Nat) {levels : Nat} {rest : List Symbol} :
    (items : List Json) → (∀ item ∈ items, Readable levels item) → EndsNumeral rest →
    Lexer.idle.tokens ((writeItems style depth items).map some ++ rest)
      = itemTokens items ++ Lexer.idle.tokens rest
  | [], _, _ => rfl
  | item :: items, h, hrest => by
    simp only [writeItems, itemTokens, List.map_cons, List.map_append, List.cons_append,
      List.append_assoc, tokens_comma, tokens_lineBreak]
    rw [tokens_write depth item (h item List.mem_cons_self)
        (endsNumeral_writeItems style _ hrest items),
      tokens_writeItems depth items (fun j hj => h j (List.mem_cons_of_mem _ hj)) hrest]

/-- The same for the members after the first one. -/
theorem tokens_writeMembers (depth : Nat) {levels : Nat} {rest : List Symbol} :
    (members : List (String × Json)) → (∀ member ∈ members, Readable levels member.2) →
    EndsNumeral rest →
    Lexer.idle.tokens ((writeMembers style depth members).map some ++ rest)
      = memberTokens members ++ Lexer.idle.tokens rest
  | [], _, _ => rfl
  | (name, value) :: members, h, hrest => by
    simp only [writeMembers, memberTokens, List.map_cons, List.map_append, List.cons_append,
      List.append_assoc, tokens_comma, tokens_lineBreak, tokens_writeText, tokens_colon]
    rw [tokens_write depth value (h _ List.mem_cons_self)
        (endsNumeral_writeMembers style _ hrest members),
      tokens_writeMembers depth members (fun m hm => h m (List.mem_cons_of_mem _ hm)) hrest]

end

/-! ## From tokens to the value -/

mutual

/-- A value as a draft without faults. -/
def Draft.ofJson : Json → Draft
  | .null => .null
  | .flag b => .flag b
  | .number n => .number (.ok n)
  | .text s => .text (.ok s)
  | .array items => .array (Draft.ofItems items) none
  | .object members => .object (Draft.ofMembers members) none

/-- The drafts of the items of an array. -/
def Draft.ofItems : List Json → List Draft
  | [] => []
  | item :: rest => Draft.ofJson item :: Draft.ofItems rest

/-- The drafts of the members of an object. -/
def Draft.ofMembers : List (String × Json) → List (Key × Draft)
  | [] => []
  | (name, value) :: rest => (.ok name, Draft.ofJson value) :: Draft.ofMembers rest

end

/-- An item is taken like any other value, since no value begins with a closing bracket. -/
theorem foldl_feed_item (before : List Draft) (stack : List Slot) (j : Json) :
    (tokensOf j).foldl Assembly.feed (.item before stack)
      = (tokensOf j).foldl Assembly.feed (.value (.item before :: stack)) := by
  have hstep (token : Token) (h : token ≠ .closeArray) :
      Assembly.feed (.item before stack) token
        = Assembly.feed (.value (.item before :: stack)) token := by
    cases token with
    | closeArray => exact absurd rfl h
    | _ => simp [Assembly.feed]
  fun_cases tokensOf j <;> simp [hstep]

mutual

/-- The assembly takes the tokens of a value as that value, and puts it into its place. -/
theorem foldl_feed_tokensOf (stack : List Slot) : (j : Json) →
    (tokensOf j).foldl Assembly.feed (.value stack) = Assembly.place (Draft.ofJson j) stack
  | .null => rfl
  | .flag _ => rfl
  | .number _ => rfl
  | .text _ => rfl
  | .array [] => rfl
  | .array (item :: rest) => by
    simp only [tokensOf, List.foldl_cons, List.foldl_append, List.foldl_nil, Assembly.feed,
      Assembly.begin, foldl_feed_item, foldl_feed_tokensOf _ item, Assembly.place,
      foldl_feed_itemTokens _ stack rest]
    simp [Draft.ofJson, Draft.ofItems]
  | .object [] => rfl
  | .object ((name, value) :: rest) => by
    simp only [tokensOf, List.foldl_cons, List.foldl_append, List.foldl_nil, Assembly.feed,
      Assembly.begin, foldl_feed_tokensOf _ value, Assembly.place,
      foldl_feed_memberTokens _ stack rest]
    simp [Draft.ofJson, Draft.ofMembers]

/-- The same for the items after the first one. -/
theorem foldl_feed_itemTokens (before : List Draft) (stack : List Slot) : (items : List Json) →
    (itemTokens items).foldl Assembly.feed (.afterItem before stack)
      = .afterItem ((Draft.ofItems items).reverse ++ before) stack
  | [] => rfl
  | item :: rest => by
    simp only [itemTokens, List.foldl_cons, List.foldl_append, Assembly.feed, foldl_feed_item,
      foldl_feed_tokensOf _ item, Assembly.place, foldl_feed_itemTokens _ stack rest]
    simp [Draft.ofItems]

/-- The same for the members after the first one. -/
theorem foldl_feed_memberTokens (before : List (Key × Draft)) (stack : List Slot) :
    (members : List (String × Json)) →
    (memberTokens members).foldl Assembly.feed (.afterMember before stack)
      = .afterMember ((Draft.ofMembers members).reverse ++ before) stack
  | [] => rfl
  | (name, value) :: rest => by
    simp only [memberTokens, List.foldl_cons, List.foldl_append, Assembly.feed,
      foldl_feed_tokensOf _ value, Assembly.place, foldl_feed_memberTokens _ stack rest]
    simp [Draft.ofMembers]

end

mutual

/-- A draft without faults settles to its value. -/
theorem settle_ofJson {levels : Nat} : (j : Json) → Readable levels j →
    (Draft.ofJson j).settle levels = .ok j
  | .null, _ => rfl
  | .flag _, _ => rfl
  | .number _, _ => rfl
  | .text _, _ => rfl
  | .array items, .array h => by
    simp only [Draft.ofJson, Draft.settle, settle_ofItems items h]
    rfl
  | .object members, .object h => by
    simp only [Draft.ofJson, Draft.settle, settle_ofMembers members h]
    rfl

/-- The same for the items of an array. -/
theorem settle_ofItems {levels : Nat} : (items : List Json) →
    (∀ item ∈ items, Readable levels item) →
    Draft.settleItems levels (Draft.ofItems items) = .ok items
  | [], _ => rfl
  | item :: rest, h => by
    simp only [Draft.ofItems, Draft.settleItems, settle_ofJson item (h item List.mem_cons_self),
      settle_ofItems rest fun j hj => h j (List.mem_cons_of_mem _ hj)]
    rfl

/-- The same for the members of an object. -/
theorem settle_ofMembers {levels : Nat} : (members : List (String × Json)) →
    (∀ member ∈ members, Readable levels member.2) →
    Draft.settleMembers levels (Draft.ofMembers members) = .ok members
  | [], _ => rfl
  | (name, value) :: rest, h => by
    simp only [Draft.ofMembers, Draft.settleMembers, settle_ofJson value (h _ List.mem_cons_self),
      settle_ofMembers rest fun m hm => h m (List.mem_cons_of_mem _ hm)]
    rfl

end

/-- Ends of line after a value are no tokens. -/
theorem tokens_newlines {after : List Char} (h : ∀ c ∈ after, c = '\n') :
    Lexer.idle.tokens (after.map some) = [] := by
  induction after with
  | nil => rfl
  | cons c after ih =>
    obtain rfl : c = '\n' := h c List.mem_cons_self
    exact ih fun c hc => h c (List.mem_cons_of_mem _ hc)

theorem endsNumeral_newlines {after : List Char} (h : ∀ c ∈ after, c = '\n') :
    EndsNumeral (after.map some) := by
  cases after with
  | nil => simp [EndsNumeral]
  | cons c after =>
    obtain rfl : c = '\n' := h c List.mem_cons_self
    simp [EndsNumeral, NumeralReading.digit?]

/-- A written value reads back, also with ends of line after it. -/
theorem parse_write {levels : Nat} {j : Json} (h : Readable levels j) (after : List Char)
    (hafter : ∀ c ∈ after, c = '\n') :
    parse levels (String.ofList (write style 0 j ++ after)) = .ok j := by
  have htokens :
      tokens (symbolsOfText (String.ofList (write style 0 j ++ after))) = tokensOf j := by
    rw [symbolsOfText, String.toList_ofList, List.map_append, tokens,
      tokens_write style 0 j h (endsNumeral_newlines hafter), tokens_newlines hafter,
      List.append_nil]
  have hread : Draft.read (symbolsOfText (String.ofList (write style 0 j ++ after)))
      = (Draft.ofJson j, false) := by
    rw [Draft.read, htokens, foldl_feed_tokensOf]
    rfl
  rw [parse, hread]
  simp [settle_ofJson j h]

theorem parse_compactText {levels : Nat} {j : Json} (h : Readable levels j) :
    parse levels j.compactText = .ok j := by
  rw [compactText, ← List.append_nil (write _ _ j)]
  exact parse_write .compact h [] nofun

theorem parse_prettyText {levels : Nat} {j : Json} (h : Readable levels j) :
    parse levels j.prettyText = .ok j := by
  rw [prettyText, ← List.append_nil (write _ _ j)]
  exact parse_write .pretty h [] nofun

end ImportSweep.Json

import ImportSweep.Parser.Service
import ImportSweep.Proofs.JsonText
import ImportSweep.Proofs.Utf8

/-!
# A request carries its source exactly

What is written to the parsing service is one JSON object without control characters, from which
the source, the file name and the paths are read back as they were
(`invocation_input_carries_request`). So requests that differ are written differently.
-/

namespace ImportSweep.Json

/-! ## Compact text holds no control characters -/

theorem le_toNat_hexChar (n : Nat) : 0x20 ≤ (hexChar n).toNat := by
  have hall : ∀ d < 16, 0x20 ≤ (Nat.digitChar d).toNat := by decide
  exact hall (n % 16) (Nat.mod_lt _ (by omega))

/-- A control character stands in a text as an escape, which is made of other characters. -/
theorem le_toNat_of_mem_escapeChar {c d : Char} (h : d ∈ escapeChar c) : 0x20 ≤ d.toNat := by
  unfold escapeChar at h
  split at h
  case h_8 =>
    split at h
    · simp only [List.mem_cons, List.not_mem_nil, or_false] at h
      obtain rfl | rfl | rfl | rfl | rfl | rfl := h
      · decide
      · decide
      · decide
      · decide
      · exact le_toNat_hexChar _
      · exact le_toNat_hexChar _
    · next hc =>
      rw [List.mem_singleton.1 h]
      exact Nat.le_of_not_lt hc
  all_goals
    simp only [List.mem_cons, List.not_mem_nil, or_false] at h
    obtain rfl | rfl := h <;> decide

theorem le_toNat_of_mem_writeText {text : String} {d : Char} (h : d ∈ writeText text) :
    0x20 ≤ d.toNat := by
  simp only [writeText, List.mem_cons, List.mem_append, List.mem_flatMap, List.not_mem_nil,
    or_false] at h
  obtain rfl | ⟨c, -, hc⟩ | rfl := h
  · decide
  · exact le_toNat_of_mem_escapeChar hc
  · decide

theorem le_toNat_of_all (chars : List Char) {d : Char}
    (hall : (chars.all fun c => 0x20 ≤ c.toNat) = true) (h : d ∈ chars) : 0x20 ≤ d.toNat :=
  of_decide_eq_true (List.all_eq_true.1 hall d h)

mutual

/-- A value that is written without blanks is written without control characters. -/
theorem le_toNat_of_mem_write {levels : Nat} (depth : Nat) {d : Char} :
    (j : Json) → Readable levels j → d ∈ write .compact depth j → 0x20 ≤ d.toNat
  | .null, _, h => le_toNat_of_all "null".toList (by decide) h
  | .flag true, _, h => le_toNat_of_all "true".toList (by decide) h
  | .flag false, _, h => le_toNat_of_all "false".toList (by decide) h
  | .number _, .natural (n := n) _, h => by
    rw [write, Number.text, String.toList_ofList] at h
    have hdigit := Nat.isDigit_of_mem_toDigits (by decide) (by decide) h
    simp only [Char.isDigit, Bool.and_eq_true, decide_eq_true_eq] at hdigit
    have hlow : 48 ≤ d.toNat := hdigit.1
    omega
  | .text _, _, h => le_toNat_of_mem_writeText h
  | .array [], _, h => le_toNat_of_all ['[', ']'] (by decide) h
  | .array (item :: rest), .array hitems, h => by
    simp only [write, Style.lineBreak, List.nil_append, List.append_nil, List.mem_cons,
      List.mem_append, List.not_mem_nil, or_false] at h
    obtain rfl | (h | h) | rfl := h
    · decide
    · exact le_toNat_of_mem_write _ item (hitems item List.mem_cons_self) h
    · exact le_toNat_of_mem_writeItems _ rest (fun j hj => hitems j (List.mem_cons_of_mem _ hj)) h
    · decide
  | .object [], _, h => le_toNat_of_all ['\x7b', '\x7d'] (by decide) h
  | .object ((name, value) :: rest), .object hmembers, h => by
    simp only [write, Style.lineBreak, Style.colon, List.nil_append, List.append_nil, List.mem_cons,
      List.mem_append, List.not_mem_nil, or_false] at h
    obtain rfl | (((h | rfl) | h) | h) | rfl := h
    · decide
    · exact le_toNat_of_mem_writeText h
    · decide
    · exact le_toNat_of_mem_write _ value (hmembers _ List.mem_cons_self) h
    · exact le_toNat_of_mem_writeMembers _ rest
        (fun m hm => hmembers m (List.mem_cons_of_mem _ hm)) h
    · decide

/-- The same for the items after the first one. -/
theorem le_toNat_of_mem_writeItems {levels : Nat} (depth : Nat) {d : Char} :
    (items : List Json) → (∀ item ∈ items, Readable levels item) →
      d ∈ writeItems .compact depth items → 0x20 ≤ d.toNat
  | [], _, h => nomatch h
  | item :: rest, hitems, h => by
    simp only [writeItems, Style.lineBreak, List.nil_append, List.mem_cons, List.mem_append] at h
    obtain rfl | h | h := h
    · decide
    · exact le_toNat_of_mem_write _ item (hitems item List.mem_cons_self) h
    · exact le_toNat_of_mem_writeItems _ rest (fun j hj => hitems j (List.mem_cons_of_mem _ hj)) h

/-- The same for the members after the first one. -/
theorem le_toNat_of_mem_writeMembers {levels : Nat} (depth : Nat) {d : Char} :
    (members : List (String × Json)) → (∀ member ∈ members, Readable levels member.2) →
      d ∈ writeMembers .compact depth members → 0x20 ≤ d.toNat
  | [], _, h => nomatch h
  | (name, value) :: rest, hmembers, h => by
    simp only [writeMembers, Style.lineBreak, Style.colon, List.nil_append, List.mem_cons,
      List.mem_append, List.not_mem_nil, or_false] at h
    obtain rfl | ((h | rfl) | h) | h := h
    · decide
    · exact le_toNat_of_mem_writeText h
    · decide
    · exact le_toNat_of_mem_write _ value (hmembers _ List.mem_cons_self) h
    · exact le_toNat_of_mem_writeMembers _ rest
        (fun m hm => hmembers m (List.mem_cons_of_mem _ hm)) h

end

end ImportSweep.Json

namespace ImportSweep.Parser

/-! ## Requests -/

theorem readable_requestJson (source : String) (options : ParseContext) :
    Json.Readable Json.nestingLimit (requestJson source options) := by
  obtain ⟨filename, paths⟩ := options
  cases filename <;> simp [requestJson, Json.nestingLimit]

/-- The text of a request is read as the request. -/
theorem parse_requestText (source : String) (options : ParseContext) :
    Json.parse Json.nestingLimit (requestText source options) = .ok (requestJson source options) :=
  Json.parse_compactText (readable_requestJson source options)

/-- Requests that are the same value are the same. -/
theorem requestJson_inj {source source' : String} {options options' : ParseContext} :
    requestJson source options = requestJson source' options' ↔
      source = source' ∧ options = options' := by
  obtain ⟨filename, paths⟩ := options
  obtain ⟨filename', paths'⟩ := options'
  have hpaths : paths.map Json.text = paths'.map Json.text ↔ paths = paths' :=
    List.map_inj_right fun _ _ => Json.text.inj
  cases filename <;> cases filename' <;> simp [requestJson, hpaths]

/-- What is written to the parsing service holds no control character, and is one JSON object. Its
members are the source, the file name, which is `null` if there is none, and the paths in order.
Only the same request is written in the same bytes. -/
theorem invocation_input_carries_request (program : String) (lessModule : Option String)
    (source : String) (options : ParseContext) :
    (∀ b ∈ Text.encode (invocation program lessModule source options).input, 0x20 ≤ b.toNat) ∧
    (∃ text,
      Text.decode? (Text.encode (invocation program lessModule source options).input) = some text ∧
      Json.parse Json.nestingLimit text = .ok (.object
        [("source", .text source),
          ("filename", match options.filename with
            | none => .null
            | some filename => .text filename),
          ("paths", .array (options.paths.map .text))])) ∧
    ∀ source' options',
      Text.encode (invocation program lessModule source' options').input =
          Text.encode (invocation program lessModule source options).input ↔
        source' = source ∧ options' = options := by
  refine ⟨fun b hb => ?_, ⟨requestText source options, Text.decode?_encode _, ?_⟩,
    fun source' options' => ?_⟩
  · -- A low byte would be a control character of the text.
    by_contra hlow
    obtain ⟨c, hmem, hc⟩ := Text.exists_mem_toList_of_mem_encode hb (by omega)
    rw [invocation, requestText, Json.compactText, String.toList_ofList] at hmem
    have hle := Json.le_toNat_of_mem_write 0 _ (readable_requestJson source options) hmem
    omega
  · rw [parse_requestText, requestJson]
    cases options.filename <;> rfl
  · rw [Text.encode_inj, ← requestJson_inj]
    constructor
    · intro htext
      have hparse := parse_requestText source' options'
      rw [show requestText source' options' = requestText source options from htext,
        parse_requestText] at hparse
      exact (Except.ok.inj hparse).symm
    · intro hjson
      exact congrArg Json.compactText hjson

end ImportSweep.Parser

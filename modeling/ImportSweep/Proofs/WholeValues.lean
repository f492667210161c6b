import ImportSweep.Proofs.Fallible
import ImportSweep.Proofs.JsonText

/-!
# Whole values

A draft is whole if it breaks off nowhere, so that one who passes over it finds its end. Numbers
that are too large and unpaired surrogates do not count against it.

Two facts about reading follow the two machines that do it.

* `read_member`: a text that is one whole value is the same value when it becomes the member of an
  object. The lexer finds the same tokens, and the assembly does the same with more on its stack,
  as long as nothing breaks off.
* `whole_of_read`: a draft that does not break off at its own end is whole. Whatever breaks off ends
  all arrays and objects around it.

Only whole drafts settle (`whole_of_settle`), and what they settle to does not depend on the levels
that are left over (`settle_succ_of_depth_le`).
-/

namespace ImportSweep.Json

/-- The draft breaks off nowhere. -/
def Draft.Whole (draft : Draft) : Prop :=
  draft.pass = .ok ()

theorem passItems_eq_ok_iff {items : List Draft} :
    Draft.passItems items = .ok () ↔ ∀ item ∈ items, item.Whole := by
  induction items with
  | nil => simp [Draft.passItems]
  | cons item items ih => simp [Draft.passItems, bind_unit_eq_ok_iff, ih, Draft.Whole]

theorem passMembers_eq_ok_iff {members : List (Key × Draft)} :
    Draft.passMembers members = .ok () ↔ ∀ member ∈ members, member.2.Whole := by
  induction members with
  | nil => simp [Draft.passMembers]
  | cons member members ih => simp [Draft.passMembers, bind_unit_eq_ok_iff, ih, Draft.Whole]

@[simp] theorem whole_array_iff {items : List Draft} {ending : Option Break} :
    (Draft.array items ending).Whole ↔ (∀ item ∈ items, item.Whole) ∧ ending = none := by
  rw [Draft.Whole, Draft.pass]
  cases ending <;> simp [bind_unit_eq_ok_iff, passItems_eq_ok_iff]

@[simp] theorem whole_object_iff {members : List (Key × Draft)} {ending : Option Break} :
    (Draft.object members ending).Whole ↔ (∀ member ∈ members, member.2.Whole) ∧ ending = none := by
  rw [Draft.Whole, Draft.pass]
  cases ending <;> simp [bind_unit_eq_ok_iff, passMembers_eq_ok_iff]

/-- The draft breaks off at its own end. -/
def Draft.IsCut : Draft → Prop
  | .broken _ | .array _ (some _) | .object _ (some _) => True
  | _ => False

theorem Draft.IsCut.not_whole {draft : Draft} (h : draft.IsCut) : ¬ draft.Whole := by
  cases draft with
  | broken why => simp [Draft.Whole, Draft.pass]
  | array items ending => cases ending <;> simp_all [Draft.IsCut]
  | object members ending => cases ending <;> simp_all [Draft.IsCut]
  | _ => exact h.elim

/-! ## Assemblies that break off -/

/-- The token breaks off. -/
def Token.IsBroken : Token → Prop
  | .brokenText _ | .broken _ => True
  | _ => False

namespace Assembly

/-- The assembly cannot become one whole value any more: its draft is not whole, or something
stands after it. -/
def Spoiled : Assembly → Prop
  | finished draft trailing => trailing = true ∨ ¬ draft.Whole
  | _ => False

/-- The assembly has broken off. -/
def BrokenOff (a : Assembly) : Prop :=
  ∃ draft, a = finished draft false ∧ draft.IsCut

theorem brokenOff_unwind {draft : Draft} (h : draft.IsCut) (why : Break) (stack : List Slot) :
    (unwind why draft stack).BrokenOff := by
  induction stack generalizing draft with
  | nil => exact ⟨draft, rfl, h⟩
  | cons slot stack ih =>
    cases slot with
    | item before => exact ih trivial
    | member before key => exact ih trivial

theorem brokenOff_noValue (why : Break) (stack : List Slot) : (noValue why stack).BrokenOff :=
  brokenOff_unwind (show (Draft.broken why).IsCut from trivial) why stack

theorem brokenOff_breakArray (why : Break) (items : List Draft) (stack : List Slot) :
    (breakArray why items stack).BrokenOff :=
  brokenOff_unwind (show (Draft.array items.reverse (some why)).IsCut from trivial) why stack

theorem brokenOff_breakObject (why : Break) (members : List (Key × Draft)) (stack : List Slot) :
    (breakObject why members stack).BrokenOff :=
  brokenOff_unwind (show (Draft.object members.reverse (some why)).IsCut from trivial) why stack

theorem BrokenOff.spoiled {a : Assembly} (h : a.BrokenOff) : a.Spoiled := by
  obtain ⟨draft, rfl, hcut⟩ := h
  exact .inr hcut.not_whole

theorem Spoiled.feed {a : Assembly} (h : a.Spoiled) (token : Token) : (a.feed token).Spoiled := by
  cases a with
  | finished draft trailing => exact .inl rfl
  | _ => exact h.elim

theorem Spoiled.foldl_feed {a : Assembly} (h : a.Spoiled) (tokens : List Token) :
    (tokens.foldl Assembly.feed a).Spoiled := by
  induction tokens generalizing a with
  | nil => exact h
  | cons token tokens ih => exact ih (h.feed token)

/-- A token that breaks off spoils every assembly. -/
theorem spoiled_feed_of_isBroken {token : Token} (h : token.IsBroken) (a : Assembly) :
    (a.feed token).Spoiled := by
  cases token with
  | brokenText why | broken why =>
    cases a with
    | value stack => exact (brokenOff_noValue _ _).spoiled
    | item before stack => simpa [Assembly.feed, begin] using (brokenOff_noValue _ _).spoiled
    | afterItem items stack => exact (brokenOff_breakArray _ _ _).spoiled
    | member before stack => simpa [Assembly.feed] using (brokenOff_breakObject _ _ _).spoiled
    | colon before key stack => exact (brokenOff_noValue _ _).spoiled
    | afterMember members stack => exact (brokenOff_breakObject _ _ _).spoiled
    | finished draft trailing => exact .inl rfl
  | _ => exact h.elim

/-- The end of the text breaks off what is not finished. -/
theorem brokenOff_close (a : Assembly) :
    a.close.BrokenOff ∨ ∃ draft trailing, a = finished draft trailing := by
  cases a with
  | value stack => exact .inl (brokenOff_noValue _ stack)
  | item before stack => cases before <;> exact .inl (brokenOff_breakArray _ _ stack)
  | afterItem items stack => exact .inl (brokenOff_breakArray _ _ stack)
  | member before stack => cases before <;> exact .inl (brokenOff_breakObject _ _ stack)
  | colon before key stack => exact .inl (brokenOff_noValue _ _)
  | afterMember members stack => exact .inl (brokenOff_breakObject _ _ stack)
  | finished draft trailing => exact .inr ⟨draft, trailing, rfl⟩

/-! ## Assemblies inside of others -/

/-- The assembly as part of a larger one, in which it fills the first of the places `outer`. -/
def within (outer : List Slot) : Assembly → Assembly
  | value stack => value (stack ++ outer)
  | item before stack => item before (stack ++ outer)
  | afterItem items stack => afterItem items (stack ++ outer)
  | member before stack => member before (stack ++ outer)
  | colon before key stack => colon before key (stack ++ outer)
  | afterMember members stack => afterMember members (stack ++ outer)
  | finished draft _ => place draft outer

theorem place_append (draft : Draft) (stack outer : List Slot) :
    place draft (stack ++ outer) = (place draft stack).within outer := by
  cases stack with
  | nil => rfl
  | cons slot stack =>
    cases slot with
    | item before => rfl
    | member before key => rfl

theorem begin_append {token : Token} {stack : List Slot} (h : ¬ (begin token stack).Spoiled)
    (outer : List Slot) : begin token (stack ++ outer) = (begin token stack).within outer := by
  cases token with
  | openArray | openObject => rfl
  | null | flag | number | text => exact place_append _ stack outer
  | _ => exact absurd (brokenOff_noValue _ stack).spoiled h

/-- A token that spoils nothing does the same inside of a larger assembly. -/
theorem feed_within {a : Assembly} {token : Token} (h : ¬ (a.feed token).Spoiled)
    (outer : List Slot) : (a.within outer).feed token = (a.feed token).within outer := by
  cases a with
  | value stack => exact begin_append h outer
  | item before stack =>
    cases token with
    | closeArray =>
      cases before with
      | nil => exact place_append _ stack outer
      | cons draft before => exact absurd (brokenOff_breakArray _ _ stack).spoiled h
    | _ =>
      simp only [Assembly.feed, within, ← List.cons_append] at h ⊢
      exact begin_append h outer
  | afterItem items stack =>
    cases token with
    | comma => rfl
    | closeArray => exact place_append _ stack outer
    | _ => exact absurd (brokenOff_breakArray _ _ stack).spoiled h
  | member before stack =>
    cases token with
    | closeObject =>
      cases before with
      | nil => exact place_append _ stack outer
      | cons member before => exact absurd (brokenOff_breakObject _ _ stack).spoiled h
    | text key =>
      simp only [Assembly.feed, within]
    | _ =>
      simp only [Assembly.feed] at h
      exact absurd (brokenOff_breakObject _ _ stack).spoiled h
  | colon before key stack =>
    cases token with
    | colon => rfl
    | _ => exact absurd (brokenOff_noValue _ _).spoiled h
  | afterMember members stack =>
    cases token with
    | comma => rfl
    | closeObject => exact place_append _ stack outer
    | _ => exact absurd (brokenOff_breakObject _ _ stack).spoiled h
  | finished draft trailing => exact absurd (.inl rfl) h

/-- A run of tokens that spoils nothing does the same inside of a larger assembly. -/
theorem foldl_feed_within {a : Assembly} {tokens : List Token}
    (h : ¬ (tokens.foldl Assembly.feed a).Spoiled) (outer : List Slot) :
    tokens.foldl Assembly.feed (a.within outer) = (tokens.foldl Assembly.feed a).within outer := by
  induction tokens generalizing a with
  | nil => rfl
  | cons token tokens ih =>
    have hfirst : ¬ (a.feed token).Spoiled := fun hspoiled => h (hspoiled.foldl_feed tokens)
    rw [List.foldl_cons, List.foldl_cons, feed_within hfirst, ih h]

/-- Only a finished assembly ends as one whole value. -/
theorem eq_finished_of_result_close {a : Assembly} {draft : Draft}
    (h : a.close.result = (draft, false)) (hwhole : draft.Whole) : a = finished draft false := by
  obtain ⟨cut, hclose, hcut⟩ | ⟨other, trailing, rfl⟩ := a.brokenOff_close
  · rw [hclose] at h
    cases h
    exact absurd hwhole hcut.not_whole
  · cases h
    rfl

end Assembly

section Read

variable {symbols : List Symbol} {draft : Draft}

theorem foldl_feed_of_read (h : Draft.read symbols = (draft, false)) (hwhole : draft.Whole) :
    (tokens symbols).foldl Assembly.feed (.value []) = .finished draft false :=
  Assembly.eq_finished_of_result_close h hwhole

/-- The tokens of a whole value are taken as that value, whatever is around it. -/
theorem foldl_feed_value_of_read (h : Draft.read symbols = (draft, false)) (hwhole : draft.Whole)
    (outer : List Slot) :
    (tokens symbols).foldl Assembly.feed (.value outer) = .place draft outer := by
  have hfinished := foldl_feed_of_read h hwhole
  have hsound : ¬ ((tokens symbols).foldl Assembly.feed (.value [])).Spoiled := by
    rw [hfinished]
    simpa [Assembly.Spoiled] using hwhole
  have hwithin := Assembly.foldl_feed_within hsound outer
  rwa [hfinished] at hwithin

/-- No token of a whole value breaks off. -/
theorem not_isBroken_of_read (h : Draft.read symbols = (draft, false)) (hwhole : draft.Whole) :
    ∀ token ∈ tokens symbols, ¬ token.IsBroken := by
  intro token hmem hbroken
  obtain ⟨before, after, hsplit⟩ := List.append_of_mem hmem
  have hspoiled : ((tokens symbols).foldl Assembly.feed (.value [])).Spoiled := by
    rw [hsplit, List.foldl_append, List.foldl_cons]
    exact (Assembly.spoiled_feed_of_isBroken hbroken _).foldl_feed after
  rw [foldl_feed_of_read h hwhole] at hspoiled
  exact hspoiled.elim (by simp) fun hnot => hnot hwhole

end Read

/-! ## Tokens of a text that goes on -/

namespace Lexer

/-- The state after some symbols. -/
def after : Lexer → List Symbol → Lexer
  | state, [] => state
  | state, symbol :: rest => (state.feed symbol).1.after rest

/-- The tokens that some symbols finish. -/
def found : Lexer → List Symbol → List Token
  | _, [] => []
  | state, symbol :: rest => (state.feed symbol).2 ++ (state.feed symbol).1.found rest

theorem tokens_append (state : Lexer) (symbols rest : List Symbol) :
    state.tokens (symbols ++ rest) = state.found symbols ++ (state.after symbols).tokens rest := by
  induction symbols generalizing state with
  | nil => rfl
  | cons symbol symbols ih =>
    rw [List.cons_append, tokens, found, after, List.append_assoc, ← ih]

theorem tokens_eq_found (state : Lexer) (symbols : List Symbol) :
    state.tokens symbols = state.found symbols ++ (state.after symbols).finish := by
  have happend := state.tokens_append symbols []
  rwa [List.append_nil] at happend

/-- The lexer stops only at a token that breaks off. -/
def Result.Honest (r : Result) : Prop :=
  r.1 = stopped → ∃ token ∈ r.2, token.IsBroken

theorem honest_fail (why : Break) : (fail why).Honest :=
  fun _ => ⟨.broken why, List.mem_singleton_self _, trivial⟩

theorem honest_of_ne {r : Result} (h : r.1 ≠ stopped) : r.Honest :=
  fun hstopped => absurd hstopped h

theorem honest_feedIdle (symbol : Symbol) : (feedIdle symbol).Honest := by
  unfold feedIdle
  split
  · exact honest_fail _
  split
  case h_16 =>
    split
    · exact honest_of_ne nofun
    · exact honest_of_ne nofun
    · exact honest_fail _
  all_goals exact honest_of_ne nofun

theorem honest_feedWord (due : List Char) (token : Token) (symbol : Symbol) :
    (feedWord due token symbol).Honest := by
  unfold feedWord
  split
  · exact honest_fail _
  split
  · split <;> exact honest_of_ne nofun
  · exact honest_fail _

theorem honest_feedNumeral (reading : NumeralReading) (symbol : Symbol) :
    (feedNumeral reading symbol).Honest := by
  unfold feedNumeral
  split
  · exact honest_of_ne nofun
  · exact honest_fail _
  · intro hstopped
    obtain ⟨token, hmem, hbroken⟩ := honest_feedIdle symbol hstopped
    exact ⟨token, List.mem_cons_of_mem _ hmem, hbroken⟩

theorem honest_text (reading : TextReading) : Result.Honest (text reading, []) :=
  honest_of_ne nofun

theorem honest_brokenText (why : Break) : Result.Honest (stopped, [.brokenText why]) :=
  fun _ => ⟨.brokenText why, List.mem_singleton_self _, trivial⟩

theorem honest_feedText (reading : TextReading) (symbol : Symbol) :
    (feedText reading symbol).Honest := by
  unfold feedText
  split
  · split
    · apply honest_of_ne
      simp
    · simp only
      split
      · apply honest_of_ne
        simp
      · split
        · exact honest_text _
        · exact honest_brokenText _
  · simp only
    split
    · exact honest_text _
    · exact honest_brokenText _
  · simp only
    split
    · exact honest_text _
    · exact honest_brokenText _

theorem honest_feed {state : Lexer} (h : state ≠ stopped) (symbol : Symbol) :
    (state.feed symbol).Honest := by
  cases state with
  | idle => exact honest_feedIdle symbol
  | word due token => exact honest_feedWord due token symbol
  | numeral reading => exact honest_feedNumeral reading symbol
  | text reading => exact honest_feedText reading symbol
  | stopped => exact absurd rfl h

theorem exists_isBroken_of_after {state : Lexer} {symbols : List Symbol} (h : state ≠ stopped)
    (hafter : state.after symbols = stopped) :
    ∃ token ∈ state.found symbols, token.IsBroken := by
  induction symbols generalizing state with
  | nil => exact absurd hafter h
  | cons symbol symbols ih =>
    by_cases hnext : (state.feed symbol).1 = stopped
    · obtain ⟨token, hmem, hbroken⟩ := honest_feed h symbol hnext
      exact ⟨token, List.mem_append_left _ hmem, hbroken⟩
    · obtain ⟨token, hmem, hbroken⟩ := ih hnext hafter
      exact ⟨token, List.mem_append_right _ hmem, hbroken⟩

/-- A numeral that may end does so at a closing brace. -/
theorem advance_closing {reading : NumeralReading} (h : reading.complete = true) :
    reading.advance (some '\x7d') = .done := by
  obtain ⟨numeral, place⟩ := reading
  cases place with
  | zero | whole | fraction | exponent => rfl
  | sign | point | letter | exponentSign => cases h

end Lexer

/-- A closing brace ends the tokens of a text that has no broken ones. -/
theorem tokens_append_closing {symbols : List Symbol}
    (h : ∀ token ∈ tokens symbols, ¬ token.IsBroken) (rest : List Symbol) :
    tokens (symbols ++ some '\x7d' :: rest) = tokens symbols ++ .closeObject :: tokens rest := by
  simp only [tokens] at h ⊢
  rw [Lexer.tokens_append, Lexer.tokens_eq_found _ symbols, List.append_assoc]
  rw [Lexer.tokens_eq_found] at h
  congr 1
  -- what the end of the text would finish, the brace finishes as well
  have hfinish : ∀ token ∈ (Lexer.idle.after symbols).finish, ¬ token.IsBroken :=
    fun token hmem => h token (List.mem_append_right _ hmem)
  have hfound : Lexer.idle.after symbols ≠ .stopped := by
    intro hstopped
    have hidle : Lexer.idle ≠ .stopped := by simp
    obtain ⟨token, hmem, hbroken⟩ := Lexer.exists_isBroken_of_after hidle hstopped
    exact h token (List.mem_append_left _ hmem) hbroken
  generalize Lexer.idle.after symbols = state at hfinish hfound
  cases state with
  | idle => rfl
  | word due token => exact absurd trivial (hfinish _ (List.mem_singleton_self _))
  | text reading => exact absurd trivial (hfinish _ (List.mem_singleton_self _))
  | stopped => exact absurd rfl hfound
  | numeral reading =>
    by_cases hcomplete : reading.complete = true
    · simp [Lexer.tokens, Lexer.feed, Lexer.feedNumeral, Lexer.advance_closing hcomplete,
        Lexer.finish, hcomplete, Lexer.feedIdle]
    · rw [Lexer.finish, if_neg hcomplete] at hfinish
      exact absurd trivial (hfinish _ (List.mem_singleton_self _))

/-- A text that is one whole value, as the only member of an object, is that value. -/
theorem read_member {symbols : List Symbol} {draft : Draft}
    (h : Draft.read symbols = (draft, false)) (hwhole : draft.Whole) (name : String) :
    Draft.read (some '\x7b' :: ((writeText name).map some ++
        some ':' :: (symbols ++ [some '\x7d']))) =
      (.object [(.ok name, draft)] none, false) := by
  have htokens : tokens (some '\x7b' :: ((writeText name).map some ++
        some ':' :: (symbols ++ [some '\x7d']))) =
      .openObject :: .text (.ok name) :: .colon :: (tokens symbols ++ [.closeObject]) := by
    have hopen (rest : List Symbol) :
        Lexer.idle.tokens (some '\x7b' :: rest) = .openObject :: Lexer.idle.tokens rest := rfl
    have hclosing := tokens_append_closing (not_isBroken_of_read h hwhole) []
    rw [tokens] at hclosing ⊢
    rw [hopen, tokens_writeText]
    exact congrArg (Token.openObject :: .text (.ok name) :: .colon :: ·) hclosing
  rw [Draft.read, htokens]
  simp only [List.foldl_cons, List.foldl_append, List.foldl_nil, Assembly.feed, Assembly.begin,
    foldl_feed_value_of_read h hwhole, Assembly.place]
  rfl

/-! ## What breaks off -/

/-- The finished parts around an unfinished value are whole. -/
def Slot.Whole : Slot → Prop
  | .item before => ∀ item ∈ before, item.Whole
  | .member before _ => ∀ member ∈ before, member.2.Whole

namespace Assembly

/-- The finished parts of the assembly are whole, and its draft breaks off nowhere or at its own
end. -/
def Orderly : Assembly → Prop
  | value stack => ∀ slot ∈ stack, slot.Whole
  | item before stack | afterItem before stack =>
    (∀ item ∈ before, item.Whole) ∧ ∀ slot ∈ stack, slot.Whole
  | member before stack | colon before _ stack | afterMember before stack =>
    (∀ member ∈ before, member.2.Whole) ∧ ∀ slot ∈ stack, slot.Whole
  | finished draft _ => draft.Whole ∨ draft.IsCut

theorem orderly_place {draft : Draft} {stack : List Slot} (h : draft.Whole)
    (hstack : ∀ slot ∈ stack, slot.Whole) : (place draft stack).Orderly := by
  cases stack with
  | nil => exact .inl h
  | cons slot stack =>
    obtain ⟨hslot, hrest⟩ := List.forall_mem_cons.1 hstack
    cases slot with
    | item before => exact ⟨List.forall_mem_cons.2 ⟨h, hslot⟩, hrest⟩
    | member before key => exact ⟨List.forall_mem_cons.2 ⟨h, hslot⟩, hrest⟩

theorem BrokenOff.orderly {a : Assembly} (h : a.BrokenOff) : a.Orderly := by
  obtain ⟨draft, rfl, hcut⟩ := h
  exact .inr hcut

theorem orderly_begin {token : Token} {stack : List Slot} (h : ∀ slot ∈ stack, slot.Whole) :
    (begin token stack).Orderly := by
  cases token with
  | openArray | openObject => exact ⟨by simp, h⟩
  | null | flag | number | text => exact orderly_place rfl h
  | _ => exact (brokenOff_noValue _ stack).orderly

theorem Orderly.feed {a : Assembly} (h : a.Orderly) (token : Token) : (a.feed token).Orderly := by
  cases a with
  | value stack => exact orderly_begin h
  | item before stack =>
    cases token with
    | closeArray =>
      cases before with
      | nil => exact orderly_place (by simp) h.2
      | cons draft before => exact (brokenOff_breakArray _ _ stack).orderly
    | _ =>
      simp only [Assembly.feed]
      exact orderly_begin (List.forall_mem_cons.2 h)
  | afterItem items stack =>
    cases token with
    | comma => exact h
    | closeArray => exact orderly_place (by simpa using h.1) h.2
    | _ => exact (brokenOff_breakArray _ _ stack).orderly
  | member before stack =>
    cases token with
    | closeObject =>
      cases before with
      | nil => exact orderly_place (by simp) h.2
      | cons member before => exact (brokenOff_breakObject _ _ stack).orderly
    | text key =>
      simp only [Assembly.feed]
      exact h
    | _ =>
      simp only [Assembly.feed]
      exact (brokenOff_breakObject _ _ stack).orderly
  | colon before key stack =>
    cases token with
    | colon => exact List.forall_mem_cons.2 h
    | _ => exact (brokenOff_noValue _ _).orderly
  | afterMember members stack =>
    cases token with
    | comma => exact h
    | closeObject => exact orderly_place (by simpa using h.1) h.2
    | _ => exact (brokenOff_breakObject _ _ stack).orderly
  | finished draft trailing => exact h

theorem Orderly.foldl_feed {a : Assembly} (h : a.Orderly) (tokens : List Token) :
    (tokens.foldl Assembly.feed a).Orderly := by
  induction tokens generalizing a with
  | nil => exact h
  | cons token tokens ih => exact ih (h.feed token)

theorem Orderly.close {a : Assembly} (h : a.Orderly) : a.close.Orderly := by
  obtain hbroken | ⟨draft, trailing, rfl⟩ := a.brokenOff_close
  · exact hbroken.orderly
  · exact h

theorem Orderly.result {a : Assembly} (h : a.Orderly) : a.result.1.Whole ∨ a.result.1.IsCut := by
  cases a with
  | finished draft trailing => exact h
  | _ => exact .inr trivial

end Assembly

/-- A draft that does not break off at its own end is whole. -/
theorem whole_of_read {symbols : List Symbol} (h : ¬ (Draft.read symbols).1.IsCut) :
    (Draft.read symbols).1.Whole := by
  have hstart : (Assembly.value []).Orderly := nofun
  exact (hstart.foldl_feed (tokens symbols)).close.result.resolve_right h

/-! ## Depth -/

mutual

/-- How many arrays and objects stand inside one another. -/
def Draft.depth : Draft → Nat
  | .array items _ => Draft.depthOfItems items + 1
  | .object members _ => Draft.depthOfMembers members + 1
  | .null | .flag _ | .number _ | .text _ | .broken _ => 0

/-- The depth of the deepest item. -/
def Draft.depthOfItems : List Draft → Nat
  | [] => 0
  | item :: rest => max item.depth (Draft.depthOfItems rest)

/-- The depth of the deepest member. -/
def Draft.depthOfMembers : List (Key × Draft) → Nat
  | [] => 0
  | (_, draft) :: rest => max draft.depth (Draft.depthOfMembers rest)

end

mutual

/-- More levels than the draft has do not change what it settles to. -/
theorem settle_succ_of_depth_le : (draft : Draft) → (levels : Nat) → draft.depth ≤ levels →
    draft.settle (levels + 1) = draft.settle levels
  | .null, _, _ | .flag _, _, _ | .number _, _, _ | .text _, _, _ | .broken _, _, _ => by
    simp only [Draft.settle]
  | .array _ _, 0, h | .object _ _, 0, h => absurd h (by simp [Draft.depth])
  | .array items ending, levels + 1, h => by
    have hitems : Draft.depthOfItems items ≤ levels := Nat.le_of_succ_le_succ h
    simp only [Draft.settle, settleItems_succ_of_depth_le items levels hitems]
  | .object members ending, levels + 1, h => by
    have hmembers : Draft.depthOfMembers members ≤ levels := Nat.le_of_succ_le_succ h
    simp only [Draft.settle, settleMembers_succ_of_depth_le members levels hmembers]

/-- The same for the items of an array. -/
theorem settleItems_succ_of_depth_le : (items : List Draft) → (levels : Nat) →
    Draft.depthOfItems items ≤ levels →
    Draft.settleItems (levels + 1) items = Draft.settleItems levels items
  | [], _, _ => rfl
  | item :: rest, levels, h => by
    obtain ⟨hitem, hrest⟩ := max_le_iff.1 h
    simp only [Draft.settleItems, settle_succ_of_depth_le item levels hitem,
      settleItems_succ_of_depth_le rest levels hrest]

/-- The same for the members of an object. -/
theorem settleMembers_succ_of_depth_le : (members : List (Key × Draft)) → (levels : Nat) →
    Draft.depthOfMembers members ≤ levels →
    Draft.settleMembers (levels + 1) members = Draft.settleMembers levels members
  | [], _, _ => rfl
  | (key, draft) :: rest, levels, h => by
    obtain ⟨hdraft, hrest⟩ := max_le_iff.1 h
    simp only [Draft.settleMembers, settle_succ_of_depth_le draft levels hdraft,
      settleMembers_succ_of_depth_le rest levels hrest]

end

mutual

/-- What settles is whole, and no deeper than it may be. -/
theorem whole_of_settle : (draft : Draft) → (levels : Nat) → (j : Json) →
    draft.settle levels = .ok j → draft.Whole ∧ draft.depth ≤ levels
  | .null, _, _, _ | .flag _, _, _, _ | .number _, _, _, _ | .text _, _, _, _ =>
    ⟨rfl, Nat.zero_le _⟩
  | .broken _, _, _, h => nomatch h
  | .array _ _, 0, _, h | .object _ _, 0, _, h => nomatch h
  | .array items ending, levels + 1, j, h => by
    simp only [Draft.settle, bind_eq_ok_iff] at h
    obtain ⟨values, hvalues, h⟩ := h
    obtain ⟨hwhole, hdepth⟩ := whole_of_settleItems items levels values hvalues
    cases ending with
    | some why => cases h
    | none => exact ⟨whole_array_iff.2 ⟨hwhole, rfl⟩, Nat.succ_le_succ hdepth⟩
  | .object members ending, levels + 1, j, h => by
    simp only [Draft.settle, bind_eq_ok_iff] at h
    obtain ⟨values, hvalues, h⟩ := h
    obtain ⟨hwhole, hdepth⟩ := whole_of_settleMembers members levels values hvalues
    cases ending with
    | some why => cases h
    | none => exact ⟨whole_object_iff.2 ⟨hwhole, rfl⟩, Nat.succ_le_succ hdepth⟩

/-- The same for the items of an array. -/
theorem whole_of_settleItems : (items : List Draft) → (levels : Nat) → (values : List Json) →
    Draft.settleItems levels items = .ok values →
    (∀ item ∈ items, item.Whole) ∧ Draft.depthOfItems items ≤ levels
  | [], _, _, _ => ⟨by simp, Nat.zero_le _⟩
  | item :: rest, levels, values, h => by
    simp only [Draft.settleItems, bind_eq_ok_iff] at h
    obtain ⟨value, hvalue, others, hothers, -⟩ := h
    obtain ⟨hitem, hitemdepth⟩ := whole_of_settle item levels value hvalue
    obtain ⟨hrest, hrestdepth⟩ := whole_of_settleItems rest levels others hothers
    exact ⟨List.forall_mem_cons.2 ⟨hitem, hrest⟩, max_le hitemdepth hrestdepth⟩

/-- The same for the members of an object. -/
theorem whole_of_settleMembers : (members : List (Key × Draft)) → (levels : Nat) →
    (values : List (String × Json)) → Draft.settleMembers levels members = .ok values →
    (∀ member ∈ members, member.2.Whole) ∧ Draft.depthOfMembers members ≤ levels
  | [], _, _, _ => ⟨by simp, Nat.zero_le _⟩
  | (key, draft) :: rest, levels, values, h => by
    simp only [Draft.settleMembers, bind_eq_ok_iff] at h
    obtain ⟨name, -, value, hvalue, others, hothers, -⟩ := h
    obtain ⟨hdraft, hdraftdepth⟩ := whole_of_settle draft levels value hvalue
    obtain ⟨hrest, hrestdepth⟩ := whole_of_settleMembers rest levels others hothers
    exact ⟨List.forall_mem_cons.2 ⟨hdraft, hrest⟩, max_le hdraftdepth hrestdepth⟩

end

/-- A text that is JSON has a whole draft with nothing after it. -/
theorem parse_eq_ok_iff {levels : Nat} {text : String} {j : Json} :
    Json.parse levels text = .ok j ↔
      ∃ draft, Draft.read (symbolsOfText text) = (draft, false) ∧ draft.settle levels = .ok j := by
  rcases hread : Draft.read (symbolsOfText text) with ⟨draft, trailing⟩
  cases hsettle : draft.settle levels <;> cases trailing <;> simp_all [Json.parse]

end ImportSweep.Json

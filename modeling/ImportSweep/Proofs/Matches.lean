import ImportSweep.Names.Used
import ImportSweep.Proofs.Interpolation

/-!
# Matches of an interpolation, and its occurrences

A pattern is usually matched from left to right: the first place where it fits is a match, and the
search goes on after that match (`leftmostMatches`). What begins inside of a match is passed over,
so in general such a search finds fewer places than there are (`occurrences`).

For interpolations it finds all of them. The pattern begins with an at sign, and no at sign stands
in the rest of a match. `spliced_text_eq_matches` says that this search, the scan of the text and
the occurrences agree, place by place and in order.
-/

namespace ImportSweep.Names

/-- The names that a search from left to right finds which goes on after each match. -/
def leftmostMatches : List Char → List (List Char)
  | [] => []
  | c :: rest =>
    match matchHead? (c :: rest) with
    | some name => name :: leftmostMatches (rest.drop (name.length + 2))
    | none => leftmostMatches rest
termination_by text => text.length

/-- Inside of an occurrence no other one begins. -/
theorem occurrences_splice {name : List Char} (hname : IsName name) (text : List Char) :
    occurrences (splice name ++ text) = name :: occurrences text := by
  have hinside : '@' ∉ '\x7b' :: (name ++ ['\x7d']) := by
    simpa using at_not_mem_of_isNameChar hname.2
  have hhead := matchHead?_splice hname text
  rw [splice, List.cons_append] at hhead ⊢
  rw [occurrences, hhead, occurrences_append_of_not_mem hinside]
  rfl

/-- A search that goes on after each match finds each occurrence. -/
theorem leftmostMatches_eq_occurrences (text : List Char) :
    leftmostMatches text = occurrences text := by
  -- on the search; after a match, what is passed over is the rest of an occurrence
  fun_induction leftmostMatches text with
  | case1 => rfl
  | case2 c rest name hmatch ih =>
    obtain ⟨hname, after, hafter⟩ := matchHead?_eq_some_iff.1 hmatch
    have hrest : rest.drop (name.length + 2) = after := by
      obtain rfl : '\x7b' :: (name ++ ['\x7d']) ++ after = rest := (List.cons.inj hafter).2
      exact List.drop_left' (by simp)
    rw [ih, hrest, ← hafter, occurrences_splice hname]
  | case3 c rest hmatch ih =>
    rw [ih, occurrences, hmatch]
    rfl

/-- The variables that a plain text names by interpolation are those that are written in it
somewhere, with an at sign and the name in braces. The search from left to right that goes on after
each match finds them all: it finds a name at each place where one is written, in order. -/
theorem spliced_text_eq_matches (text : String) :
    (∀ target, target ∈ spliced (.text text) ↔
      ∃ name, IsName name ∧ splice name <:+: text.toList ∧ target = variableOf name) ∧
    spliced (.text text) = (leftmostMatches text.toList).map variableOf ∧
    leftmostMatches text.toList = occurrences text.toList := by
  have hscan : spliced (.text text) = (occurrences text.toList).map variableOf :=
    interpolations_eq_occurrences text
  have hsearch := leftmostMatches_eq_occurrences text.toList
  exact ⟨fun target => mem_interpolations_iff, by rw [hscan, hsearch], hsearch⟩

/-- An opening that is broken off by another one, a second at sign, and a name inside of an
opening that is not closed. -/
example : spliced (.text ("@\x7b@\x7ba\x7d@@\x7bb\x7d" ++ "@\x7bc-@\x7bd\x7d\x7d@\x7b\x7d")) =
    ["@a", "@b", "@d"] := by
  decide +kernel

end ImportSweep.Names

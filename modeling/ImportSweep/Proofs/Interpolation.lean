import Mathlib.Data.List.TakeWhile
import ImportSweep.Names.Interpolation

/-!
# What the scan for interpolations finds

A text interpolates a name if the name stands in it somewhere, between an at sign with an opening
brace and a closing brace. `occurrences` lists the names of a text by their places, and one scan
from left to right finds just this list (`Scan.names_eq_occurrences`). So it finds all names for
which there is a place, and no others (`mem_interpolations_iff`): no occurrence is lost because
another one overlaps it.
-/

namespace ImportSweep.Names

/-- The characters of a name: one or more, each of which may stand in a name. -/
def IsName (name : List Char) : Prop :=
  name ≠ [] ∧ ∀ c ∈ name, isNameChar c = true

/-- A name as it is written to be interpolated. -/
def splice (name : List Char) : List Char :=
  '@' :: '\x7b' :: (name ++ ['\x7d'])

/-- Somewhere in the text the variable is interpolated. -/
def Interpolates (text : List Char) (target : String) : Prop :=
  ∃ name, IsName name ∧ splice name <:+: text ∧ target = String.ofList ('@' :: name)

theorem isNameChar_at : isNameChar '@' = false := by
  decide +kernel

theorem isNameChar_closing : isNameChar '\x7d' = false := by
  decide +kernel

/-! ## Occurrences -/

/-- The name that is interpolated at the very beginning of a text. -/
def matchHead? : List Char → Option (List Char)
  | '@' :: '\x7b' :: rest =>
    if rest.takeWhile isNameChar ≠ [] ∧ (rest.dropWhile isNameChar).head? = some '\x7d' then
      some (rest.takeWhile isNameChar)
    else none
  | _ => none

/-- The names that are interpolated in a text, one for each place where an interpolation begins. -/
def occurrences : List Char → List (List Char)
  | [] => []
  | c :: rest => (matchHead? (c :: rest)).toList ++ occurrences rest

/-- A variable, given by the characters of its name. -/
def variableOf (name : List Char) : String :=
  String.ofList ('@' :: name)

/-! ## One place -/

theorem matchHead?_cons_of_ne {c : Char} {rest : List Char} (hc : c ≠ '@') :
    matchHead? (c :: rest) = none := by
  unfold matchHead?
  split
  next h => exact absurd (List.cons.inj h).1 hc
  next => rfl

theorem matchHead?_at_cons_of_ne {c : Char} {rest : List Char} (hc : c ≠ '\x7b') :
    matchHead? ('@' :: c :: rest) = none := by
  unfold matchHead?
  split
  next h => exact absurd (List.cons.inj (List.cons.inj h).2).1 hc
  next => rfl

/-- The first character that is not part of the name decides whether the name is interpolated. -/
theorem matchHead?_open {done : List Char} {c : Char}
    (hdone : ∀ d ∈ done, isNameChar d = true) (hc : isNameChar c = false) (rest : List Char) :
    matchHead? ('@' :: '\x7b' :: (done ++ c :: rest)) =
      if done ≠ [] ∧ c = '\x7d' then some done else none := by
  have htake : (done ++ c :: rest).takeWhile isNameChar = done := by
    rw [List.takeWhile_append_of_pos hdone, List.takeWhile_cons_of_neg (by simp [hc]),
      List.append_nil]
  have hdrop : (done ++ c :: rest).dropWhile isNameChar = c :: rest := by
    rw [List.dropWhile_append_of_pos hdone, List.dropWhile_cons_of_neg (by simp [hc])]
  simp only [matchHead?, htake, hdrop, List.head?_cons, Option.some.injEq]

theorem matchHead?_splice {name : List Char} (hname : IsName name) (rest : List Char) :
    matchHead? (splice name ++ rest) = some name := by
  have hopen := matchHead?_open hname.2 isNameChar_closing rest
  rw [if_pos ⟨hname.1, rfl⟩] at hopen
  simpa [splice] using hopen

/-- A name without its closing brace is not interpolated yet. -/
theorem matchHead?_unclosed {done : List Char} (hdone : ∀ d ∈ done, isNameChar d = true) :
    matchHead? ('@' :: '\x7b' :: done) = none := by
  have hdrop : done.dropWhile isNameChar = [] := List.dropWhile_eq_nil_iff.2 hdone
  simp [matchHead?, hdrop]

/-- A name is interpolated at the beginning of a text if the text begins as it is written. -/
theorem matchHead?_eq_some_iff {text name : List Char} :
    matchHead? text = some name ↔ IsName name ∧ splice name <+: text := by
  constructor
  · intro h
    unfold matchHead? at h
    split at h
    next rest =>
      split at h
      next hclosed =>
        obtain ⟨hne, hhead⟩ := hclosed
        obtain rfl := Option.some.inj h
        refine ⟨⟨hne, fun c hc => List.mem_takeWhile_imp hc⟩, ?_⟩
        -- The text is cut after its name characters, and the brace is what follows.
        obtain ⟨after, hafter⟩ := List.head?_eq_some_iff.1 hhead
        refine ⟨after, ?_⟩
        have hcut := List.takeWhile_append_dropWhile (p := isNameChar) (l := rest)
        rw [hafter] at hcut
        simpa [splice] using hcut
      next => cases h
    next => cases h
  · rintro ⟨hname, rest, rfl⟩
    exact matchHead?_splice hname rest

/-! ## All places -/

/-- The occurrences of a name are its places in the text. -/
theorem mem_occurrences_iff {text name : List Char} :
    name ∈ occurrences text ↔ IsName name ∧ splice name <:+: text := by
  induction text with
  | nil => simp [occurrences, splice]
  | cons c text ih =>
    rw [occurrences, List.mem_append, Option.mem_toList, matchHead?_eq_some_iff, ih,
      List.infix_cons_iff, ← and_or_left]

/-- No interpolation begins in a part of the text without at signs. -/
theorem occurrences_append_of_not_mem {before : List Char} (hbefore : '@' ∉ before)
    (text : List Char) : occurrences (before ++ text) = occurrences text := by
  induction before with
  | nil => rfl
  | cons c before ih =>
    rw [List.mem_cons, not_or] at hbefore
    rw [List.cons_append, occurrences, matchHead?_cons_of_ne (Ne.symm hbefore.1), ih hbefore.2]
    rfl

theorem at_not_mem_of_isNameChar {name : List Char} (hname : ∀ c ∈ name, isNameChar c = true) :
    '@' ∉ name := by
  intro hmem
  have hat := hname '@' hmem
  rw [isNameChar_at] at hat
  cases hat

/-! ## The scan -/

/-- What has been read of an interpolation that is not complete. -/
def Scan.pending : Scan → List Char
  | .outside => []
  | .afterAt => ['@']
  | .inName name => '@' :: '\x7b' :: name.reverse

/-- The name that is being read consists of name characters. -/
def Scan.Valid : Scan → Prop
  | .outside | .afterAt => True
  | .inName name => ∀ c ∈ name, isNameChar c = true

theorem Scan.valid_restart (c : Char) : (Scan.restart c).Valid := by
  rw [Scan.restart]
  split <;> trivial

/-- A scan that begins again keeps the occurrences from the current character on. -/
theorem occurrences_restart (c : Char) (rest : List Char) :
    occurrences ((Scan.restart c).pending ++ rest) = occurrences (c :: rest) := by
  rw [Scan.restart]
  split
  next hc =>
    rw [hc]
    rfl
  next hc =>
    rw [occurrences, matchHead?_cons_of_ne hc]
    rfl

/-- What is pending holds no occurrence. -/
theorem Scan.occurrences_pending {scan : Scan} (hvalid : scan.Valid) :
    occurrences scan.pending = [] := by
  cases scan with
  | outside => rfl
  | afterAt => rfl
  | inName done =>
    have hname : ∀ c ∈ done.reverse, isNameChar c = true := fun c hc =>
      hvalid c (List.mem_reverse.1 hc)
    have hrest : '@' ∉ '\x7b' :: done.reverse := by
      simpa using at_not_mem_of_isNameChar hname
    have hnone := occurrences_append_of_not_mem hrest []
    rw [List.append_nil] at hnone
    rw [Scan.pending, occurrences, matchHead?_unclosed hname, hnone]
    rfl

/-- A scan goes on to find the occurrences in what is pending and the rest of the text together, in
their order. -/
theorem Scan.names_eq_occurrences (scan : Scan) (text : List Char) (hvalid : scan.Valid) :
    scan.names text = (occurrences (scan.pending ++ text)).map variableOf := by
  -- Each character moves from the rest of the text to what is pending, or ends what is pending.
  induction text generalizing scan with
  | nil =>
    rw [List.append_nil, Scan.occurrences_pending hvalid, Scan.names]
    rfl
  | cons c rest ih =>
    cases scan with
    | outside =>
      rw [Scan.names, ih _ (Scan.valid_restart c), occurrences_restart]
      rfl
    | afterAt =>
      rw [Scan.names]
      by_cases hc : c = '\x7b'
      · rw [if_pos hc, ih (.inName []) (fun _ h => absurd h List.not_mem_nil), hc]
        rfl
      · have hskip : occurrences ('@' :: c :: rest) = occurrences (c :: rest) := by
          rw [occurrences, matchHead?_at_cons_of_ne hc]
          rfl
        rw [if_neg hc, ih _ (Scan.valid_restart c), occurrences_restart, ← hskip]
        rfl
    | inName done =>
      rw [Scan.names]
      by_cases hc : isNameChar c = true
      · have hvalid' : (Scan.inName (c :: done)).Valid := List.forall_mem_cons.2 ⟨hc, hvalid⟩
        rw [if_pos hc, ih _ hvalid']
        simp [Scan.pending]
      · -- The name ends here: it is interpolated, or else nothing begins before this character.
        have hname : ∀ d ∈ done.reverse, isNameChar d = true := fun d hd =>
          hvalid d (List.mem_reverse.1 hd)
        have hinside : '@' ∉ '\x7b' :: done.reverse := by
          simpa using at_not_mem_of_isNameChar hname
        have hocc : occurrences ((Scan.inName done).pending ++ c :: rest) =
            (if done.reverse ≠ [] ∧ c = '\x7d' then some done.reverse else none).toList ++
              occurrences (c :: rest) := by
          rw [← matchHead?_open hname (Bool.eq_false_iff.2 hc) rest,
            ← occurrences_append_of_not_mem hinside (c :: rest)]
          rfl
        rw [if_neg hc, hocc]
        by_cases hclosed : done.reverse ≠ [] ∧ c = '\x7d'
        · have hclose : (decide (c = '\x7d') && !done.isEmpty) = true := by
            simpa [and_comm] using hclosed
          have hbrace : occurrences (c :: rest) = occurrences rest := by
            rw [hclosed.2, occurrences, matchHead?_cons_of_ne (by decide)]
            rfl
          rw [if_pos hclose, if_pos hclosed, hbrace, ih .outside trivial]
          rfl
        · have hopen : ¬ (decide (c = '\x7d') && !done.isEmpty) = true := by
            simpa [and_comm] using hclosed
          rw [if_neg hopen, if_neg hclosed, ih _ (Scan.valid_restart c), occurrences_restart]
          rfl

/-- The scan of a whole text finds its occurrences. -/
theorem interpolations_eq_occurrences (text : String) :
    interpolations text = (occurrences text.toList).map variableOf :=
  Scan.names_eq_occurrences .outside text.toList trivial

/-- The variables that a text names by interpolation are those that occur in it. -/
theorem mem_interpolations_iff {text target : String} :
    target ∈ interpolations text ↔ Interpolates text.toList target := by
  rw [interpolations_eq_occurrences, List.mem_map]
  simp only [mem_occurrences_iff, and_assoc, eq_comm, Interpolates, variableOf]

end ImportSweep.Names

import ImportSweep.Proofs.Stores
import Mathlib.Data.List.Sort

/-!
# What a search finds

A search below a directory finds the regular files of a certain extension that no ignored directory
contains. This is said by place: `IsStylesheet` looks at the tree from the directory down along the
names of a place, and links lead nowhere in it.

A search picks its files from the visits of a traversal. Of the traversal two facts are used: it
comes to the entries that pass the filter and to what is below them (`Entry.mem_visitsIn_iff`), and
to no place twice (`Entry.nodup_visits`). With the filter of the search, the visits are then to the
entries that no ignored directory contains (`mem_visits_iff`).

The traversal goes through the listings of the directories, so the result of a search could depend
on their order. It does not, because a list is known by its members once it is sorted
(`sortPlaces_congr`). `findStylesheets_exact` puts all together for trees whose names can be names
of entries.
-/

namespace ImportSweep.Files

/-! ## Names -/

/-- The name ends in a dot and the extension, which is what follows its last dot. A dot that begins
the name does not count. -/
def HasExtension (extension name : String) : Prop :=
  ∃ stem, stem ≠ [] ∧ '.' ∉ extension.toList ∧ name.toList = stem ++ '.' :: extension.toList

theorem isStylesheetName_iff {name : String} :
    isStylesheetName name = true ↔ HasExtension "less" name := by
  have hreverse (stem : List Char) (name : String) : name.toList = stem ++ '.' :: "less".toList ↔
      name.toList.reverse = 's' :: 's' :: 'e' :: 'l' :: '.' :: stem.reverse := by
    rw [← List.reverse_inj]
    simp
  have hdot : '.' ∉ "less".toList := by decide
  simp only [HasExtension, hreverse, hdot, not_false_eq_true, true_and]
  unfold isStylesheetName
  split
  · next c rest hname =>
    simp only [hname, true_iff]
    exact ⟨(c :: rest).reverse, by simp, by simp⟩
  · next hname =>
    simp only [Bool.false_eq_true, false_iff]
    rintro ⟨stem, hne, heq⟩
    obtain ⟨c, rest, hstem⟩ := List.exists_cons_of_ne_nil (List.reverse_ne_nil_iff.2 hne)
    rw [hstem] at heq
    exact hname c rest heq

/-- What can be the name of an entry. -/
def IsEntryName (name : String) : Prop :=
  name ≠ "" ∧ name ≠ "." ∧ name ≠ ".." ∧ '/' ∉ name.toList

/-! ## Trees -/

namespace Entry

/-- The tree is one of a file system: the entries of each directory have names that can be names,
and no two have the same. -/
inductive Proper : Entry → Prop where
  /-- A file. -/
  | file (content : Content) : Proper (.file content)
  /-- A link, wherever it leads. -/
  | link (target : String) : Proper (.link target)
  /-- A directory. -/
  | directory {entries : List (String × Entry)} (nodup : (entries.map Prod.fst).Nodup)
      (names : ∀ member ∈ entries, IsEntryName member.1)
      (inside : ∀ member ∈ entries, Proper member.2) : Proper (.directory entries)

/-- The second tree lists the entries of its directories in another order. -/
inductive Reordered : Entry → Entry → Prop where
  /-- Nothing is listed in another order. -/
  | refl (entry : Entry) : Reordered entry entry
  /-- A directory is. -/
  | listing {entries entries' : List (String × Entry)} (perm : entries.Perm entries') :
      Reordered (.directory entries) (.directory entries')
  /-- Something inside a directory is. -/
  | inside {before after : List (String × Entry)} {name : String} {entry entry' : Entry}
      (inside : Reordered entry entry') :
      Reordered (.directory (before ++ (name, entry) :: after))
        (.directory (before ++ (name, entry') :: after))
  /-- One after the other. -/
  | trans {first second third : Entry} (left : Reordered first second)
      (right : Reordered second third) : Reordered first third

/-- Names that differ tell the entries apart, whatever their order. -/
theorem lookup_eq_some_iff_mem {entries : List (String × Entry)}
    (hnodup : (entries.map Prod.fst).Nodup) {name : String} {entry : Entry} :
    entries.lookup name = some entry ↔ (name, entry) ∈ entries := by
  induction entries with
  | nil => simp
  | cons member entries ih =>
    obtain ⟨found, other⟩ := member
    obtain ⟨hfirst, hrest⟩ := List.nodup_cons.1 hnodup
    by_cases hname : name = found
    · subst hname
      have hnone : (name, entry) ∉ entries := fun hmem =>
        hfirst (List.mem_map.2 ⟨_, hmem, rfl⟩)
      simp [hnone, eq_comm]
    · rw [lookup_cons_of_ne hname, ih hrest]
      simp [hname]

theorem get?_append_place (top : Entry) (location place : Location) :
    top.get? (location ++ place) = (top.get? location).bind (get? place) := by
  induction location generalizing top with
  | nil => rfl
  | cons name location ih =>
    rw [List.cons_append, get?, get?, Option.bind_assoc]
    exact congrArg _ (funext fun entry => ih entry)

theorem Proper.get? {top entry : Entry} (h : top.Proper) {location : Location}
    (hget : top.get? location = some entry) : entry.Proper := by
  induction location generalizing top with
  | nil =>
    cases hget
    exact h
  | cons name location ih =>
    obtain ⟨found, hfound, hrest⟩ := Option.bind_eq_some_iff.1 hget
    cases h with
    | file | link => cases hfound
    | directory nodup names inside =>
      exact ih (inside _ ((lookup_eq_some_iff_mem nodup).1 hfound)) hrest

/-- Trees that differ in the order of listings hold the same at all places. -/
theorem Reordered.sameShape {top top' : Entry} (h : Reordered top top') (hproper : top.Proper) :
    top'.Proper ∧ SameShape top top' := by
  induction h with
  | refl entry => exact ⟨hproper, fun _ => rfl⟩
  | trans left right ihleft ihright =>
    obtain ⟨hsecond, hfirst⟩ := ihleft hproper
    obtain ⟨hthird, hrest⟩ := ihright hsecond
    exact ⟨hthird, fun location => (hrest location).trans (hfirst location)⟩
  | @listing entries entries' perm =>
    cases hproper with
    | directory nodup names inside =>
      have hnodup : (entries'.map Prod.fst).Nodup := (perm.map Prod.fst).nodup_iff.1 nodup
      refine ⟨.directory hnodup (fun member hmember => names member (perm.mem_iff.2 hmember))
        fun member hmember => inside member (perm.mem_iff.2 hmember), fun location => ?_⟩
      cases location with
      | nil => rfl
      | cons name location =>
        have hlookup : entries'.lookup name = entries.lookup name := by
          ext entry
          rw [lookup_eq_some_iff_mem hnodup, lookup_eq_some_iff_mem nodup, perm.mem_iff]
        simp only [Entry.get?, child?, hlookup]
  | @inside before after name entry entry' h ih =>
    cases hproper with
    | directory nodup names inside =>
      obtain ⟨hentry, hsame⟩ := ih (inside (name, entry) (by simp))
      have hnodup : ((before ++ (name, entry') :: after).map Prod.fst).Nodup := by
        simpa using nodup
      have hmembers {member : String × Entry}
          (hmember : member ∈ before ++ (name, entry') :: after) :
          member ∈ before ++ (name, entry) :: after ∨ member = (name, entry') := by
        simp only [List.mem_append, List.mem_cons] at hmember ⊢
        tauto
      refine ⟨.directory hnodup (fun member hmember => ?_) fun member hmember => ?_,
        fun location => ?_⟩
      · obtain hmember | rfl := hmembers hmember
        · exact names member hmember
        · exact names (name, entry) (by simp)
      · obtain hmember | rfl := hmembers hmember
        · exact inside member hmember
        · exact hentry
      cases location with
      | nil => rfl
      | cons other location =>
        by_cases hother : other = name
        · subst hother
          have hold : (before ++ (other, entry) :: after).lookup other = some entry :=
            (lookup_eq_some_iff_mem nodup).2 (by simp)
          have hnew : (before ++ (other, entry') :: after).lookup other = some entry' :=
            (lookup_eq_some_iff_mem hnodup).2 (by simp)
          simp only [Entry.get?, child?, hold, hnew, Option.bind_some]
          exact hsame location
        · simp only [Entry.get?, child?, List.lookup_append, lookup_cons_of_ne hother]

end Entry

/-! ## Places -/

/-- The place of an entry that is wanted and that no ignored directory contains. -/
def Reached (wanted : String → Entry → Prop) (top : Entry) (place : Location) : Prop :=
  ∃ above name found, place = above ++ [name] ∧ (∀ directory ∈ above, directory ∉ ignoredNames) ∧
    top.get? place = some found ∧ wanted name found

/-- The place of a stylesheet below a directory. -/
def IsStylesheet : Entry → Location → Prop :=
  Reached fun name found => HasExtension "less" name ∧ found.shape = .file

/-- The place of a directory that is searched below a directory. -/
def IsSearched : Entry → Location → Prop :=
  Reached fun name found => name ∉ ignoredNames ∧ found.shape = .directory

section Reached

variable {wanted : String → Entry → Prop}

theorem Reached.exists_directory {top : Entry} {place : Location} (h : Reached wanted top place) :
    ∃ entries, top = .directory entries := by
  obtain ⟨above, name, found, rfl, -, hget, -⟩ := h
  cases top with
  | directory entries => exact ⟨entries, rfl⟩
  | file | link => cases above <;> cases hget

theorem not_reached_nil {top : Entry} : ¬ Reached wanted top [] := by
  rintro ⟨above, name, found, hplace, -⟩
  exact List.append_ne_nil_of_right_ne_nil above (List.cons_ne_nil name []) hplace.symm

theorem reached_cons_iff {top : Entry} {name : String} {rest : Location} :
    Reached wanted top (name :: rest) ↔
      ∃ inner, top.child? name = some inner ∧
        ((rest = [] ∧ wanted name inner) ∨ (name ∉ ignoredNames ∧ Reached wanted inner rest)) := by
  constructor
  · rintro ⟨above, last, found, hplace, habove, hget, hwanted⟩
    obtain ⟨inner, hinner, hget⟩ := Option.bind_eq_some_iff.1 hget
    refine ⟨inner, hinner, ?_⟩
    cases above with
    | nil =>
      cases hplace
      cases hget
      exact .inl ⟨rfl, hwanted⟩
    | cons first above =>
      cases hplace
      obtain ⟨hfirst, habove⟩ := List.forall_mem_cons.1 habove
      exact .inr ⟨hfirst, above, last, found, rfl, habove, hget, hwanted⟩
  · rintro ⟨inner, hinner, ⟨rfl, hwanted⟩ | ⟨hname, above, last, found, rfl, habove, hget, hwanted⟩⟩
    · exact ⟨[], name, inner, rfl, nofun, Option.bind_eq_some_iff.2 ⟨inner, hinner, rfl⟩, hwanted⟩
    · exact ⟨name :: above, last, found, rfl, List.forall_mem_cons.2 ⟨hname, habove⟩,
        Option.bind_eq_some_iff.2 ⟨inner, hinner, hget⟩, hwanted⟩

/-- The names on the way to an entry are names of entries. -/
theorem Reached.isEntryName {top : Entry} {place : Location} (h : Reached wanted top place)
    (hproper : top.Proper) : ∀ name ∈ place, IsEntryName name := by
  induction place generalizing top with
  | nil => exact nofun
  | cons name rest ih =>
    obtain ⟨inner, hinner, hcase⟩ := reached_cons_iff.1 h
    cases hproper with
    | file | link => cases hinner
    | directory nodup names inside =>
      have hmember := (Entry.lookup_eq_some_iff_mem nodup).1 hinner
      refine List.forall_mem_cons.2 ⟨names _ hmember, ?_⟩
      obtain ⟨rfl, -⟩ | ⟨-, hrest⟩ := hcase
      · exact nofun
      · exact ih hrest (inside _ hmember)

/-- What is wanted may be said in another way. -/
theorem reached_iff {wanted' : String → Entry → Prop}
    (h : ∀ name found, wanted name found ↔ wanted' name found) {top : Entry} {place : Location} :
    Reached wanted top place ↔ Reached wanted' top place := by
  simp only [Reached, h]

/-- What is wanted by name and shape is reached in all trees of one shape. -/
theorem reached_congr (shaped : String → Entry.Shape → Prop) {top top' : Entry}
    (h : Entry.SameShape top top') {place : Location} :
    Reached (fun name found => shaped name found.shape) top' place ↔
      Reached (fun name found => shaped name found.shape) top place := by
  have hsome {top : Entry} {name : String} :
      (∃ found, top.get? place = some found ∧ shaped name found.shape) ↔
        ∃ shape, (top.get? place).map Entry.shape = some shape ∧ shaped name shape := by
    cases top.get? place <;> simp
  simp only [Reached, exists_and_left, hsome, h place]

theorem isStylesheet_congr {top top' : Entry} (h : Entry.SameShape top top') {place : Location} :
    IsStylesheet top' place ↔ IsStylesheet top place :=
  reached_congr (fun name shape => HasExtension "less" name ∧ shape = .file) h

theorem isSearched_congr {top top' : Entry} (h : Entry.SameShape top top') {place : Location} :
    IsSearched top' place ↔ IsSearched top place :=
  reached_congr (fun name shape => name ∉ ignoredNames ∧ shape = .directory) h

end Reached

/-! ## Traversals -/

section Visits

variable {passes : EntryFilter} {depth : Nat}

/-- What a traversal comes to in a listing is one of its entries that pass, or below one. -/
theorem Entry.mem_visitsIn_iff {entries : List (String × Entry)} {visit : Visit} :
    visit ∈ Entry.visitsIn passes depth entries ↔
      ∃ member ∈ entries, passes depth member.1 member.2 = true ∧
        (visit = ⟨[member.1], member.1, member.2⟩ ∨
          ∃ inner ∈ member.2.visits passes (depth + 1), visit = inner.under member.1) := by
  induction entries with
  | nil => simp [Entry.visitsIn]
  | cons member entries ih =>
    obtain ⟨name, entry⟩ := member
    rw [Entry.visitsIn, List.mem_append, ih, List.exists_mem_cons_iff]
    refine or_congr_left ?_
    split
    · next hpasses => simp [hpasses, eq_comm]
    · next hpasses => simp [hpasses]

/-- The first name on the way to an entry is that of an entry in the listing. -/
theorem Entry.exists_place_eq_cons {entries : List (String × Entry)} {visit : Visit}
    (h : visit ∈ Entry.visitsIn passes depth entries) :
    ∃ member ∈ entries, ∃ rest, visit.place = member.1 :: rest := by
  obtain ⟨member, hmember, -, rfl | ⟨inner, -, rfl⟩⟩ := Entry.mem_visitsIn_iff.1 h
  · exact ⟨member, hmember, [], rfl⟩
  · exact ⟨member, hmember, inner.place, rfl⟩

theorem Entry.place_ne_nil_of_mem_visits {top : Entry} {visit : Visit}
    (h : visit ∈ top.visits passes depth) : visit.place ≠ [] := by
  cases top with
  | file | link => cases h
  | directory entries =>
    obtain ⟨member, -, rest, hplace⟩ := Entry.exists_place_eq_cons h
    rw [hplace]
    exact List.cons_ne_nil _ _

theorem Entry.visitsIn_cons (member : String × Entry) (entries : List (String × Entry)) :
    Entry.visitsIn passes depth (member :: entries) =
      Entry.visitsIn passes depth [member] ++ Entry.visitsIn passes depth entries := by
  rw [Entry.visitsIn, Entry.visitsIn, Entry.visitsIn, List.append_nil]

/-- An entry and what is below it are at different places if those below are. -/
theorem Entry.nodup_visitsIn_singleton {name : String} {entry : Entry}
    (h : ((entry.visits passes (depth + 1)).map Visit.place).Nodup) :
    ((Entry.visitsIn passes depth [(name, entry)]).map Visit.place).Nodup := by
  have hbelow : ((entry.visits passes (depth + 1)).map fun visit => name :: visit.place).Nodup := by
    have hinjective : Function.Injective fun place : Location => name :: place :=
      fun _ _ => List.tail_eq_of_cons_eq
    have hcons := h.map hinjective
    rwa [List.map_map] at hcons
  have hitself : [name] ∉ (entry.visits passes (depth + 1)).map fun visit =>
      name :: visit.place := by
    intro hmem
    obtain ⟨visit, hvisit, hcons⟩ := List.mem_map.1 hmem
    exact Entry.place_ne_nil_of_mem_visits hvisit (List.cons.inj hcons).2
  rw [Entry.visitsIn, Entry.visitsIn, List.append_nil]
  split
  · rw [List.map_cons, List.map_map]
    exact List.nodup_cons.2 ⟨hitself, hbelow⟩
  · exact List.nodup_nil

mutual

/-- A traversal comes to each place once. -/
theorem Entry.nodup_visits (depth : Nat) : (top : Entry) → top.Proper →
    ((top.visits passes depth).map Visit.place).Nodup
  | .file _, _ => List.nodup_nil
  | .link _, _ => List.nodup_nil
  | .directory entries, h => by
    cases h with
    | directory nodup names inside => exact Entry.nodup_visitsIn depth entries nodup inside

theorem Entry.nodup_visitsIn (depth : Nat) : (entries : List (String × Entry)) →
    (entries.map Prod.fst).Nodup → (∀ member ∈ entries, member.2.Proper) →
    ((Entry.visitsIn passes depth entries).map Visit.place).Nodup
  | [], _, _ => List.nodup_nil
  | (name, entry) :: rest, hnodup, hinside => by
    obtain ⟨hfirst, hnodup⟩ := List.nodup_cons.1 hnodup
    obtain ⟨hentry, hinside⟩ := List.forall_mem_cons.1 hinside
    rw [Entry.visitsIn_cons, List.map_append]
    refine List.nodup_append.2
      ⟨Entry.nodup_visitsIn_singleton (Entry.nodup_visits (depth + 1) entry hentry),
        Entry.nodup_visitsIn depth rest hnodup hinside, ?_⟩
    -- The first names of the places tell them apart.
    rintro _ hplace _ hother rfl
    obtain ⟨visit, hvisit, rfl⟩ := List.mem_map.1 hplace
    obtain ⟨visit', hvisit', hsame⟩ := List.mem_map.1 hother
    obtain ⟨member, hmember, tail, htail⟩ := Entry.exists_place_eq_cons hvisit
    obtain ⟨member', hmember', tail', htail'⟩ := Entry.exists_place_eq_cons hvisit'
    cases List.mem_singleton.1 hmember
    rw [htail, htail'] at hsame
    exact hfirst (List.mem_map.2 ⟨member', hmember', (List.cons.inj hsame).1⟩)

end

/-- Below where it begins, a search passes all but ignored directories. -/
theorem notIgnored_succ_iff {name : String} {entry : Entry} :
    notIgnored (depth + 1) name entry = true ↔
      (name ∈ ignoredNames → entry.isDirectory = false) := by
  simp only [notIgnored, isIgnoredDirectory]
  cases entry.isDirectory <;> simp

/-- The visits of a search below where it begins are to the entries that are reached. -/
theorem mem_visits_iff {top : Entry} (h : top.Proper) {place : Location} {name : String}
    {found : Entry} :
    ⟨place, name, found⟩ ∈ top.visits notIgnored (depth + 1) ↔
      Reached (fun last entry => last = name ∧ entry = found ∧
        (last ∈ ignoredNames → entry.isDirectory = false)) top place := by
  -- along the names of the place, whatever the depth of the tree
  induction place generalizing top depth with
  | nil =>
    refine iff_of_false (fun hmem => ?_) not_reached_nil
    exact Entry.place_ne_nil_of_mem_visits hmem rfl
  | cons first rest ih =>
    cases h with
    | file | link =>
      refine iff_of_false List.not_mem_nil fun hreached => ?_
      obtain ⟨entries, hdirectory⟩ := hreached.exists_directory
      cases hdirectory
    | @directory entries nodup names inside =>
      have hchild {entry : Entry} :
          (Entry.directory entries).child? first = some entry ↔ (first, entry) ∈ entries :=
        Entry.lookup_eq_some_iff_mem nodup
      rw [Entry.visits, Entry.mem_visitsIn_iff, reached_cons_iff]
      constructor
      · rintro ⟨⟨_, entry⟩, hmember, hpasses, hsame | ⟨inner, hinner, hsame⟩⟩
        · cases hsame
          exact ⟨_, hchild.2 hmember, .inl ⟨rfl, rfl, rfl, notIgnored_succ_iff.1 hpasses⟩⟩
        · cases hsame
          -- Something is below this entry, so it is a directory, and it passes by its name.
          have hreached := (ih (inside _ hmember)).1 hinner
          obtain ⟨entries', rfl⟩ := hreached.exists_directory
          refine ⟨_, hchild.2 hmember, .inr ⟨fun hignored => ?_, hreached⟩⟩
          cases notIgnored_succ_iff.1 hpasses hignored
      · rintro ⟨entry, hentry, ⟨rfl, rfl, rfl, hpasses⟩ | ⟨hname, hreached⟩⟩
        · exact ⟨(first, entry), hchild.1 hentry, notIgnored_succ_iff.2 hpasses, .inl rfl⟩
        · refine ⟨(first, entry), hchild.1 hentry, notIgnored_succ_iff.2 fun hignored => ?_,
            .inr ⟨⟨rest, name, found⟩, (ih (inside _ (hchild.1 hentry))).2 hreached, rfl⟩⟩
          exact absurd hignored hname

/-- Of the visits of a search, those with a property are to the entries that are reached and have
it. -/
theorem mem_map_place_filter_iff (test : String → Entry → Bool) {top : Entry} (h : top.Proper)
    {place : Location} :
    place ∈ ((top.visits notIgnored (depth + 1)).filter fun visit =>
        test visit.name visit.entry).map Visit.place ↔
      Reached (fun name found => test name found = true ∧
        (name ∈ ignoredNames → found.isDirectory = false)) top place := by
  constructor
  · intro hmem
    obtain ⟨⟨_, name, found⟩, hfiltered, rfl⟩ := List.mem_map.1 hmem
    obtain ⟨hvisit, htest⟩ := List.mem_filter.1 hfiltered
    obtain ⟨above, last, entry, hplace, habove, hget, rfl, rfl, hpasses⟩ :=
      (mem_visits_iff h).1 hvisit
    exact ⟨above, last, entry, hplace, habove, hget, htest, hpasses⟩
  · rintro ⟨above, name, found, hplace, habove, hget, htest, hpasses⟩
    have hvisit : ⟨place, name, found⟩ ∈ top.visits notIgnored (depth + 1) :=
      (mem_visits_iff h).2 ⟨above, name, found, hplace, habove, hget, rfl, rfl, hpasses⟩
    exact List.mem_map.2 ⟨_, List.mem_filter.2 ⟨hvisit, htest⟩, rfl⟩

end Visits

/-- The places of the stylesheets among the visits of a search. -/
def stylesheetsBelow (directory : Entry) : List Location :=
  ((directory.visits notIgnored 1).filter fun visit =>
    isStylesheet visit.name visit.entry).map Visit.place

/-- What a search picks are the stylesheets of the tree. -/
theorem mem_stylesheetsBelow_iff {directory : Entry} (h : directory.Proper) {place : Location} :
    place ∈ stylesheetsBelow directory ↔ IsStylesheet directory place := by
  rw [stylesheetsBelow, mem_map_place_filter_iff isStylesheet h]
  refine reached_iff fun name found => ?_
  cases found <;>
    simp [isStylesheet, Entry.isFile, Entry.isDirectory, Entry.shape, isStylesheetName_iff]

theorem nodup_stylesheetsBelow {directory : Entry} (h : directory.Proper) :
    (stylesheetsBelow directory).Nodup :=
  (Entry.nodup_visits 1 directory h).sublist (List.filter_sublist.map Visit.place)

/-- The directories among the visits are those that are searched. -/
theorem mem_searched_iff {directory : Entry} (h : directory.Proper) {place : Location} :
    place ∈ ((directory.visits notIgnored 1).filter (·.entry.isDirectory)).map Visit.place ↔
      IsSearched directory place := by
  rw [mem_map_place_filter_iff (fun _ entry => entry.isDirectory) h]
  refine reached_iff fun name found => ?_
  cases found <;> simp [Entry.isDirectory, Entry.shape]

/-! ## Order -/

/-- The first place does not come after the second. -/
def PlacePrecedes (a b : Location) : Prop :=
  ¬ b < a

instance : DecidableRel PlacePrecedes :=
  fun a b => inferInstanceAs (Decidable (¬ b < a))

instance : Std.Total PlacePrecedes :=
  ⟨fun a b => List.le_total a b⟩

instance : IsTrans Location PlacePrecedes :=
  ⟨fun _ _ _ => List.le_trans⟩

theorem insertPlace_eq_orderedInsert (place : Location) (places : List Location) :
    insertPlace place places = places.orderedInsert PlacePrecedes place := by
  induction places with
  | nil => rfl
  | cons first rest ih =>
    rw [insertPlace, List.orderedInsert_cons, ih]
    by_cases hlt : first < place
    · have hafter : ¬ PlacePrecedes place first := not_not_intro hlt
      rw [if_pos hlt, if_neg hafter]
    · have hbefore : PlacePrecedes place first := hlt
      rw [if_neg hlt, if_pos hbefore]

/-- Places are sorted by insertion. -/
theorem sortPlaces_eq_insertionSort (places : List Location) :
    sortPlaces places = places.insertionSort PlacePrecedes := by
  induction places with
  | nil => rfl
  | cons place rest ih =>
    rw [sortPlaces, ih, insertPlace_eq_orderedInsert, List.insertionSort_cons]

theorem perm_sortPlaces (places : List Location) : (sortPlaces places).Perm places := by
  rw [sortPlaces_eq_insertionSort]
  exact List.perm_insertionSort PlacePrecedes places

/-- Places that differ are sorted strictly. -/
theorem pairwise_sortPlaces {places : List Location} (h : places.Nodup) :
    (sortPlaces places).Pairwise (· < ·) := by
  have hsorted : (sortPlaces places).Pairwise PlacePrecedes := by
    rw [sortPlaces_eq_insertionSort]
    exact List.pairwise_insertionSort PlacePrecedes places
  have hnodup : (sortPlaces places).Nodup := (perm_sortPlaces places).nodup_iff.2 h
  -- Of two places that differ, one comes first.
  refine hsorted.imp₂ (fun place other hle hne => ?_) hnodup
  exact Decidable.byContradiction fun hgt => hne (List.le_antisymm hle hgt)

/-- A sorted list of places is known by its members. -/
theorem sortPlaces_congr {places places' : List Location} (h : places.Nodup) (h' : places'.Nodup)
    (hmem : ∀ place, place ∈ places ↔ place ∈ places') :
    sortPlaces places = sortPlaces places' := by
  have hsame : places.Perm places' := (List.perm_ext_iff_of_nodup h h').2 hmem
  have hperm : (sortPlaces places).Perm (sortPlaces places') :=
    ((perm_sortPlaces places).trans hsame).trans (perm_sortPlaces places').symm
  refine hperm.eq_of_pairwise ?_ (pairwise_sortPlaces h) (pairwise_sortPlaces h')
  exact fun place other _ _ hlt hgt => absurd hgt (List.lt_asymm hlt)

/-! ## Paths -/

theorem splitSlashes_append (part before after : List Char) :
    splitSlashes part (before ++ '/' :: after) =
      splitSlashes part before ++ splitSlashes [] after := by
  induction before generalizing part with
  | nil => rfl
  | cons c before ih =>
    rw [List.cons_append, splitSlashes, splitSlashes]
    split
    · rw [ih, List.cons_append]
    · exact ih _

theorem splitSlashes_of_not_mem (part : List Char) {chars : List Char} (h : '/' ∉ chars) :
    splitSlashes part chars = [String.ofList (part.reverse ++ chars)] := by
  induction chars generalizing part with
  | nil => simp [splitSlashes]
  | cons c chars ih =>
    obtain ⟨hc, hchars⟩ := not_or.1 (mt List.mem_cons.2 h)
    rw [splitSlashes, if_neg (Ne.symm hc), ih _ hchars]
    simp

/-- Names without slashes are what a path of them splits into. -/
theorem splitSlashes_intercalate {place : Location} (hne : place ≠ [])
    (h : ∀ name ∈ place, '/' ∉ name.toList) :
    splitSlashes [] ("/".intercalate place).toList = place := by
  induction place with
  | nil => exact absurd rfl hne
  | cons name rest ih =>
    obtain ⟨hname, hrest⟩ := List.forall_mem_cons.1 h
    cases rest with
    | nil => simp [splitSlashes_of_not_mem [] hname]
    | cons next rest =>
      rw [String.intercalate_cons_cons, String.toList_append, String.toList_append,
        List.append_assoc]
      show splitSlashes [] (name.toList ++ '/' :: ("/".intercalate (next :: rest)).toList) = _
      rw [splitSlashes_append, ih (List.cons_ne_nil _ _) hrest, splitSlashes_of_not_mem [] hname]
      simp

/-- A path below a directory has the steps of the directory and then those of the place. -/
theorem steps_joinPath (root : String) {place : Location} (hne : place ≠ [])
    (h : ∀ name ∈ place, IsEntryName name) : steps (joinPath root place) = steps root ++ place := by
  have hsplit := splitSlashes_intercalate hne fun name hname => (h name hname).2.2.2
  have hfilter : (place.filter fun part => part ≠ "" && part ≠ ".") = place :=
    List.filter_eq_self.2 fun name hname => by simp [(h name hname).1, (h name hname).2.1]
  rw [steps, steps, joinPath, String.toList_append]
  split
  · next hslash =>
    -- the slash at the end of the directory leaves an empty part, which is no step
    obtain ⟨before, hroot⟩ := List.getLast?_eq_some_iff.1 (of_decide_eq_true hslash)
    rw [hroot, List.append_assoc, List.singleton_append, splitSlashes_append, hsplit,
      splitSlashes_append, List.filter_append, List.filter_append, hfilter]
    simp [splitSlashes]
  · rw [String.toList_append, List.append_assoc]
    show (splitSlashes [] (root.toList ++ '/' :: ("/".intercalate place).toList)).filter _ = _
    rw [splitSlashes_append, hsplit, List.filter_append, hfilter]

/-! ## The directory that is searched -/

namespace Entry

/-- Where a walk ends that keeps the last name: at the same position, or at a link. -/
def EndsLike (top : Entry) (there : Position) (result : Except FileError Position) : Prop :=
  ∃ here, result = .ok here ∧ (here = there ∨ ∃ target, top.at? here = some (.link target))

theorem walk_kept {top : Entry}
    {onLink onLink' : Position → List String → Except FileError Position}
    (hlink : ∀ here steps there, onLink here steps = .ok there →
      top.EndsLike there (onLink' here steps))
    {here there : Position} {steps : List String}
    (h : top.walk .followed onLink here steps = .ok there) :
    top.EndsLike there (top.walk .kept onLink' here steps) := by
  induction steps generalizing here with
  | nil =>
    rw [walk] at h ⊢
    exact ⟨here, rfl, .inl (Except.ok.inj h)⟩
  | cons step steps ih =>
    rw [walk] at h ⊢
    cases hentry : top.at? here with
    | none => simp [hentry] at h
    | some entry =>
      rw [hentry] at h
      cases entry with
      | file content => cases h
      | link target => cases h
      | directory entries =>
        simp only at h ⊢
        by_cases hdot : step = "."
        · rw [if_pos hdot] at h ⊢
          exact ih h
        rw [if_neg hdot] at h ⊢
        by_cases hup : step = ".."
        · rw [if_pos hup] at h ⊢
          exact ih h
        rw [if_neg hup] at h ⊢
        by_cases hlong : nameLimit < step.utf8ByteSize
        · rw [if_pos hlong] at h
          cases h
        rw [if_neg hlong] at h ⊢
        cases hfound : entries.lookup step with
        | none => simp [hfound] at h
        | some found =>
          rw [hfound] at h
          cases found with
          | file content => exact ih h
          | directory inner => exact ih h
          | link target =>
            simp only [reduceCtorEq, decide_false, Bool.and_false, Bool.false_eq_true,
              if_false] at h
            simp only
            split
            · -- the link is the last name, so this walk ends at it
              refine ⟨here.child step, rfl, .inr ⟨target, ?_⟩⟩
              cases here with
              | beyond =>
                cases hentry
                cases hfound
              | within location =>
                have hget : top.get? location = some (.directory entries) := hentry
                show top.get? (location ++ [step]) = _
                rw [get?_append, hget]
                exact hfound
            · exact hlink _ _ _ h

theorem resolve_kept {top : Entry} {path : String} {there : Position}
    (h : top.resolve .followed path = .ok there) :
    top.EndsLike there (top.resolve .kept path) := by
  have hfollow : ∀ links here steps there, top.follow .followed links here steps = .ok there →
      top.EndsLike there (top.follow .kept links here steps) := by
    intro links
    induction links with
    | zero => exact fun here steps there hwalk => walk_kept (fun _ _ _ h => by cases h) hwalk
    | succ links ih => exact fun here steps there hwalk => walk_kept ih hwalk
  obtain ⟨checked, hcheck, hwalk⟩ := bind_eq_ok_iff.1 h
  rw [resolve, hcheck]
  exact hfollow linkLimit _ _ there hwalk

end Entry

/-- Where a path leads to a directory, also through links, a traversal goes into it. It begins with
an entry that is no file. -/
theorem traverse_eq_visitsFrom (passes : EntryFilter) {top : Entry} {root : String}
    {here : Position} {entries : List (String × Entry)}
    (hplace : top.resolve .followed root = .ok here)
    (hdirectory : top.at? here = some (.directory entries)) :
    ∃ entry : Entry, entry.isFile = false ∧
      traverse passes top root = visitsFrom passes root entry (.directory entries) := by
  obtain ⟨place, hkept, rfl | ⟨target, hlink⟩⟩ := Entry.resolve_kept hplace
  · refine ⟨.directory entries, rfl, ?_⟩
    simp only [traverse, hkept, Except.mapError, bind, Except.bind, hdirectory]
  · refine ⟨.link target, rfl, ?_⟩
    simp only [traverse, hkept, Except.mapError, bind, Except.bind, hlink, hplace, hdirectory,
      Option.getD_some]

/-- A traversal with the filter of a search succeeds unless the path of a directory that is searched
is too long. -/
theorem visitsFrom_eq_ok_iff {root : String} {entry inside : Entry} (h : inside.Proper)
    {visits : List Visit} :
    visitsFrom notIgnored root entry inside = .ok visits ↔
      (∀ place, IsSearched inside place → isTooLong (joinPath root place) = false) ∧
        visits = ⟨[], lastName root, entry⟩ :: inside.visits notIgnored 1 := by
  have hshort : ((((inside.visits notIgnored 1).filter (·.entry.isDirectory)).map Visit.place).map
      (joinPath root)).find? isTooLong = none ↔
        ∀ place, IsSearched inside place → isTooLong (joinPath root place) = false := by
    simp only [List.find?_eq_none, List.forall_mem_map, ← mem_searched_iff h, Bool.not_eq_true]
  have hbegin : notIgnored 0 (lastName root) entry = true := rfl
  rw [← hshort, visitsFrom, if_pos hbegin]
  dsimp only
  cases ((((inside.visits notIgnored 1).filter (·.entry.isDirectory)).map Visit.place).map
      (joinPath root)).find? isTooLong with
  | none => rw [Except.ok.injEq, and_iff_right rfl, eq_comm]
  | some path => simp

/-- A search of a directory succeeds unless a path is too long, and then it finds what it picks
below the directory, in order. -/
theorem findStylesheets_eq_ok_iff {top : Entry} {root : String} {here : Position}
    {entries : List (String × Entry)} (hentries : (Entry.directory entries).Proper)
    (hplace : top.resolve .followed root = .ok here)
    (hdirectory : top.at? here = some (.directory entries)) {found : List String} :
    findStylesheets top root = .ok found ↔
      (∀ place, IsSearched (.directory entries) place → isTooLong (joinPath root place) = false) ∧
        found = (sortPlaces (stylesheetsBelow (.directory entries))).map (joinPath root) := by
  obtain ⟨entry, hfile, htraverse⟩ := traverse_eq_visitsFrom notIgnored hplace hdirectory
  -- The entry at the path itself is not picked, and so no path is that of the search.
  have hbegin : isStylesheet (lastName root) entry = false := by rw [isStylesheet, hfile]; rfl
  have hpaths : (sortPlaces (stylesheetsBelow (.directory entries))).map (pathOf root) =
      (sortPlaces (stylesheetsBelow (.directory entries))).map (joinPath root) := by
    refine List.map_congr_left fun place hmem => ?_
    have hmem := (perm_sortPlaces _).mem_iff.1 hmem
    obtain ⟨visit, hvisit, rfl⟩ := List.mem_map.1 hmem
    have hne := Entry.place_ne_nil_of_mem_visits (List.mem_filter.1 hvisit).1
    simp [pathOf, hne]
  simp only [findStylesheets, htraverse, bind_eq_ok_iff, pure_eq_ok_iff,
    visitsFrom_eq_ok_iff hentries, and_assoc, exists_and_left, exists_eq_left]
  rw [List.filter_cons_of_neg (by simp [hbegin]), ← stylesheetsBelow, hpaths, eq_comm]

/-- The directory at a position, with its listings in another order. -/
theorem Entry.Reordered.at? {top top' : Entry} (h : Reordered top top') (hproper : top.Proper)
    {here : Position} {entries : List (String × Entry)}
    (hdirectory : top.at? here = some (.directory entries)) :
    ∃ entries', top'.at? here = some (.directory entries') ∧
      (Entry.directory entries').Proper ∧
      SameShape (.directory entries) (.directory entries') := by
  cases here with
  | beyond =>
    cases hdirectory
    exact ⟨[], rfl, .directory List.nodup_nil nofun nofun, fun _ => rfl⟩
  | within location =>
    obtain ⟨hproper', hsame⟩ := h.sameShape hproper
    have hget : top.get? location = some (.directory entries) := hdirectory
    have hshape := hsame location
    rw [hget] at hshape
    obtain ⟨entry', hget', hshape⟩ := Option.map_eq_some_iff.1 hshape
    cases entry' with
    | file | link => cases hshape
    | directory entries' =>
      refine ⟨entries', hget', hproper'.get? hget', fun place => ?_⟩
      have hbelow := hsame (location ++ place)
      rw [get?_append_place, get?_append_place, hget, hget'] at hbelow
      exact hbelow

theorem Entry.Proper.at? {top : Entry} (h : top.Proper) {here : Position} {entry : Entry}
    (hentry : top.at? here = some entry) : entry.Proper := by
  cases here with
  | within location => exact h.get? hentry
  | beyond =>
    cases hentry
    exact .directory List.nodup_nil nofun nofun

/-- A search finds the stylesheets below a directory, each once and in the order of paths, whatever
the order in which the directories list their entries. It succeeds unless the path of a directory
that has to be searched is too long. -/
theorem findStylesheets_exact {top : Entry} {root : String} {here : Position}
    {entries : List (String × Entry)} (hproper : top.Proper)
    (hplace : top.resolve .followed root = .ok here)
    (hdirectory : top.at? here = some (.directory entries)) :
    ((∃ found, findStylesheets top root = .ok found) ↔
      ∀ place, IsSearched (.directory entries) place → isTooLong (joinPath root place) = false) ∧
    ∀ found, findStylesheets top root = .ok found →
      (∀ path, path ∈ found ↔
        ∃ place, IsStylesheet (.directory entries) place ∧ path = joinPath root place) ∧
      found.Nodup ∧ found.Pairwise (fun path other => steps path < steps other) ∧
      ∀ top', Entry.Reordered top top' → findStylesheets top' root = .ok found := by
  have hentries : (Entry.directory entries).Proper := hproper.at? hdirectory
  simp only [findStylesheets_eq_ok_iff hentries hplace hdirectory]
  refine ⟨by simp, ?_⟩
  rintro _ ⟨hshort, rfl⟩
  have hmem {place : Location} : place ∈ sortPlaces (stylesheetsBelow (.directory entries)) ↔
      IsStylesheet (.directory entries) place := by
    rw [(perm_sortPlaces _).mem_iff, mem_stylesheetsBelow_iff hentries]
  have hsteps {place : Location} (h : place ∈ sortPlaces (stylesheetsBelow (.directory entries))) :
      steps (joinPath root place) = steps root ++ place := by
    have hreached := hmem.1 h
    refine steps_joinPath root ?_ (hreached.isEntryName hentries)
    rintro rfl
    exact not_reached_nil hreached
  have hsorted : ((sortPlaces (stylesheetsBelow (.directory entries))).map (joinPath root)).Pairwise
      fun path other => steps path < steps other := by
    refine List.pairwise_map.2
      ((pairwise_sortPlaces (nodup_stylesheetsBelow hentries)).imp_of_mem ?_)
    intro place other hplace hother hlt
    rw [hsteps hplace, hsteps hother]
    exact List.append_left_lt hlt
  refine ⟨fun path => ?_, hsorted.imp ?_, hsorted, fun top' hreordered => ?_⟩
  · simp [hmem, eq_comm]
  · rintro path _ hlt rfl
    exact List.lt_irrefl _ hlt
  · obtain ⟨entries', hdirectory', hentries', hsame⟩ := hreordered.at? hproper hdirectory
    have hplace' : top'.resolve .followed root = .ok here := by
      rw [Entry.resolve_congr (hreordered.sameShape hproper).2, hplace]
    rw [findStylesheets_eq_ok_iff hentries' hplace' hdirectory']
    have hlists : sortPlaces (stylesheetsBelow (.directory entries)) =
        sortPlaces (stylesheetsBelow (.directory entries')) := by
      refine sortPlaces_congr (nodup_stylesheetsBelow hentries) (nodup_stylesheetsBelow hentries')
        fun place => ?_
      rw [mem_stylesheetsBelow_iff hentries, mem_stylesheetsBelow_iff hentries']
      exact (isStylesheet_congr hsame).symm
    exact ⟨fun place h => hshort place ((isSearched_congr hsame).1 h), by rw [hlists]⟩

/-- The entries of a directory with files of several extensions, a link and build output. -/
def mixedEntries : List (String × Entry) :=
  [("b.css", .file (.text "")), ("a-b.less", .file (.text "")), (".less", .file (.text "")),
    ("a", .directory [("x.min.less", .file (.text ""))]), ("l.less", .link "a-b.less"),
    ("dist", .directory [("y.less", .file (.text ""))])]

/-- Of these, two are stylesheets, and the one inside `a` comes before `a-b.less`. -/
theorem findStylesheets_exact_mixedEntries :
    (∀ path, path ∈ ["src/a/x.min.less", "src/a-b.less"] ↔
      ∃ place, IsStylesheet (.directory mixedEntries) place ∧ path = joinPath "src" place) ∧
    ∀ top', Entry.Reordered (.directory [("src", .directory mixedEntries)]) top' →
      findStylesheets top' "src" = .ok ["src/a/x.min.less", "src/a-b.less"] := by
  have hempty : Entry.Proper (.file (.text "")) := .file _
  have hinner (name : String) (hname : IsEntryName name) :
      Entry.Proper (.directory [(name, .file (.text ""))]) :=
    .directory (by simp) (by simpa using hname) (by simpa using hempty)
  have hproper : Entry.Proper (.directory [("src", .directory mixedEntries)]) := by
    refine .directory (by simp) (by simp [IsEntryName]) ?_
    simp only [List.mem_singleton, forall_eq]
    refine .directory (by decide) (by simp [mixedEntries, IsEntryName]) ?_
    simp only [mixedEntries, List.forall_mem_cons, List.not_mem_nil, false_implies, implies_true,
      and_true]
    exact ⟨hempty, hempty, hempty, hinner _ (by simp [IsEntryName]), .link _,
      hinner _ (by simp [IsEntryName])⟩
  have hplace : Entry.resolve (.directory [("src", .directory mixedEntries)]) .followed "src" =
      .ok (.within ["src"]) := toOption_eq_some_iff.1 (by decide +kernel)
  have hfound : findStylesheets (.directory [("src", .directory mixedEntries)]) "src" =
      .ok ["src/a/x.min.less", "src/a-b.less"] := toOption_eq_some_iff.1 (by decide +kernel)
  obtain ⟨hmem, -, -, hreordered⟩ := (findStylesheets_exact hproper hplace rfl).2 _ hfound
  exact ⟨hmem, hreordered⟩

end ImportSweep.Files

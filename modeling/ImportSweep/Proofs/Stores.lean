import ImportSweep.Files.Store
import ImportSweep.Proofs.Fallible

/-!
# Places of files

Several paths may lead to one file. In a `PlacedStore` each path leads to a place, and writing over
a text changes what is read at its place and nowhere else.

Where paths do not get in each other's way, each is a place of its own. In a tree of entries the
place of a path is where the walk along it ends. A file that is written over stays a file, so all
walks go on as before (`resolve_congr`), and only the entry at that place looks different
(`map_get?_put`).
-/

namespace ImportSweep.Files

/-- A store in which paths lead to places. A text that is written over another changes what is read
at its place only. -/
class PlacedStore (σ : Type) [Store σ] where
  /-- The places of files. -/
  Place : Type
  /-- The place that a path leads to. -/
  place : σ → String → Place
  /-- All paths lead to the places that they led to. -/
  place_write {s s' : σ} {path old text : String} :
    Store.read s path = .ok old → Store.write s path text = .ok s' → place s' = place s
  /-- The text is read by each path that leads to its place. -/
  read_write {s s' : σ} {path other old text : String} :
    Store.read s path = .ok old → Store.write s path text = .ok s' →
      place s other = place s path → Store.read s' other = .ok text
  /-- What is read at other places is what was read there. -/
  read_write_of_ne {s s' : σ} {path other old text : String} :
    Store.read s path = .ok old → Store.write s path text = .ok s' →
      place s other ≠ place s path → Store.read s' other = Store.read s other
  /-- Other files can be written to as before. -/
  write_write_of_ne {s s' : σ} {path other old text new : String} :
    Store.read s path = .ok old → Store.write s path text = .ok s' →
      place s other ≠ place s path →
        ∀ e, Store.write s' other new = .error e ↔ Store.write s other new = .error e

/-- Where paths do not get in each other's way, a path is its own place. -/
instance {σ : Type} [Store σ] [LawfulStore σ] : PlacedStore σ where
  Place := String
  place _ path := path
  place_write _ _ := rfl
  read_write _ hwrite hother := hother ▸ FaithfulStore.read_write_self hwrite
  read_write_of_ne _ hwrite hne := FaithfulStore.read_write_of_ne hwrite hne
  write_write_of_ne _ hwrite hne := LawfulStore.write_write_of_ne hwrite hne

/-- The paths lead to different files. -/
def Distinct {σ : Type} [Store σ] [PlacedStore σ] (files : σ) (paths : List String) : Prop :=
  (paths.map (PlacedStore.place files)).Nodup

/-- The files behind the first are other files than the first. -/
theorem Distinct.ne_of_mem {σ : Type} [Store σ] [PlacedStore σ] {files : σ} {file path : String}
    {rest : List String} (h : Distinct files (file :: rest)) (hpath : path ∈ rest) :
    PlacedStore.place files path ≠ PlacedStore.place files file := by
  intro hsame
  refine (List.nodup_cons.1 h).1 ?_
  rw [← hsame]
  exact List.mem_map_of_mem hpath

/-- The path leads to none of the files that the paths lead to. -/
def Apart {σ : Type} [Store σ] [PlacedStore σ] (files : σ) (paths : List String) (other : String) :
    Prop :=
  PlacedStore.place files other ∉ paths.map (PlacedStore.place files)

namespace Entry

/-! ## Entries that are put in place -/

/-- What an entry is, whatever it holds. -/
inductive Shape where
  /-- A regular file. -/
  | file
  /-- A directory. -/
  | directory
  /-- A symbolic link to a path. -/
  | link (target : String)

/-- What an entry is. -/
def shape : Entry → Shape
  | file _ => .file
  | directory _ => .directory
  | link target => .link target

/-- What is read when a walk ends at an entry. -/
def held : Entry → Except FileError Content
  | file content => .ok content
  | directory _ => .error .isADirectory
  | link _ => .error .notFound

theorem lookup_cons_of_ne {name found : String} (h : name ≠ found) (entry : Entry)
    (entries : List (String × Entry)) :
    ((found, entry) :: entries).lookup name = entries.lookup name := by
  have hbeq : (name == found) = false := beq_eq_false_iff_ne.2 h
  simp [List.lookup_cons, hbeq]

theorem lookup_update (name other : String) (change : Option Entry → Entry)
    (entries : List (String × Entry)) :
    (update name change entries).lookup other =
      if other = name then some (change (entries.lookup name)) else entries.lookup other := by
  induction entries with
  | nil =>
    rw [update]
    split
    · next hother => rw [hother, List.lookup_cons_self, List.lookup_nil]
    · next hother => rw [lookup_cons_of_ne hother]
  | cons first entries ih =>
    obtain ⟨found, entry⟩ := first
    rw [update]
    by_cases hfound : found = name
    · rw [if_pos hfound, hfound]
      split
      · next hother => rw [hother, List.lookup_cons_self, List.lookup_cons_self]
      · next hother => rw [lookup_cons_of_ne hother, lookup_cons_of_ne hother]
    · rw [if_neg hfound]
      by_cases hother : other = found
      · rw [hother, if_neg hfound, List.lookup_cons_self, List.lookup_cons_self]
      · rw [lookup_cons_of_ne hother, lookup_cons_of_ne hother,
          lookup_cons_of_ne fun h => hfound h.symm, ih]

theorem get?_append (top : Entry) (location : Location) (name : String) :
    top.get? (location ++ [name]) = (top.get? location).bind (child? name) := by
  induction location generalizing top with
  | nil => simp [get?]
  | cons first location ih =>
    rw [List.cons_append, get?, get?]
    cases top.child? first with
    | none => rfl
    | some entry => exact ih entry

/-- When a file takes the place of a file, only the entry at that place looks different to one who
does not see what directories hold. -/
theorem map_get?_put {β : Type} {see : Entry → β}
    (hsee : ∀ entries entries', see (directory entries) = see (directory entries'))
    {top : Entry} {location : Location} {old : Content} (new : Content)
    (hold : top.get? location = some (file old)) (other : Location) :
    ((put (file new) location top).get? other).map see =
      if other = location then some (see (file new)) else (top.get? other).map see := by
  induction location generalizing top other with
  | nil =>
    cases Option.some.inj hold
    cases other with
    | nil => rfl
    | cons name other => rfl
  | cons name location ih =>
    -- There is a file below, so this is a directory that holds the next entry on the way.
    obtain ⟨entry, hentry, hrest⟩ := Option.bind_eq_some_iff.1 hold
    cases top with
    | file content => cases hentry
    | link target => cases hentry
    | directory entries =>
      replace hentry : entries.lookup name = some entry := hentry
      cases other with
      | nil =>
        simp only [put, get?, Option.map_some, reduceCtorEq, if_false]
        exact congrArg some (hsee _ _)
      | cons first other =>
        have hchild : (put (file new) (name :: location) (directory entries)).child? first =
            if first = name then some (put (file new) location entry)
            else entries.lookup first := by
          simp only [put, child?, lookup_update, hentry, Option.getD_some]
        rw [get?, hchild]
        by_cases hfirst : first = name
        · subst hfirst
          simp only [if_true, Option.bind_some, List.cons.injEq, true_and, ih hrest other, get?,
            child?, hentry]
        · simp only [hfirst, if_false, List.cons.injEq, false_and, get?, child?]

/-! ## Walks -/

/-- Each place has an entry in both trees or in none, and it is the same but for what it holds. -/
def SameShape (top top' : Entry) : Prop :=
  ∀ location, (top'.get? location).map shape = (top.get? location).map shape

theorem sameShape_put {top : Entry} {location : Location} {old : Content} (new : Content)
    (hold : top.get? location = some (file old)) :
    SameShape top (put (file new) location top) := by
  intro other
  rw [map_get?_put (fun _ _ => rfl) new hold other]
  split
  · next hother =>
    rw [hother, hold]
    rfl
  · rfl

/-- A step from a place in the tree depends only on the shape of the entries there. -/
theorem walk_within_cons (top : Entry) (last : LastName)
    (onLink : Position → List String → Except FileError Position) (location : Location)
    (step : String) (rest : List String) :
    top.walk last onLink (.within location) (step :: rest) =
      match (top.get? location).map shape with
      | some .directory =>
        if step = "." then top.walk last onLink (.within location) rest
        else if step = ".." then top.walk last onLink (Position.within location).parent rest
        else if nameLimit < step.utf8ByteSize then .error .nameTooLong
        else
          match (top.get? (location ++ [step])).map shape with
          | some (.link target) =>
            if rest.isEmpty && last = .kept then .ok (.within (location ++ [step]))
            else onLink (Position.startOf target (.within location)) (walkSteps target ++ rest)
          | some _ => top.walk last onLink (.within (location ++ [step])) rest
          | none =>
            if rest.isEmpty && last = .created then .ok (.within (location ++ [step]))
            else .error .notFound
      | some _ => .error .notADirectory
      | none => .error .notFound := by
  rw [walk, at?, get?_append]
  cases top.get? location with
  | none => rfl
  | some entry =>
    cases entry with
    | file content => rfl
    | link target => rfl
    | directory entries =>
      simp only [Option.map_some, shape, Option.bind_some, child?]
      cases entries.lookup step with
      | none => rfl
      | some found =>
        cases found with
        | file content => rfl
        | directory entries => rfl
        | link target => rfl

/-- A walk goes through trees of the same shape in the same way. -/
theorem walk_congr {top top' : Entry} (h : SameShape top top') (last : LastName)
    (onLink : Position → List String → Except FileError Position) (here : Position)
    (steps : List String) :
    top'.walk last onLink here steps = top.walk last onLink here steps := by
  induction steps generalizing here with
  | nil => simp only [walk]
  | cons step steps ih =>
    cases here with
    | beyond => simp only [walk, at?, List.lookup_nil, ih]
    | within location =>
      -- The step looks at the shapes of two entries, which are the same in both trees.
      rw [walk_within_cons, walk_within_cons, h location, h (location ++ [step])]
      simp only [ih]

/-- In trees of the same shape a path leads to the same position. -/
theorem resolve_congr {top top' : Entry} (h : SameShape top top') (last : LastName)
    (path : String) : top'.resolve last path = top.resolve last path := by
  have hfollow : ∀ links, top'.follow last links = top.follow last links := by
    intro links
    induction links with
    | zero =>
      funext here steps
      exact walk_congr h last _ here steps
    | succ links ih =>
      funext here steps
      rw [follow, follow, ih]
      exact walk_congr h last _ here steps
  rw [resolve, resolve, hfollow]

/-- Where a walk finds an entry, it ends there also if the entry may be missing. -/
theorem walk_created {top : Entry}
    {onLink onLink' : Position → List String → Except FileError Position}
    (hlink : ∀ here steps there, onLink here steps = .ok there → onLink' here steps = .ok there)
    {here there : Position} {steps : List String}
    (h : top.walk .followed onLink here steps = .ok there) :
    top.walk .created onLink' here steps = .ok there := by
  induction steps generalizing here with
  | nil =>
    rw [walk] at h ⊢
    exact h
  | cons step steps ih =>
    rw [walk] at h ⊢
    generalize top.at? here = entry? at h ⊢
    cases entry? with
    | none => cases h
    | some entry =>
      cases entry with
      | file content => cases h
      | link target => cases h
      | directory entries =>
        simp only at h ⊢
        by_cases hdot : step = "."
        · rw [if_pos hdot] at h ⊢
          exact ih h
        rw [if_neg hdot] at h ⊢
        by_cases hup : step = ".."
        · rw [if_pos hup] at h ⊢
          exact ih h
        rw [if_neg hup] at h ⊢
        by_cases hlong : nameLimit < step.utf8ByteSize
        · rw [if_pos hlong] at h
          cases h
        rw [if_neg hlong] at h ⊢
        -- The two walks differ where there is no entry, and there this one has failed.
        generalize entries.lookup step = found? at h ⊢
        cases found? with
        | none => simp at h
        | some found =>
          cases found with
          | file content => exact ih h
          | directory entries => exact ih h
          | link target =>
            simp only [reduceCtorEq, decide_false, Bool.and_false, Bool.false_eq_true,
              if_false] at h ⊢
            exact hlink _ _ _ h

/-- A path that leads to an entry leads to it also for a write. -/
theorem resolve_created {top : Entry} {path : String} {there : Position}
    (h : top.resolve .followed path = .ok there) : top.resolve .created path = .ok there := by
  have hfollow : ∀ links here steps there, top.follow .followed links here steps = .ok there →
      top.follow .created links here steps = .ok there := by
    intro links
    induction links with
    | zero =>
      intro here steps there hwalk
      refine walk_created ?_ hwalk
      intro _ _ _ hlink
      cases hlink
    | succ links ih =>
      intro here steps there hwalk
      exact walk_created ih hwalk
  obtain ⟨checked, hcheck, hwalk⟩ := bind_eq_ok_iff.1 h
  exact bind_eq_ok_iff.2 ⟨checked, hcheck, hfollow linkLimit _ _ there hwalk⟩

/-! ## Reading and writing -/

theorem contentAt_eq (top : Entry) (path : String) :
    top.contentAt path = (do
      let here ← top.resolve .followed path
      ((top.at? here).map held).getD (.error .notFound)) := by
  rw [contentAt]
  cases top.resolve .followed path with
  | error e => rfl
  | ok here =>
    simp only [bind, Except.bind]
    cases top.at? here with
    | none => rfl
    | some entry =>
      cases entry with
      | file content => rfl
      | directory entries => rfl
      | link target => rfl

/-- A text that is read stands in a file at the place of its path. -/
theorem exists_file_of_read {top : Entry} {path text : String} (h : top.read path = .ok text) :
    ∃ location, top.resolve .followed path = .ok (.within location) ∧
      top.get? location = some (file (.text text)) := by
  obtain ⟨content, hcontent, htext⟩ := bind_eq_ok_iff.1 h
  rw [contentAt_eq] at hcontent
  obtain ⟨here, hplace, hheld⟩ := bind_eq_ok_iff.1 hcontent
  cases content with
  | binary bytes => cases htext
  | text held' =>
    cases pure_eq_ok_iff.1 htext
    cases here with
    | beyond => cases hheld
    | within location =>
      refine ⟨location, hplace, ?_⟩
      simp only [at?] at hheld
      generalize top.get? location = entry? at hheld ⊢
      cases entry? with
      | none => cases hheld
      | some entry =>
        cases entry with
        | file content => cases hheld; rfl
        | directory entries => cases hheld
        | link target => cases hheld

/-- Writing over a text puts a file in the place of a file. -/
theorem write_of_read {top top' : Entry} {path old text : String}
    (hread : top.read path = .ok old) (hwrite : top.write path text = .ok top') :
    ∃ location, top.resolve .followed path = .ok (.within location) ∧
      top.get? location = some (file (.text old)) ∧
      top' = put (file (.text text)) location top := by
  obtain ⟨location, hplace, hfile⟩ := exists_file_of_read hread
  refine ⟨location, hplace, hfile, ?_⟩
  rw [write, resolve_created hplace] at hwrite
  simp only [bind, Except.bind, hfile, pure_eq_ok_iff] at hwrite
  exact hwrite.symm

/-- When a file takes the place of a file, the paths that lead there find what it holds, and other
paths find what they found. -/
theorem contentAt_put {top : Entry} {location : Location} {old : Content} (new : Content)
    (hold : top.get? location = some (file old)) (path : String) :
    (put (file new) location top).contentAt path =
      if top.resolve .followed path = .ok (.within location) then .ok new
      else top.contentAt path := by
  rw [contentAt_eq, contentAt_eq, resolve_congr (sameShape_put new hold)]
  cases top.resolve .followed path with
  | error e => rfl
  | ok here =>
    cases here with
    | beyond => rfl
    | within other =>
      have hheld : ((put (file new) location top).get? other).map held = _ :=
        map_get?_put (fun _ _ => rfl) new hold other
      simp only [bind, Except.bind, at?, hheld, Except.ok.injEq, Position.within.injEq]
      split
      · rfl
      · rfl

/-- A write fails if the path cannot be walked along, or if it leads to a directory. -/
theorem write_eq_error_iff {top : Entry} {path text : String} {e : FileError} :
    top.write path text = .error e ↔
      top.resolve .created path = .error e ∨
        e = .isADirectory ∧ (top.resolve .created path = .ok .beyond ∨
          ∃ location, top.resolve .created path = .ok (.within location) ∧
            (top.get? location).map shape = some .directory) := by
  rw [write]
  cases top.resolve .created path with
  | error e' => simp [bind, Except.bind]
  | ok here =>
    cases here with
    | beyond => simp [bind, Except.bind, eq_comm]
    | within location =>
      simp only [bind, Except.bind, reduceCtorEq, false_or, Except.ok.injEq,
        Position.within.injEq, exists_eq_left']
      cases top.get? location with
      | none => simp [pure, Except.pure]
      | some entry =>
        cases entry with
        | file content => simp [shape, pure, Except.pure]
        | directory entries => simp [shape, eq_comm]
        | link target => simp [shape, pure, Except.pure]

end Entry

instance : PlacedStore Entry where
  Place := Except FileError Position
  place top path := top.resolve .followed path
  place_write hread hwrite := by
    obtain ⟨location, -, hfile, rfl⟩ := Entry.write_of_read hread hwrite
    funext path
    exact Entry.resolve_congr (Entry.sameShape_put _ hfile) .followed path
  read_write hread hwrite hother := by
    obtain ⟨location, hplace, hfile, rfl⟩ := Entry.write_of_read hread hwrite
    simp only [Store.read, Entry.read, Entry.contentAt_put _ hfile, hother.trans hplace, if_true]
    rfl
  read_write_of_ne hread hwrite hne := by
    obtain ⟨location, hplace, hfile, rfl⟩ := Entry.write_of_read hread hwrite
    have hother : ¬ _ = _ := fun h => hne (h.trans hplace.symm)
    simp only [Store.read, Entry.read, Entry.contentAt_put _ hfile, hother, if_false]
  write_write_of_ne {_ _ _ _ _ text _} hread hwrite _ e := by
    obtain ⟨location, -, hfile, rfl⟩ := Entry.write_of_read hread hwrite
    have hshape := Entry.sameShape_put (.text text) hfile
    refine Entry.write_eq_error_iff.trans (Iff.trans ?_ Entry.write_eq_error_iff.symm)
    simp only [Entry.resolve_congr hshape, hshape _]

end ImportSweep.Files

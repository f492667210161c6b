import ImportSweep.Files.Walk

/-!
# Traversing directories

A traversal comes to the entry at a path and then to all that is below it, each entry before those
inside of it and the entries of a directory in the order in which they are listed. A filter is asked
about each entry: one that it does not pass is left out, with everything below it. Links are visited
but not followed, except for one where the traversal begins. The traversal fails if the path leads
nowhere, or if the path of a directory below is too long to be read.
-/

namespace ImportSweep.Files

/-- A path that cannot be searched. -/
structure SearchError where
  /-- The path. -/
  path : String
  /-- The reason. -/
  cause : FileError

/-- The wording of an error. -/
def SearchError.message (e : SearchError) : String :=
  "IO error for operation on " ++ e.path ++ ": " ++ e.cause.message

/-- A path below a directory that is itself given by a path. -/
def joinPath (root : String) (place : Location) : String :=
  (if endsInSlash root then root else root ++ "/") ++ "/".intercalate place

/-- The last name of a path. -/
def lastName (path : String) : String :=
  (steps path).getLast?.getD ""

/-- An entry that a traversal comes to. -/
structure Visit where
  /-- The names that lead to the entry from where the traversal began. -/
  place : Location
  /-- The name of the entry. -/
  name : String
  /-- The entry. -/
  entry : Entry

/-- The visit as it is from the directory above. -/
def Visit.under (directory : String) (visit : Visit) : Visit :=
  { visit with place := directory :: visit.place }

/-- What a filter is asked about: the depth of an entry, its name and the entry. -/
abbrev EntryFilter := Nat → String → Entry → Bool

namespace Entry

mutual

/-- The visits below an entry, whose own entries have that depth. -/
def visits (passes : EntryFilter) (depth : Nat) : Entry → List Visit
  | directory entries => visitsIn passes depth entries
  | file _ | link _ => []

/-- The visits to the entries of a directory and below them. -/
def visitsIn (passes : EntryFilter) (depth : Nat) : List (String × Entry) → List Visit
  | [] => []
  | (name, entry) :: rest =>
    (if passes depth name entry then
      ⟨[name], name, entry⟩ :: (visits passes (depth + 1) entry).map (Visit.under name)
    else []) ++ visitsIn passes depth rest

end

end Entry

/-- The visit to the entry at a path, and then those below `inside`. -/
def visitsFrom (passes : EntryFilter) (root : String) (entry inside : Entry) :
    Except SearchError (List Visit) :=
  if passes 0 (lastName root) entry then
    let below := inside.visits passes 1
    -- A directory is read by its path, and so the path has to be short enough.
    let directories := (below.filter (·.entry.isDirectory)).map Visit.place
    match (directories.map (joinPath root)).find? isTooLong with
    | some path => .error ⟨path, .nameTooLong⟩
    | none => .ok (⟨[], lastName root, entry⟩ :: below)
  else .ok []

/-- The visits of a traversal that begins at a path. -/
def traverse (passes : EntryFilter) (top : Entry) (root : String) :
    Except SearchError (List Visit) := do
  let fail := fun cause => SearchError.mk root cause
  let here ← (top.resolve .kept root).mapError fail
  match top.at? here with
  | some (.link target) =>
    -- The visit is to the link, but the traversal goes on where the link leads.
    let there ← (top.resolve .followed root).mapError fail
    visitsFrom passes root (.link target) ((top.at? there).getD (.link target))
  | some entry => visitsFrom passes root entry entry
  | none => .error (fail .notFound)

end ImportSweep.Files

import ImportSweep.Files.Traversal

/-!
# Finding stylesheets

The stylesheets at or below a path: regular files with the extension `less`, except in directories
that hold dependencies or build output. Of what a traversal visits these are picked by two tests on
names and kinds of entries. The result is in the order of paths, compared name by name.
-/

namespace ImportSweep.Files

/-- Names of directories that hold dependencies or build output. -/
def ignoredNames : List String :=
  ["node_modules", ".git", "dist", "build", "coverage", "bower_components"]

/-- A directory that is left out. Where the search begins, the name does not matter. -/
def isIgnoredDirectory (depth : Nat) (name : String) (entry : Entry) : Bool :=
  depth ≠ 0 && entry.isDirectory && ignoredNames.contains name

/-- The filter of a search: it passes all entries but ignored directories. -/
def notIgnored : EntryFilter :=
  fun depth name entry => !isIgnoredDirectory depth name entry

/-- The name of a stylesheet: the part after the last dot is `less`, and something stands before
that dot. -/
def isStylesheetName (name : String) : Bool :=
  match name.toList.reverse with
  | 's' :: 's' :: 'e' :: 'l' :: '.' :: _ :: _ => true
  | _ => false

/-- A regular file with the name of a stylesheet. -/
def isStylesheet (name : String) (entry : Entry) : Bool :=
  entry.isFile && isStylesheetName name

/-- Puts a place in order among places. -/
def insertPlace (place : Location) : List Location → List Location
  | [] => [place]
  | first :: rest =>
    if first < place then first :: insertPlace place rest else place :: first :: rest

/-- Places in order, compared name by name. -/
def sortPlaces : List Location → List Location
  | [] => []
  | place :: rest => insertPlace place (sortPlaces rest)

/-- The path of a place; the path itself where the search begins. -/
def pathOf (root : String) (place : Location) : String :=
  if place.isEmpty then root else joinPath root place

/-- The stylesheets at or below a path. -/
def findStylesheets (top : Entry) (root : String) : Except SearchError (List String) := do
  let visits ← traverse notIgnored top root
  let found := visits.filter fun visit => isStylesheet visit.name visit.entry
  return (sortPlaces (found.map Visit.place)).map (pathOf root)

end ImportSweep.Files

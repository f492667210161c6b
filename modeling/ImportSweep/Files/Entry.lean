import ImportSweep.Text.Utf8

/-!
# Entries of directories

A file system is a tree of entries. Files hold text, or bytes that are no text. An entry is found
by the names that lead to it from the top of the tree.
-/

namespace ImportSweep.Files

/-- What a file holds. -/
inductive Content where
  /-- A text. -/
  | text (text : String)
  /-- Bytes that are no text. -/
  | binary (bytes : List UInt8)
  deriving DecidableEq

/-- What bytes are as the content of a file. -/
def Content.ofBytes (bytes : List UInt8) : Content :=
  match Text.decode? bytes with
  | some decoded => .text decoded
  | none => .binary bytes

/-- An entry of a directory. -/
inductive Entry where
  /-- A regular file. -/
  | file (content : Content)
  /-- A directory with its named entries. -/
  | directory (entries : List (String × Entry))
  /-- A symbolic link to a path. -/
  | link (target : String)

/-- The place of an entry: the names that lead to it from the top. -/
abbrev Location := List String

namespace Entry

/-- The entry of that name. -/
def child? (name : String) : Entry → Option Entry
  | directory entries => entries.lookup name
  | file _ | link _ => none

/-- The entry is a directory. -/
def isDirectory : Entry → Bool
  | directory _ => true
  | file _ | link _ => false

/-- The entry is a regular file. -/
def isFile : Entry → Bool
  | file _ => true
  | directory _ | link _ => false

/-- The entry at a place. -/
def get? : Location → Entry → Option Entry
  | [], entry => some entry
  | name :: rest, entry => (entry.child? name).bind (get? rest)

/-- Changes the first entry of a name, or adds one at the end. -/
def update (name : String) (change : Option Entry → Entry) :
    List (String × Entry) → List (String × Entry)
  | [] => [(name, change none)]
  | (other, entry) :: rest =>
    if other = name then (name, change (some entry)) :: rest
    else (other, entry) :: update name change rest

/-- Puts an entry at a place. Directories that are missing on the way are made. -/
def put (new : Entry) : Location → Entry → Entry
  | [], _ => new
  | name :: rest, entry =>
    let inside := match entry with
      | directory entries => entries
      | file _ | link _ => []
    directory (update name (fun old => put new rest (old.getD (directory []))) inside)

end Entry

end ImportSweep.Files

import ImportSweep.Files.Entry
import ImportSweep.Files.Path

/-!
# Walking along paths

A path is walked step by step from the working directory, which is the top of the tree. A link on
the way is replaced by the steps of its target; only so many links are followed for one path. A
step up from the top leads out of the tree, and so does an absolute path; the directories there
look empty.

`Entry.read` and `Entry.write` are the two ways to use a file. A write stores the whole text or
changes nothing.
-/

namespace ImportSweep.Files

/-- Where a walk has come to. -/
inductive Position where
  /-- A place in the tree. -/
  | within (location : Location)
  /-- Somewhere out of the tree. -/
  | beyond
  deriving DecidableEq, Repr

namespace Position

/-- One step up. -/
def parent : Position → Position
  | within [] | beyond => beyond
  | within location => within location.dropLast

/-- One step down, to an entry of that name. -/
def child (name : String) : Position → Position
  | within location => within (location ++ [name])
  | beyond => beyond

/-- Where a walk along a path begins that is met at a position. -/
def startOf (path : String) (here : Position) : Position :=
  if isAbsolute path then beyond else here

end Position

/-- What becomes of the last name of a path. -/
inductive LastName where
  /-- The walk ends at the entry of that name, also if it is a link. -/
  | kept
  /-- A link of that name is followed. -/
  | followed
  /-- A link of that name is followed, and there need not be an entry of that name yet. -/
  | created
  deriving DecidableEq, Repr

namespace Entry

/-- The entry at a position. -/
def at? (top : Entry) : Position → Option Entry
  | .within location => top.get? location
  | .beyond => some (directory [])

/-- Walks from a position until the steps end or a link has to be followed; `onLink` goes on from
there, with the start of the target and the steps that remain. -/
def walk (top : Entry) (last : LastName)
    (onLink : Position → List String → Except FileError Position) :
    Position → List String → Except FileError Position
  | here, [] => .ok here
  | here, step :: rest =>
    match top.at? here with
    | some (directory entries) =>
      if step = "." then walk top last onLink here rest
      else if step = ".." then walk top last onLink here.parent rest
      else if nameLimit < step.utf8ByteSize then .error .nameTooLong
      else
        match entries.lookup step with
        | some (link target) =>
          if rest.isEmpty && last = .kept then .ok (here.child step)
          else onLink (here.startOf target) (walkSteps target ++ rest)
        | some _ => walk top last onLink (here.child step) rest
        | none =>
          if rest.isEmpty && last = .created then .ok (here.child step) else .error .notFound
    | some _ => .error .notADirectory
    | none => .error .notFound

/-- Walks from a position and follows at most `links` links. -/
def follow (top : Entry) (last : LastName) (links : Nat) :
    Position → List String → Except FileError Position :=
  match links with
  | 0 => top.walk last fun _ _ => .error .tooManyLinks
  | links + 1 => top.walk last (follow top last links)

/-- The most links that are followed for one path. -/
def linkLimit : Nat := 40

/-- The position that a path leads to. -/
def resolve (top : Entry) (last : LastName) (path : String) : Except FileError Position := do
  checkPath path
  top.follow last linkLimit (Position.startOf path (.within [])) (walkSteps path)

/-- The path leads to a directory. -/
def isDirectoryAt (top : Entry) (path : String) : Bool :=
  match top.resolve .followed path with
  | .ok here => (top.at? here).elim false isDirectory
  | .error _ => false

/-- The content of the file that a path leads to. -/
def contentAt (top : Entry) (path : String) : Except FileError Content := do
  let here ← top.resolve .followed path
  match top.at? here with
  | some (file content) => return content
  | some (directory _) => .error .isADirectory
  | some (link _) | none => .error .notFound

/-- Reads the text of a file. -/
def read (top : Entry) (path : String) : Except FileError String := do
  match ← top.contentAt path with
  | .text text => return text
  | .binary _ => .error .notText

/-- The file system after a text was written to a file, which is made if its directory exists. -/
def write (top : Entry) (path text : String) : Except FileError Entry := do
  match ← top.resolve .created path with
  | .within location =>
    match top.get? location with
    | some (directory _) => .error .isADirectory
    | _ => return put (file (.text text)) location top
  | .beyond => .error .isADirectory

end Entry

end ImportSweep.Files

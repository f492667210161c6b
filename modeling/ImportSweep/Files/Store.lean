import ImportSweep.Files.Discovery

/-!
# Stores of files

What the program asks of a file system. A write either stores the whole text or fails, and then
there is no new state, so nothing has changed. Trees of entries are stores; `TextMap` is the
plainest store, a map from paths to texts.
-/

namespace ImportSweep.Files

/-- A file system with states of type `σ`. -/
class Store (σ : Type) where
  /-- Reads the text of a file. -/
  read : σ → String → Except FileError String
  /-- The state after a text was written to a file. -/
  write : σ → String → String → Except FileError σ
  /-- The path leads to a directory. -/
  isDirectory : σ → String → Bool
  /-- The stylesheets below a path. -/
  stylesheets : σ → String → Except SearchError (List String)

instance : Store Entry where
  read := Entry.read
  write := Entry.write
  isDirectory := Entry.isDirectoryAt
  stylesheets := findStylesheets

/-- A store that keeps what is written to a path, and nothing else changes. -/
class FaithfulStore (σ : Type) [Store σ] : Prop where
  /-- A text that was written is read back. -/
  read_write_self {s s' : σ} {path text : String} :
    Store.write s path text = .ok s' → Store.read s' path = .ok text
  /-- Other paths are as before. -/
  read_write_of_ne {s s' : σ} {path other text : String} :
    Store.write s path text = .ok s' → other ≠ path → Store.read s' other = Store.read s other

/-- A faithful store in which the paths do not get in each other's way. -/
class LawfulStore (σ : Type) [Store σ] : Prop extends FaithfulStore σ where
  /-- Whether a path can be written to does not depend on what other paths hold. -/
  write_write_of_ne {s s' : σ} {path other text new : String} :
    Store.write s path text = .ok s' → other ≠ path →
      ∀ e, Store.write s' other new = .error e ↔ Store.write s other new = .error e

/-- A map from paths to texts, with some paths that cannot be written to. -/
structure TextMap where
  /-- What reading a path gives. -/
  content : String → Except FileError String
  /-- Why a path cannot be written to. -/
  refusal : String → Option FileError
  /-- The paths that lead to directories. -/
  directories : List String
  /-- The stylesheets below a directory. -/
  listing : String → Except SearchError (List String)

/-- The map after a text was written to a path. -/
def TextMap.write (m : TextMap) (path text : String) : Except FileError TextMap :=
  match m.refusal path with
  | some e => .error e
  | none =>
    .ok { m with content := fun other => if other = path then .ok text else m.content other }

instance : Store TextMap where
  read := TextMap.content
  write := TextMap.write
  isDirectory m path := m.directories.contains path
  stylesheets := TextMap.listing

theorem TextMap.write_eq_ok {m m' : TextMap} {path text : String} (h : m.write path text = .ok m') :
    m' = { m with content := fun other => if other = path then .ok text else m.content other } := by
  unfold TextMap.write at h
  split at h
  · cases h
  · cases h
    rfl

instance : LawfulStore TextMap where
  read_write_self h := by
    rw [TextMap.write_eq_ok h]
    simp [Store.read]
  read_write_of_ne h hne := by
    rw [TextMap.write_eq_ok h]
    simp [Store.read, hne]
  write_write_of_ne {s s' path other text new} h hne := by
    rw [TextMap.write_eq_ok h]
    simp only [Store.write, TextMap.write]
    cases s.refusal other <;> simp

end ImportSweep.Files

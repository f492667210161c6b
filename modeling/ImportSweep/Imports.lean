import ImportSweep.Names.Exported
import ImportSweep.Names.Used

/-!
# Imports

The imports of a file, the names they bring in, and which of them bring in nothing that the file
uses.
-/

namespace ImportSweep

open ImportSweep.Tree ImportSweep.Names

/-- An `@import` of a tree. -/
structure ImportStatement where
  /-- Where it begins. -/
  index : Option Nat
  /-- What is imported. -/
  path : Value
  /-- The options in parentheses. -/
  options : ImportOptions
  /-- The imported tree, if the import is resolved. -/
  root : Option Node
  /-- The file that was found for it. -/
  importedFilename : Option String

/-- The import that a node is. -/
def ImportStatement.ofNode? (n : Node) : Option ImportStatement :=
  match n.body with
  | .importRule path _ options root importedFilename =>
    some ⟨n.index, path, options, root, importedFilename⟩
  | _ => none

mutual

/-- The path that a value gives, without quotes or `url()`. -/
def pathName? : Value → Option String
  | .text text => some text
  | .node n => pathNameOfNode? n
  | .list _ | .number _ | .flag _ | .null => none

/-- The path that a node gives. -/
def pathNameOfNode? : Node → Option String
  | ⟨_, .quoted value _ _⟩ => pathName? value
  | ⟨_, .url value⟩ => pathName? value
  | ⟨_, .anonymous value⟩ => pathName? value
  | _ => none

end

namespace ImportStatement

/-- The path as written, if it is a text. -/
def pathName? (statement : ImportStatement) : Option String :=
  ImportSweep.pathName? statement.path

/-- The path as written, for messages. -/
def pathName (statement : ImportStatement) : String :=
  statement.pathName?.getD ""

end ImportStatement

/-- The imports of a tree in the order of the text. Those of imported files do not count. -/
def imports (root : Node) : List ImportStatement :=
  (root.preorder false).filterMap ImportStatement.ofNode?

/-- An import with the names that it brings in. -/
structure ImportSupply where
  /-- The import. -/
  statement : ImportStatement
  /-- Names that the imported tree exports; none if the import is not resolved. -/
  names : NameSet
  /-- The import is resolved. -/
  resolved : Bool

/-- The names that an import brings in. -/
def importSupply (statement : ImportStatement) : Except TreeError ImportSupply :=
  match statement.root with
  | some tree => do return ⟨statement, ← exportedNames tree, true⟩
  | none => .ok ⟨statement, .empty, false⟩

/-- The imports of a tree with the names that they bring in. -/
def importSupplies (root : Node) : Except TreeError (List ImportSupply) :=
  (imports root).mapM importSupply

/-- An import is unused: it is resolved, a candidate, and brings in no name that is used. With
`referenceOnly` only imports for reference are candidates, because others also bring in rules. -/
def ImportSupply.isUnused (referenceOnly : Bool) (used : NameSet) (i : ImportSupply) : Bool :=
  i.resolved && (!referenceOnly || i.statement.options.reference) && i.names.disjoint used

/-- The unused imports of a tree, in the order of the text. -/
def unusedImports (referenceOnly : Bool) (root : Node) :
    Except TreeError (List ImportStatement) := do
  let used ← usedNames root
  let available ← importSupplies root
  return (available.filter (·.isUnused referenceOnly used)).map (·.statement)

end ImportSweep

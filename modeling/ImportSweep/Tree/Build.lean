import ImportSweep.Text.Blank
import ImportSweep.Tree.Node

/-!
# Building trees

Trees as the parser of the stylesheet language makes them for common pieces of source.
-/

namespace ImportSweep.Tree.Build

/-- A file with its rules. -/
def root (rules : List Node) : Node :=
  .of (.ruleset none rules true)

/-- What joins two elements of a selector. -/
def combinator (value : String) : Node :=
  .of (.combinator (.text value))

/-- A selector element such as `.btn` or `#nav`. -/
def element (value : String) : Node :=
  .of (.element (some (combinator "")) (.text value) false)

/-- A selector with the given elements. -/
def selectorOf (elements : List String) : Node :=
  .of (.selector (elements.map element) [] .null)

/-- A selector whose elements are separated by white space. -/
def selector (text : String) : Node :=
  selectorOf (Text.words text)

/-- A block of rules with its selectors. -/
def ruleset (selectors : List String) (rules : List Node) : Node :=
  .of (.ruleset (some (selectors.map selector)) rules false)

/-- A keyword. -/
def keyword (value : String) : Node :=
  .of (.keyword (.text value))

/-- Text that was not analysed further. -/
def anonymous (value : String) : Node :=
  .of (.anonymous (.text value))

/-- A text in single quotes. -/
def quoted (value : String) : Node :=
  .of (.quoted (.text value) (some "'") false)

/-- A comment; one that begins with two slashes ends with its line. -/
def comment (value : String) : Node :=
  .of (.comment (.text value) ("//".toList.isPrefixOf value.toList))

/-- A value that is one expression. -/
def value (items : List Node) : Node :=
  .of (.valueList (.list [.node (.of (.expression (.list (items.map .node))))]))

/-- The definition of a variable. -/
def variableDeclaration (name : String) (value : Node) : Node :=
  .of (.declaration (.text name) (.node value) true)

/-- A property. -/
def property (name : String) (value : Node) : Node :=
  .of (.declaration (.parts [keyword name]) (.node value) false)

/-- The use of a variable. -/
def variableUse (name : String) : Node :=
  .of (.variableUse name)

/-- The call of a detached block or map. -/
def variableCall (name : String) : Node :=
  .of (.variableCall name)

/-- A look-up in a map. -/
def namespaceValue (map : String) (lookups : List String) : Node :=
  .of (.namespaceValue (variableCall map) lookups)

/-- A block bound to a variable. -/
def detachedRuleset (rules : List Node) : Node :=
  .of (.detachedRuleset (.of (.ruleset none rules false)))

/-- The definition of a mixin without parameters. -/
def mixinDefinition (name : String) (rules : List Node) : Node :=
  .of (.mixinDefinition name [selector name] [] none rules false)

/-- The use of a mixin, given by the elements of its selector. -/
def mixinCall (path : List String) : Node :=
  .of (.mixinCall (selectorOf path) [])

/-- An `:extend(...)` with its targets. -/
def extend (targets : List String) : Node :=
  .of (.extend (selectorOf targets) none)

/-- An `@import`, with the imported tree if it is resolved. -/
def importRule (path : String) (tree : Option Node) (reference : Bool) : Node :=
  .of (.importRule (.node (quoted path)) .null { reference := reference } tree none)

end ImportSweep.Tree.Build

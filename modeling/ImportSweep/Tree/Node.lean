import ImportSweep.Tree.Kind

/-!
# Nodes of a stylesheet's syntax tree

A node has an offset into the text and a body, which fixes its kind. Only the members that hold
nodes or names are kept. Many members are loosely typed (`Value`): a text, a number, a node or a
list of such things, depending on how the node came about.

`Node.children` lists the nodes directly below a node, in the order of its members.
-/

namespace ImportSweep.Tree

/-- The options in parentheses after `@import`. -/
structure ImportOptions where
  /-- Only the names are wanted. -/
  reference : Bool := false
  /-- The file is included as it is. -/
  inline : Bool := false
  /-- The file is CSS. -/
  css : Bool := false
  /-- The file is LESS. -/
  less : Bool := false
  /-- The file may be missing. -/
  optional : Bool := false
  /-- The file may be included again. -/
  multiple : Bool := false
  deriving DecidableEq, Repr

mutual

/-- A loosely typed member. -/
inductive Value where
  /-- A node. -/
  | node (node : Node)
  /-- A list. -/
  | list (items : List Value)
  /-- A plain text. -/
  | text (text : String)
  /-- A number. -/
  | number (number : Float)
  /-- A truth value. -/
  | flag (flag : Bool)
  /-- Nothing. -/
  | null

/-- A node of a syntax tree. -/
structure Node where
  /-- Where the node begins, in UTF-16 units of the normalised text. -/
  index : Option Nat
  /-- The kind and its members. -/
  body : Body

/-- The name of a declaration: a plain text for a variable, parts for a property. -/
inductive DeclaredName where
  /-- A plain text. -/
  | text (text : String)
  /-- Parts, some of which may be interpolated. -/
  | parts (parts : List Node)

/-- An argument of a mixin call. -/
structure Argument where
  /-- The name, if it is passed by name. -/
  name : Option String
  /-- The value passed. -/
  value : Value

/-- A parameter of a mixin definition. -/
structure Parameter where
  /-- The name, or nothing for a pattern. -/
  name : Option String
  /-- The default, or the pattern. -/
  value : Value
  /-- Takes all arguments that are left. -/
  variadic : Bool

/-- The kind of a node with its members. -/
inductive Body where
  /-- Text that was not analysed further. -/
  | anonymous (value : Value)
  /-- A `key=value` pair inside a function call. -/
  | assignment (key value : Value)
  /-- An at-rule other than `@import` and `@media`. -/
  | atRule (name : Option String) (value : Value) (rules : List Node)
  /-- An attribute selector. -/
  | attributeSelector (key : Value) (op : Option String) (value : Value)
  /-- A function call. -/
  | call (name : String) (args : List Value)
  /-- A colour. -/
  | color (value : Value)
  /-- What joins two elements of a selector. -/
  | combinator (value : Value)
  /-- A comment. -/
  | comment (value : Value) (isLineComment : Bool)
  /-- A guard. -/
  | condition (op : Option String) (lvalue rvalue : Value) (negate : Bool)
  /-- A property, or the definition of a variable. -/
  | declaration (name : DeclaredName) (value : Value) (isVariable : Bool)
  /-- A block bound to a variable. -/
  | detachedRuleset (ruleset : Node)
  /-- A number with a unit. -/
  | dimension (value : Value) (unit : Option Node)
  /-- One compound part of a selector. -/
  | element (combinator : Option Node) (value : Value) (isVariable : Bool)
  /-- Values side by side. -/
  | expression (value : Value)
  /-- An `:extend(...)`. -/
  | extend (selector : Node) (option : Option String)
  /-- An `@import`, with the imported tree once it is resolved. -/
  | importRule (path features : Value) (options : ImportOptions) (root : Option Node)
      (importedFilename : Option String)
  /-- An inline script. -/
  | javaScript (expression : Value)
  /-- A keyword. -/
  | keyword (value : Value)
  /-- A `@media` block. -/
  | media (features : Value) (rules : List Node)
  /-- The use of a mixin. -/
  | mixinCall (selector : Node) (arguments : List Argument)
  /-- The definition of a mixin. -/
  | mixinDefinition (name : String) (selectors : List Node) (params : List Parameter)
      (condition : Option Node) (rules : List Node) (variadic : Bool)
  /-- A look-up in a map or namespace. -/
  | namespaceValue (value : Node) (lookups : List String)
  /-- A value with a minus sign. -/
  | negative (value : Value)
  /-- An arithmetic operation. -/
  | operation (op : Option String) (operands : List Value)
  /-- A value in parentheses. -/
  | paren (value : Value)
  /-- The use of a property as a value. -/
  | property (name : String)
  /-- A quoted text. -/
  | quoted (value : Value) (quote : Option String) (escaped : Bool)
  /-- A block of rules; the file itself is one. -/
  | ruleset (selectors : Option (List Node)) (rules : List Node) (isRoot : Bool)
  /-- A selector. -/
  | selector (elements extendList : List Node) (condition : Value)
  /-- A range of code points. -/
  | unicodeDescriptor (value : Value)
  /-- A unit of measure. -/
  | unit (numerator denominator : List String) (backupUnit : Option String)
  /-- A `url(...)`. -/
  | url (value : Value)
  /-- Expressions separated by commas. -/
  | valueList (value : Value)
  /-- The use of a variable. -/
  | variableUse (name : String)
  /-- The call of a detached block or map. -/
  | variableCall (name : String)

end

/-- The kind of a body. -/
def Body.kind : Body → Kind
  | .anonymous .. => .anonymous
  | .assignment .. => .assignment
  | .atRule .. => .atRule
  | .attributeSelector .. => .attributeSelector
  | .call .. => .call
  | .color .. => .color
  | .combinator .. => .combinator
  | .comment .. => .comment
  | .condition .. => .condition
  | .declaration .. => .declaration
  | .detachedRuleset .. => .detachedRuleset
  | .dimension .. => .dimension
  | .element .. => .element
  | .expression .. => .expression
  | .extend .. => .extend
  | .importRule .. => .importRule
  | .javaScript .. => .javaScript
  | .keyword .. => .keyword
  | .media .. => .media
  | .mixinCall .. => .mixinCall
  | .mixinDefinition .. => .mixinDefinition
  | .namespaceValue .. => .namespaceValue
  | .negative .. => .negative
  | .operation .. => .operation
  | .paren .. => .paren
  | .property .. => .property
  | .quoted .. => .quoted
  | .ruleset .. => .ruleset
  | .selector .. => .selector
  | .unicodeDescriptor .. => .unicodeDescriptor
  | .unit .. => .unit
  | .url .. => .url
  | .valueList .. => .valueList
  | .variableUse .. => .variableUse
  | .variableCall .. => .variableCall

theorem Body.exists_of_kind_eq_element {body : Body} (h : body.kind = .element) :
    ∃ join value isVariable, body = .element join value isVariable := by
  cases body <;> cases h
  exact ⟨_, _, _, rfl⟩

theorem Body.exists_of_kind_eq_extend {body : Body} (h : body.kind = .extend) :
    ∃ selector option, body = .extend selector option := by
  cases body <;> cases h
  exact ⟨_, _, rfl⟩

theorem Body.exists_of_kind_eq_mixinCall {body : Body} (h : body.kind = .mixinCall) :
    ∃ selector arguments, body = .mixinCall selector arguments := by
  cases body <;> cases h
  exact ⟨_, _, rfl⟩

theorem Body.exists_of_kind_eq_ruleset {body : Body} (h : body.kind = .ruleset) :
    ∃ selectors rules isRoot, body = .ruleset selectors rules isRoot := by
  cases body <;> cases h
  exact ⟨_, _, _, rfl⟩

theorem Body.exists_of_kind_eq_selector {body : Body} (h : body.kind = .selector) :
    ∃ elements extendList guard, body = .selector elements extendList guard := by
  cases body <;> cases h
  exact ⟨_, _, _, rfl⟩

/-- The kind of a node. -/
def Node.kind (n : Node) : Kind :=
  n.body.kind

/-- The node is an `@import`. -/
def Node.isImport (n : Node) : Bool :=
  match n.body with
  | .importRule .. => true
  | _ => false

/-- A node without an offset. -/
def Node.of (body : Body) : Node :=
  ⟨none, body⟩

/-- The value as a text, when it is a plain one. -/
def Value.text? : Value → Option String
  | .text t => some t
  | _ => none

mutual

/-- The nodes that a value holds, in order. -/
def Value.nodes : Value → List Node
  | .node n => [n]
  | .list items => Value.nodesOf items
  | .text _ | .number _ | .flag _ | .null => []

/-- The nodes that a list of values holds, in order. -/
def Value.nodesOf : List Value → List Node
  | [] => []
  | v :: vs => v.nodes ++ Value.nodesOf vs

end

/-- A list of values holds the nodes of each in turn. -/
theorem Value.nodesOf_eq_flatMap (vs : List Value) : Value.nodesOf vs = vs.flatMap Value.nodes := by
  induction vs with
  | nil => rfl
  | cons v vs ih => simp [Value.nodesOf, ih]

/-- The nodes among the parts of a declared name. -/
def DeclaredName.nodes : DeclaredName → List Node
  | .text _ => []
  | .parts ps => ps

/-- The nodes directly below a body, in the order of its members. -/
def Body.children : Body → List Node
  | .anonymous value => value.nodes
  | .assignment key value => key.nodes ++ value.nodes
  | .atRule _ value rules => value.nodes ++ rules
  | .attributeSelector key _ value => key.nodes ++ value.nodes
  | .call _ args => Value.nodesOf args
  | .color value => value.nodes
  | .combinator _ => []
  | .comment _ _ => []
  | .condition _ lvalue rvalue _ => lvalue.nodes ++ rvalue.nodes
  | .declaration name value _ => name.nodes ++ value.nodes
  | .detachedRuleset block => [block]
  | .dimension value measure => value.nodes ++ measure.toList
  | .element join value _ => join.toList ++ value.nodes
  | .expression value => value.nodes
  | .extend target _ => [target]
  | .importRule path features _ root _ => path.nodes ++ features.nodes ++ root.toList
  | .javaScript _ => []
  | .keyword _ => []
  | .media features rules => features.nodes ++ rules
  | .mixinCall target arguments => target :: Value.nodesOf (arguments.map Argument.value)
  | .mixinDefinition _ selectors params guard rules _ =>
    selectors ++ Value.nodesOf (params.map Parameter.value) ++ guard.toList ++ rules
  | .namespaceValue value _ => [value]
  | .negative value => value.nodes
  | .operation _ operands => Value.nodesOf operands
  | .paren value => value.nodes
  | .property _ => []
  | .quoted _ _ _ => []
  | .ruleset selectors rules _ => selectors.getD [] ++ rules
  | .selector elements extendList guard => elements ++ extendList ++ guard.nodes
  | .unicodeDescriptor _ => []
  | .unit _ _ _ => []
  | .url value => value.nodes
  | .valueList value => value.nodes
  | .variableUse _ => []
  | .variableCall _ => []

/-- The nodes directly below a node, in the order of its members; an import lists its resolved tree
last. -/
def Node.children (n : Node) : List Node :=
  n.body.children

end ImportSweep.Tree

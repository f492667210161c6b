import ImportSweep.Tree.Node

/-!
# Outlines

The outline of a node is the whole tree below it as a plain rose tree, so that what is said of a
node and all nodes below it can be defined by recursion. `Node.outline_eq` says that its branches
are the outlines of the node's children.
-/

namespace ImportSweep.Tree

/-- A rose tree of nodes. -/
inductive Outline where
  /-- A node and the outlines of the nodes directly below it. -/
  | mk (node : Node) (branches : List Outline)

namespace Outline

/-- The node at the top. -/
def node : Outline → Node
  | mk node _ => node

/-- The outlines directly below the top. -/
def branches : Outline → List Outline
  | mk _ branches => branches

mutual

/-- The number of nodes of an outline. -/
def size : Outline → Nat
  | mk _ branches => sizeOfAll branches + 1

/-- The number of nodes of a list of outlines. -/
def sizeOfAll : List Outline → Nat
  | [] => 0
  | o :: os => o.size + sizeOfAll os

end

end Outline

mutual

/-- The tree below a node and itself. -/
def Node.outline : Node → Outline
  | ⟨index, .anonymous value⟩ => .mk ⟨index, .anonymous value⟩ value.outlines
  | ⟨index, .assignment key value⟩ =>
    .mk ⟨index, .assignment key value⟩ (key.outlines ++ value.outlines)
  | ⟨index, .atRule name value rules⟩ =>
    .mk ⟨index, .atRule name value rules⟩ (value.outlines ++ Node.outlinesOf rules)
  | ⟨index, .attributeSelector key op value⟩ =>
    .mk ⟨index, .attributeSelector key op value⟩ (key.outlines ++ value.outlines)
  | ⟨index, .call name args⟩ => .mk ⟨index, .call name args⟩ (Value.outlinesOf args)
  | ⟨index, .color value⟩ => .mk ⟨index, .color value⟩ value.outlines
  | ⟨index, .combinator value⟩ => .mk ⟨index, .combinator value⟩ []
  | ⟨index, .comment value isLineComment⟩ => .mk ⟨index, .comment value isLineComment⟩ []
  | ⟨index, .condition op lvalue rvalue negate⟩ =>
    .mk ⟨index, .condition op lvalue rvalue negate⟩ (lvalue.outlines ++ rvalue.outlines)
  | ⟨index, .declaration name value isVariable⟩ =>
    .mk ⟨index, .declaration name value isVariable⟩ (name.outlines ++ value.outlines)
  | ⟨index, .detachedRuleset ruleset⟩ => .mk ⟨index, .detachedRuleset ruleset⟩ [ruleset.outline]
  | ⟨index, .dimension value unit⟩ =>
    .mk ⟨index, .dimension value unit⟩ (value.outlines ++ Node.outlinesOf? unit)
  | ⟨index, .element combinator value isVariable⟩ =>
    .mk ⟨index, .element combinator value isVariable⟩
      (Node.outlinesOf? combinator ++ value.outlines)
  | ⟨index, .expression value⟩ => .mk ⟨index, .expression value⟩ value.outlines
  | ⟨index, .extend selector option⟩ => .mk ⟨index, .extend selector option⟩ [selector.outline]
  | ⟨index, .importRule path features options root importedFilename⟩ =>
    .mk ⟨index, .importRule path features options root importedFilename⟩
      (path.outlines ++ features.outlines ++ Node.outlinesOf? root)
  | ⟨index, .javaScript expression⟩ => .mk ⟨index, .javaScript expression⟩ []
  | ⟨index, .keyword value⟩ => .mk ⟨index, .keyword value⟩ []
  | ⟨index, .media features rules⟩ =>
    .mk ⟨index, .media features rules⟩ (features.outlines ++ Node.outlinesOf rules)
  | ⟨index, .mixinCall selector arguments⟩ =>
    .mk ⟨index, .mixinCall selector arguments⟩
      (selector.outline :: Argument.outlinesOf arguments)
  | ⟨index, .mixinDefinition name selectors params condition rules variadic⟩ =>
    .mk ⟨index, .mixinDefinition name selectors params condition rules variadic⟩
      (Node.outlinesOf selectors ++ Parameter.outlinesOf params ++ Node.outlinesOf? condition ++
        Node.outlinesOf rules)
  | ⟨index, .namespaceValue value lookups⟩ =>
    .mk ⟨index, .namespaceValue value lookups⟩ [value.outline]
  | ⟨index, .negative value⟩ => .mk ⟨index, .negative value⟩ value.outlines
  | ⟨index, .operation op operands⟩ =>
    .mk ⟨index, .operation op operands⟩ (Value.outlinesOf operands)
  | ⟨index, .paren value⟩ => .mk ⟨index, .paren value⟩ value.outlines
  | ⟨index, .property name⟩ => .mk ⟨index, .property name⟩ []
  | ⟨index, .quoted value quote escaped⟩ => .mk ⟨index, .quoted value quote escaped⟩ []
  | ⟨index, .ruleset none rules isRoot⟩ =>
    .mk ⟨index, .ruleset none rules isRoot⟩ (Node.outlinesOf rules)
  | ⟨index, .ruleset (some selectors) rules isRoot⟩ =>
    .mk ⟨index, .ruleset (some selectors) rules isRoot⟩
      (Node.outlinesOf selectors ++ Node.outlinesOf rules)
  | ⟨index, .selector elements extendList condition⟩ =>
    .mk ⟨index, .selector elements extendList condition⟩
      (Node.outlinesOf elements ++ Node.outlinesOf extendList ++ condition.outlines)
  | ⟨index, .unicodeDescriptor value⟩ => .mk ⟨index, .unicodeDescriptor value⟩ []
  | ⟨index, .unit numerator denominator backupUnit⟩ =>
    .mk ⟨index, .unit numerator denominator backupUnit⟩ []
  | ⟨index, .url value⟩ => .mk ⟨index, .url value⟩ value.outlines
  | ⟨index, .valueList value⟩ => .mk ⟨index, .valueList value⟩ value.outlines
  | ⟨index, .variableUse name⟩ => .mk ⟨index, .variableUse name⟩ []
  | ⟨index, .variableCall name⟩ => .mk ⟨index, .variableCall name⟩ []

/-- The trees of a list of nodes. -/
def Node.outlinesOf : List Node → List Outline
  | [] => []
  | n :: ns => n.outline :: Node.outlinesOf ns

/-- The tree of an optional node. -/
def Node.outlinesOf? : Option Node → List Outline
  | none => []
  | some n => [n.outline]

/-- The trees of the nodes that a value holds. -/
def Value.outlines : Value → List Outline
  | .node n => [n.outline]
  | .list items => Value.outlinesOf items
  | .text _ | .number _ | .flag _ | .null => []

/-- The trees of the nodes that a list of values holds. -/
def Value.outlinesOf : List Value → List Outline
  | [] => []
  | v :: vs => v.outlines ++ Value.outlinesOf vs

/-- The trees of the parts of a declared name. -/
def DeclaredName.outlines : DeclaredName → List Outline
  | .text _ => []
  | .parts ps => Node.outlinesOf ps

/-- The trees of the nodes that arguments hold. -/
def Argument.outlinesOf : List Argument → List Outline
  | [] => []
  | ⟨_, value⟩ :: rest => value.outlines ++ Argument.outlinesOf rest

/-- The trees of the nodes that parameters hold. -/
def Parameter.outlinesOf : List Parameter → List Outline
  | [] => []
  | ⟨_, value, _⟩ :: rest => value.outlines ++ Parameter.outlinesOf rest

end

/-- The trees of a list of nodes are the trees of each. -/
theorem Node.outlinesOf_eq_map (ns : List Node) : Node.outlinesOf ns = ns.map Node.outline := by
  induction ns with
  | nil => rfl
  | cons n ns ih => simp [Node.outlinesOf, ih]

/-- The tree of an optional node is that of the node, if there is one. -/
theorem Node.outlinesOf?_eq_map (n : Option Node) :
    Node.outlinesOf? n = n.toList.map Node.outline := by
  cases n <;> rfl

mutual

/-- The trees of a value are those of the nodes it holds. -/
theorem Value.outlines_eq_map : (v : Value) → v.outlines = v.nodes.map Node.outline
  | .node _ => rfl
  | .list items => Value.outlinesOf_eq_map items
  | .text _ => rfl
  | .number _ => rfl
  | .flag _ => rfl
  | .null => rfl

/-- The trees of a list of values are those of the nodes it holds. -/
theorem Value.outlinesOf_eq_map :
    (vs : List Value) → Value.outlinesOf vs = (Value.nodesOf vs).map Node.outline
  | [] => rfl
  | v :: vs => by
    simp [Value.outlinesOf, Value.nodesOf, Value.outlines_eq_map v, Value.outlinesOf_eq_map vs]

end

/-- The trees of a declared name are those of its parts. -/
theorem DeclaredName.outlines_eq_map (name : DeclaredName) :
    name.outlines = name.nodes.map Node.outline := by
  cases name with
  | text _ => rfl
  | parts ps => exact Node.outlinesOf_eq_map ps

/-- The trees of arguments are those of the nodes in their values. -/
theorem Argument.outlinesOf_eq_map (args : List Argument) :
    Argument.outlinesOf args = (Value.nodesOf (args.map Argument.value)).map Node.outline := by
  induction args with
  | nil => rfl
  | cons a rest ih =>
    cases a
    simp [Argument.outlinesOf, Value.nodesOf, Value.outlines_eq_map, ih]

/-- The trees of parameters are those of the nodes in their values. -/
theorem Parameter.outlinesOf_eq_map (params : List Parameter) :
    Parameter.outlinesOf params =
      (Value.nodesOf (params.map Parameter.value)).map Node.outline := by
  induction params with
  | nil => rfl
  | cons p rest ih =>
    cases p
    simp [Parameter.outlinesOf, Value.nodesOf, Value.outlines_eq_map, ih]

/-- The branches of a node's outline are the outlines of its children. -/
theorem Node.outline_eq (n : Node) : n.outline = .mk n (n.children.map Node.outline) := by
  obtain ⟨index, body⟩ := n
  cases body
  case ruleset selectors rules isRoot =>
    cases selectors <;>
      simp [Node.outline, Node.children, Body.children, Node.outlinesOf_eq_map]
  all_goals
    simp [Node.outline, Node.children, Body.children, Node.outlinesOf_eq_map,
      Node.outlinesOf?_eq_map, Value.outlines_eq_map, Value.outlinesOf_eq_map,
      DeclaredName.outlines_eq_map, Argument.outlinesOf_eq_map, Parameter.outlinesOf_eq_map]

end ImportSweep.Tree

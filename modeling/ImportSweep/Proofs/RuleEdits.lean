import ImportSweep.Proofs.OwnText
import ImportSweep.Proofs.Shapes

/-!
# Editing the rules of a tree

Blocks hold their rules in a list: rulesets, mixin definitions, `@media` blocks and other at-rules
do. `Node.editRules` changes these lists everywhere in the text of a file and nothing else; how a
list is changed may depend on its place. What an import holds besides the imported tree is part of
the text, the imported tree is not.

An edit changes no node by itself. It uses the same names (`usedBy_editRules`) and is read as the
same import (`ofNode?_editRules`), and the nodes that it holds are those it held, edited, with the
rules changed (`Node.held_editRules`).
-/

namespace ImportSweep.Tree

/-! ## Nodes in the text -/

/-- The rules of a body that is a block. -/
def Body.rules : Body → List Node
  | .atRule _ _ rules | .media _ rules | .mixinDefinition _ _ _ _ rules _ | .ruleset _ rules _ =>
    rules
  | _ => []

/-- The nodes that a body holds, rules apart. -/
def Body.stem : Body → List Node
  | .atRule _ value _ => value.nodes
  | .media features _ => features.nodes
  | .mixinDefinition _ selectors params guard _ _ =>
    selectors ++ Value.nodesOf (params.map Parameter.value) ++ guard.toList
  | .ruleset selectors _ _ => selectors.getD []
  | body => body.members.flatMap Value.nodes

/-- The nodes that a node holds in the text, in the order of its members. -/
def Node.held (n : Node) : List Node :=
  n.body.members.flatMap Value.nodes

/-- The rules come last. -/
theorem Node.held_eq (n : Node) : n.held = n.body.stem ++ n.body.rules := by
  obtain ⟨index, body⟩ := n
  cases body
  all_goals
    simp [Node.held, Body.stem, Body.rules, Body.members, Value.nodes_ofNodes,
      Value.nodesOf_eq_flatMap]

/-- The node at a place of the text. -/
def Node.textAt? : Node → List Nat → Option Node
  | n, [] => some n
  | n, i :: place => n.held[i]?.bind fun c => Node.textAt? c place

/-! ## Edits -/

/-- A change of lists of rules. It is given the place of the block, the number that the first rule
has among the nodes that the block holds, and the rules. -/
abbrev RuleEdit := List Nat → Nat → List Node → List Node

/-- The edit that changes nothing. -/
def RuleEdit.none : RuleEdit :=
  fun _ _ rules => rules

/-- The edit as it is seen from the node of that number. -/
def RuleEdit.below (edit : RuleEdit) (i : Nat) : RuleEdit :=
  fun place => edit (i :: place)

mutual

/-- Changes the rules at and below a node. -/
def Node.editRules (edit : RuleEdit) : Node → Node
  | ⟨index, body⟩ => ⟨index, body.editRules edit⟩

/-- Changes the rules of a body and of what it holds. -/
def Body.editRules (edit : RuleEdit) : Body → Body
  | .anonymous value => .anonymous (value.editRules edit 0)
  | .assignment key value =>
    .assignment (key.editRules edit 0) (value.editRules edit key.nodes.length)
  | .atRule name value rules =>
    .atRule name (value.editRules edit 0)
      (edit [] value.nodes.length (Node.editFrom edit value.nodes.length rules))
  | .attributeSelector key op value =>
    .attributeSelector (key.editRules edit 0) op (value.editRules edit key.nodes.length)
  | .call name args => .call name (Value.editFrom edit 0 args)
  | .color value => .color (value.editRules edit 0)
  | .combinator value => .combinator (value.editRules edit 0)
  | .comment value isLineComment => .comment (value.editRules edit 0) isLineComment
  | .condition op lvalue rvalue negate =>
    .condition op (lvalue.editRules edit 0) (rvalue.editRules edit lvalue.nodes.length) negate
  | .declaration name value isVariable =>
    .declaration (name.editRules edit) (value.editRules edit name.nodes.length) isVariable
  | .detachedRuleset block => .detachedRuleset (block.editRules (edit.below 0))
  | .dimension value measure =>
    .dimension (value.editRules edit 0) (Node.editRules? edit value.nodes.length measure)
  | .element join value isVariable =>
    .element (Node.editRules? edit 0 join) (value.editRules edit join.toList.length) isVariable
  | .expression value => .expression (value.editRules edit 0)
  | .extend target option => .extend (target.editRules (edit.below 0)) option
  | .importRule path features options root importedFilename =>
    .importRule (path.editRules edit 0) (features.editRules edit path.nodes.length) options root
      importedFilename
  | .javaScript script => .javaScript (script.editRules edit 0)
  | .keyword value => .keyword (value.editRules edit 0)
  | .media features rules =>
    .media (features.editRules edit 0)
      (edit [] features.nodes.length (Node.editFrom edit features.nodes.length rules))
  | .mixinCall target arguments =>
    .mixinCall (target.editRules (edit.below 0)) (Argument.editFrom edit 1 arguments)
  | .mixinDefinition name selectors params guard rules variadic =>
    let afterSelectors := selectors.length
    let afterParams := afterSelectors + (Value.nodesOf (params.map Parameter.value)).length
    let afterGuard := afterParams + guard.toList.length
    .mixinDefinition name (Node.editFrom edit 0 selectors)
      (Parameter.editFrom edit afterSelectors params) (Node.editRules? edit afterParams guard)
      (edit [] afterGuard (Node.editFrom edit afterGuard rules)) variadic
  | .namespaceValue value lookups => .namespaceValue (value.editRules (edit.below 0)) lookups
  | .negative value => .negative (value.editRules edit 0)
  | .operation op operands => .operation op (Value.editFrom edit 0 operands)
  | .paren value => .paren (value.editRules edit 0)
  | .property name => .property name
  | .quoted value quote escaped => .quoted (value.editRules edit 0) quote escaped
  | .ruleset none rules isRoot => .ruleset none (edit [] 0 (Node.editFrom edit 0 rules)) isRoot
  | .ruleset (some selectors) rules isRoot =>
    .ruleset (some (Node.editFrom edit 0 selectors))
      (edit [] selectors.length (Node.editFrom edit selectors.length rules)) isRoot
  | .selector elements extendList guard =>
    .selector (Node.editFrom edit 0 elements) (Node.editFrom edit elements.length extendList)
      (guard.editRules edit (elements.length + extendList.length))
  | .unicodeDescriptor value => .unicodeDescriptor (value.editRules edit 0)
  | .unit numerator denominator backupUnit => .unit numerator denominator backupUnit
  | .url value => .url (value.editRules edit 0)
  | .valueList value => .valueList (value.editRules edit 0)
  | .variableUse name => .variableUse name
  | .variableCall name => .variableCall name

/-- Changes the rules below nodes that are numbered from `start` on. -/
def Node.editFrom (edit : RuleEdit) (start : Nat) : List Node → List Node
  | [] => []
  | n :: ns => n.editRules (edit.below start) :: Node.editFrom edit (start + 1) ns

/-- Changes the rules below an optional node with a number. -/
def Node.editRules? (edit : RuleEdit) (start : Nat) : Option Node → Option Node
  | none => none
  | some n => some (n.editRules (edit.below start))

/-- Changes the rules below the nodes of a value, which are numbered from `start` on. -/
def Value.editRules (edit : RuleEdit) (start : Nat) : Value → Value
  | .node n => .node (n.editRules (edit.below start))
  | .list items => .list (Value.editFrom edit start items)
  | .text text => .text text
  | .number number => .number number
  | .flag flag => .flag flag
  | .null => .null

/-- Changes the rules below the nodes of values, which are numbered from `start` on. -/
def Value.editFrom (edit : RuleEdit) (start : Nat) : List Value → List Value
  | [] => []
  | v :: vs => v.editRules edit start :: Value.editFrom edit (start + v.nodes.length) vs

/-- Changes the rules below the parts of a declared name. -/
def DeclaredName.editRules (edit : RuleEdit) : DeclaredName → DeclaredName
  | .text text => .text text
  | .parts parts => .parts (Node.editFrom edit 0 parts)

/-- Changes the rules below the nodes of arguments, which are numbered from `start` on. -/
def Argument.editFrom (edit : RuleEdit) (start : Nat) : List Argument → List Argument
  | [] => []
  | ⟨name, value⟩ :: rest =>
    ⟨name, value.editRules edit start⟩ :: Argument.editFrom edit (start + value.nodes.length) rest

/-- Changes the rules below the nodes of parameters, which are numbered from `start` on. -/
def Parameter.editFrom (edit : RuleEdit) (start : Nat) : List Parameter → List Parameter
  | [] => []
  | ⟨name, value, variadic⟩ :: rest =>
    ⟨name, value.editRules edit start, variadic⟩ ::
      Parameter.editFrom edit (start + value.nodes.length) rest

end

/-! ## What a node holds after an edit -/

variable (edit : RuleEdit)

/-- Each node is edited as it is seen from its number. -/
theorem Node.editFrom_eq_map (start : Nat) (ns : List Node) :
    Node.editFrom edit start ns =
      (ns.zipIdx start).map fun numbered => numbered.1.editRules (edit.below numbered.2) := by
  induction ns generalizing start with
  | nil => rfl
  | cons n ns ih => rw [Node.editFrom, ih, List.zipIdx_cons, List.map_cons]

theorem Node.editFrom_append (start : Nat) (ns ms : List Node) :
    Node.editFrom edit start (ns ++ ms) =
      Node.editFrom edit start ns ++ Node.editFrom edit (start + ns.length) ms := by
  simp only [Node.editFrom_eq_map, List.zipIdx_append, List.map_append]

@[simp]
theorem Node.length_editFrom (start : Nat) (ns : List Node) :
    (Node.editFrom edit start ns).length = ns.length := by
  simp [Node.editFrom_eq_map]

theorem Node.toList_editRules? (start : Nat) (n : Option Node) :
    (Node.editRules? edit start n).toList = Node.editFrom edit start n.toList := by
  cases n <;> rfl

mutual

/-- A value holds the nodes that it held, edited. -/
theorem Value.nodes_editRules (edit : RuleEdit) (start : Nat) :
    (v : Value) → (v.editRules edit start).nodes = Node.editFrom edit start v.nodes
  | .node _ => rfl
  | .list items => by
    rw [Value.editRules, Value.nodes, Value.nodes, Value.nodesOf_editFrom edit start items]
  | .text _ => rfl
  | .number _ => rfl
  | .flag _ => rfl
  | .null => rfl

/-- A list of values holds the nodes that it held, edited. -/
theorem Value.nodesOf_editFrom (edit : RuleEdit) (start : Nat) : (vs : List Value) →
    Value.nodesOf (Value.editFrom edit start vs) = Node.editFrom edit start (Value.nodesOf vs)
  | [] => rfl
  | v :: vs => by
    rw [Value.editFrom, Value.nodesOf, Value.nodesOf, Node.editFrom_append,
      Value.nodes_editRules edit start v, Value.nodesOf_editFrom edit _ vs]

end

theorem DeclaredName.nodes_editRules (name : DeclaredName) :
    (name.editRules edit).nodes = Node.editFrom edit 0 name.nodes := by
  cases name <;> rfl

theorem Argument.nodesOf_editFrom (start : Nat) (arguments : List Argument) :
    Value.nodesOf ((Argument.editFrom edit start arguments).map Argument.value) =
      Node.editFrom edit start (Value.nodesOf (arguments.map Argument.value)) := by
  induction arguments generalizing start with
  | nil => rfl
  | cons argument rest ih =>
    obtain ⟨name, value⟩ := argument
    rw [Argument.editFrom, List.map_cons, List.map_cons, Value.nodesOf, Value.nodesOf, ih,
      Node.editFrom_append, Value.nodes_editRules]

theorem Parameter.nodesOf_editFrom (start : Nat) (params : List Parameter) :
    Value.nodesOf ((Parameter.editFrom edit start params).map Parameter.value) =
      Node.editFrom edit start (Value.nodesOf (params.map Parameter.value)) := by
  induction params generalizing start with
  | nil => rfl
  | cons param rest ih =>
    obtain ⟨name, value, variadic⟩ := param
    rw [Parameter.editFrom, List.map_cons, List.map_cons, Value.nodesOf, Value.nodesOf, ih,
      Node.editFrom_append, Value.nodes_editRules]

/-- Rules apart, a body holds the nodes that it held, edited. -/
theorem Body.stem_editRules (body : Body) :
    (body.editRules edit).stem = Node.editFrom edit 0 body.stem := by
  cases body
  case ruleset selectors rules isRoot =>
    cases selectors <;> simp [Body.editRules, Body.stem, Node.editFrom]
  all_goals
    simp [Body.editRules, Body.stem, Body.members, Value.nodes, ← Value.nodesOf_eq_flatMap,
      Value.nodes_ofNodes, Node.editFrom, Node.editFrom_append, Value.nodes_editRules,
      Value.nodesOf_editFrom, DeclaredName.nodes_editRules,
      Node.toList_editRules?, Argument.nodesOf_editFrom, Parameter.nodesOf_editFrom]

/-- The rules of a body are those that it had, each edited, and then changed as a list. -/
theorem Body.rules_editRules (hnil : ∀ place first, edit place first [] = []) (body : Body) :
    (body.editRules edit).rules =
      edit [] body.stem.length (Node.editFrom edit body.stem.length body.rules) := by
  cases body
  case ruleset selectors rules isRoot => cases selectors <;> rfl
  case mixinDefinition => simp [Body.editRules, Body.rules, Body.stem, Nat.add_assoc]
  case atRule | media => rfl
  all_goals exact (hnil _ _).symm

theorem Node.body_editRules (n : Node) : (n.editRules edit).body = n.body.editRules edit := by
  cases n
  rfl

/-- What a node holds are the nodes that it held, each edited, with the rules changed as a list. -/
theorem Node.held_editRules (hnil : ∀ place first, edit place first [] = []) (n : Node) :
    (n.editRules edit).held =
      Node.editFrom edit 0 n.body.stem ++
        edit [] n.body.stem.length (Node.editFrom edit n.body.stem.length n.body.rules) := by
  rw [Node.held_eq, Node.body_editRules, Body.stem_editRules, Body.rules_editRules edit hnil]

/-! ## What a node is after an edit -/

mutual

theorem Value.shape_editRules (edit : RuleEdit) (start : Nat) :
    (v : Value) → (v.editRules edit start).shape = v.shape
  | .node _ => rfl
  | .list items => by
    rw [Value.editRules, Value.shape, Value.shape, Value.shapes_editFrom edit start items]
  | .text _ => rfl
  | .number _ => rfl
  | .flag _ => rfl
  | .null => rfl

theorem Value.shapes_editFrom (edit : RuleEdit) (start : Nat) :
    (vs : List Value) → Value.shapes (Value.editFrom edit start vs) = Value.shapes vs
  | [] => rfl
  | v :: vs => by
    rw [Value.editFrom, Value.shapes, Value.shapes, Value.shape_editRules edit start v,
      Value.shapes_editFrom edit _ vs]

end

theorem Argument.map_shape_editFrom (start : Nat) (arguments : List Argument) :
    ((Argument.editFrom edit start arguments).map fun argument =>
        (⟨argument.name, argument.value.shape⟩ : Argument)) =
      arguments.map fun argument => ⟨argument.name, argument.value.shape⟩ := by
  induction arguments generalizing start with
  | nil => rfl
  | cons argument rest ih =>
    obtain ⟨name, value⟩ := argument
    simp [Argument.editFrom, ih, Value.shape_editRules]

theorem Parameter.map_shape_editFrom (start : Nat) (params : List Parameter) :
    ((Parameter.editFrom edit start params).map fun param =>
        (⟨param.name, param.value.shape, param.variadic⟩ : Parameter)) =
      params.map fun param => ⟨param.name, param.value.shape, param.variadic⟩ := by
  induction params generalizing start with
  | nil => rfl
  | cons param rest ih =>
    obtain ⟨name, value, variadic⟩ := param
    simp [Parameter.editFrom, ih, Value.shape_editRules]

/-- An edit changes no shape, since rules are no part of it. -/
theorem Body.shape_editRules (body : Body) : (body.editRules edit).shape = body.shape := by
  cases body
  case ruleset selectors rules isRoot => cases selectors <;> simp [Body.editRules, Body.shape]
  case declaration name value isVariable =>
    cases name <;>
      simp [Body.editRules, Body.shape, DeclaredName.editRules, DeclaredName.shape,
        Value.shape_editRules]
  case dimension value measure =>
    cases measure <;>
      simp [Body.editRules, Body.shape, Node.editRules?, Value.shape_editRules]
  case element join value isVariable =>
    cases join <;>
      simp [Body.editRules, Body.shape, Node.editRules?, Value.shape_editRules]
  case mixinDefinition name selectors params guard rules variadic =>
    cases guard <;>
      simp [Body.editRules, Body.shape, Node.editRules?, Parameter.map_shape_editFrom]
  all_goals
    simp [Body.editRules, Body.shape, Value.shape_editRules, Value.shapes_editFrom,
      Argument.map_shape_editFrom]

theorem Node.shape_editRules (n : Node) : (n.editRules edit).body.shape = n.body.shape := by
  rw [Node.body_editRules, Body.shape_editRules]

@[simp]
theorem Node.kind_editRules (n : Node) : (n.editRules edit).kind = n.kind :=
  Body.kind_eq_of_shape_eq (n.shape_editRules edit)

@[simp]
theorem Node.isImport_editRules (n : Node) : (n.editRules edit).isImport = n.isImport :=
  Node.isImport_eq_of_shape_eq (n.shape_editRules edit)

/-- What does not change with an edit is the same for all nodes of an edited list. -/
theorem Node.map_editFrom {β : Type} {f : Node → β} (h : ∀ edit n, f (n.editRules edit) = f n)
    (start : Nat) (ns : List Node) : (Node.editFrom edit start ns).map f = ns.map f := by
  induction ns generalizing start with
  | nil => rfl
  | cons n ns ih => rw [Node.editFrom, List.map_cons, List.map_cons, h, ih]

/-- The elements of a selector say the same after an edit. -/
theorem Node.labels?_editRules (n : Node) : (n.editRules edit).labels? = n.labels? := by
  have helements : (n.body.editRules edit).elements? =
      n.body.elements?.map (Node.editFrom edit 0) := by
    cases n.body
    case ruleset selectors rules isRoot => cases selectors <;> rfl
    all_goals rfl
  have hlabels : ∀ elements : List Node,
      (Node.editFrom edit 0 elements).map (fun element => element.body.label) =
        elements.map fun element => element.body.label := fun elements =>
    Node.map_editFrom edit
      (fun edit element => Body.label_eq_of_shape_eq (element.shape_editRules edit)) 0 elements
  rw [Node.labels?, Node.body_editRules, helements, Node.labels?]
  cases n.body.elements? with
  | none => rfl
  | some elements => exact congrArg some (hlabels elements)

theorem Body.targets_editRules (body : Body) :
    (body.editRules edit).targets = Node.editFrom edit 0 body.targets := by
  cases body
  case ruleset selectors rules isRoot => cases selectors <;> rfl
  all_goals rfl

/-- The selectors that a node is read through say the same after an edit. -/
theorem Node.targets_labels?_editRules (n : Node) :
    (n.editRules edit).body.targets.map Node.labels? = n.body.targets.map Node.labels? := by
  rw [Node.body_editRules, Body.targets_editRules,
    Node.map_editFrom edit (fun edit target => target.labels?_editRules edit)]

theorem RuleEdit.none_apply (place : List Nat) (first : Nat) (rules : List Node) :
    RuleEdit.none place first rules = rules :=
  rfl

theorem RuleEdit.below_none (i : Nat) : RuleEdit.none.below i = .none :=
  rfl

mutual

/-- The edit that changes nothing leaves a node as it is. -/
theorem Node.editRules_none : (n : Node) → n.editRules .none = n
  | ⟨index, body⟩ => by rw [Node.editRules, Body.editRules_none body]

theorem Body.editRules_none (body : Body) : body.editRules .none = body := by
  cases body
  case ruleset selectors rules isRoot =>
    cases selectors <;> simp [Body.editRules, Node.editFrom_none, RuleEdit.none_apply]
  all_goals
    simp [Body.editRules, RuleEdit.none_apply, RuleEdit.below_none, Node.editRules_none,
      Node.editFrom_none, Node.editRules?_none, Value.editRules_none, Value.editFrom_none,
      DeclaredName.editRules_none, Argument.editFrom_none, Parameter.editFrom_none]

theorem Node.editFrom_none (start : Nat) : (ns : List Node) → Node.editFrom .none start ns = ns
  | [] => rfl
  | n :: ns => by
    rw [Node.editFrom, RuleEdit.below_none, Node.editRules_none n,
      Node.editFrom_none (start + 1) ns]

theorem Node.editRules?_none (start : Nat) :
    (n : Option Node) → Node.editRules? .none start n = n
  | .none => rfl
  | some n => by rw [Node.editRules?, RuleEdit.below_none, Node.editRules_none n]

theorem Value.editRules_none (start : Nat) : (v : Value) → v.editRules .none start = v
  | .node n => by rw [Value.editRules, RuleEdit.below_none, Node.editRules_none n]
  | .list items => by rw [Value.editRules, Value.editFrom_none start items]
  | .text _ => rfl
  | .number _ => rfl
  | .flag _ => rfl
  | .null => rfl

theorem Value.editFrom_none (start : Nat) : (vs : List Value) → Value.editFrom .none start vs = vs
  | [] => rfl
  | v :: vs => by rw [Value.editFrom, Value.editRules_none start v, Value.editFrom_none _ vs]

theorem DeclaredName.editRules_none : (name : DeclaredName) → name.editRules .none = name
  | .text _ => rfl
  | .parts parts => by rw [DeclaredName.editRules, Node.editFrom_none 0 parts]

theorem Argument.editFrom_none (start : Nat) :
    (arguments : List Argument) → Argument.editFrom .none start arguments = arguments
  | [] => rfl
  | ⟨name, value⟩ :: rest => by
    rw [Argument.editFrom, Value.editRules_none start value, Argument.editFrom_none _ rest]

theorem Parameter.editFrom_none (start : Nat) :
    (params : List Parameter) → Parameter.editFrom .none start params = params
  | [] => rfl
  | ⟨name, value, variadic⟩ :: rest => by
    rw [Parameter.editFrom, Value.editRules_none start value, Parameter.editFrom_none _ rest]

end

end ImportSweep.Tree

namespace ImportSweep

open ImportSweep.Tree ImportSweep.Names

variable (edit : RuleEdit)

/-- The import with the rules below its path edited. -/
def ImportStatement.editRules (edit : RuleEdit) (statement : ImportStatement) : ImportStatement :=
  { statement with path := statement.path.editRules edit 0 }

/-- An edited import is the same import, with its path edited. -/
theorem ofNode?_editRules (n : Node) :
    ImportStatement.ofNode? (n.editRules edit) =
      (ImportStatement.ofNode? n).map (·.editRules edit) := by
  obtain ⟨index, body⟩ := n
  cases body
  case ruleset selectors rules isRoot => cases selectors <;> rfl
  all_goals rfl

/-- A node uses the same names after an edit, or both cannot be read. -/
theorem toOption_usedBy_editRules (n : Node) :
    (usedBy (n.editRules edit)).toOption = (usedBy n).toOption :=
  toOption_usedBy_congr (n.shape_editRules edit) (n.targets_labels?_editRules edit)

/-- A node defines the same names after an edit, or both cannot be read. -/
theorem toOption_definedBy_editRules (n : Node) :
    (definedBy (n.editRules edit)).toOption = (definedBy n).toOption :=
  toOption_definedBy_congr (n.shape_editRules edit) (n.targets_labels?_editRules edit)

theorem usedBy_editRules {n : Node} {names : List String} (h : usedBy n = .ok names) :
    usedBy (n.editRules edit) = .ok names := by
  rw [← toOption_eq_some_iff] at h ⊢
  rw [toOption_usedBy_editRules, h]

/-- The names that an import brings in do not depend on its path. -/
theorem importSupply_editRules (statement : ImportStatement) :
    importSupply (statement.editRules edit) =
      (importSupply statement).map fun supply =>
        { supply with statement := statement.editRules edit } := by
  obtain ⟨index, path, options, tree, importedFilename⟩ := statement
  cases tree with
  | none => rfl
  | some tree =>
    simp only [importSupply, ImportStatement.editRules]
    cases exportedNames tree with
    | error e => rfl
    | ok names => rfl

/-- The verdict on an import does not depend on its path. -/
theorem isUnusedAmong_editRules (referenceOnly : Bool) (used : NameSet)
    (statement : ImportStatement) :
    isUnusedAmong referenceOnly used (statement.editRules edit) =
      isUnusedAmong referenceOnly used statement := by
  rw [isUnusedAmong, isUnusedAmong, importSupply_editRules]
  cases hsupply : importSupply statement with
  | error e => rfl
  | ok supply =>
    have hstatement := statement_of_importSupply hsupply
    simp [Except.map, ImportSupply.isUnused, hstatement, ImportStatement.editRules]

end ImportSweep

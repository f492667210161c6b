import Mathlib.Logic.Relation
import ImportSweep.Proofs.Detection
import ImportSweep.Tree.Build

/-!
# The text of a file

A node holds other nodes in its members, be it directly, in lists or in loosely typed values.
`Node.Holds` says so member by member, for all kinds. The text of a file is what is held below its
root, imported trees apart (`InText`).

The used names cover the text as far as it is followed: below imports and inside the kinds that are
plain texts nothing is looked for. `usedNames_cover_text` says that no name is missed elsewhere, and
`usedNames_miss_hidden_uses` that names in those two places are.
-/

namespace ImportSweep.Tree

/-- The value holds the node, in lists at any depth. -/
inductive Value.Holds : Value → Node → Prop where
  /-- The value is the node. -/
  | node (n : Node) : Value.Holds (.node n) n
  /-- An item of the list holds the node. -/
  | item {items : List Value} {v : Value} {n : Node} (hmem : v ∈ items) (hv : v.Holds n) :
      Value.Holds (.list items) n

/-- A list of nodes as a value. -/
def Value.ofNodes (ns : List Node) : Value :=
  .list (ns.map .node)

/-- The members that may hold nodes, in order. The tree of an imported file is not part of the
text, so an import has its path and its features only. -/
def Body.members : Body → List Value
  | .anonymous value => [value]
  | .assignment key value => [key, value]
  | .atRule _ value rules => [value, .ofNodes rules]
  | .attributeSelector key _ value => [key, value]
  | .call _ args => args
  | .color value => [value]
  | .combinator value => [value]
  | .comment value _ => [value]
  | .condition _ lvalue rvalue _ => [lvalue, rvalue]
  | .declaration name value _ => [.ofNodes name.nodes, value]
  | .detachedRuleset block => [.node block]
  | .dimension value measure => [value, .ofNodes measure.toList]
  | .element join value _ => [.ofNodes join.toList, value]
  | .expression value => [value]
  | .extend target _ => [.node target]
  | .importRule path features _ _ _ => [path, features]
  | .javaScript script => [script]
  | .keyword value => [value]
  | .media features rules => [features, .ofNodes rules]
  | .mixinCall target arguments => .node target :: arguments.map Argument.value
  | .mixinDefinition _ selectors params guard rules _ =>
    .ofNodes selectors :: params.map Parameter.value ++ [.ofNodes guard.toList, .ofNodes rules]
  | .namespaceValue value _ => [.node value]
  | .negative value => [value]
  | .operation _ operands => operands
  | .paren value => [value]
  | .property _ => []
  | .quoted value _ _ => [value]
  | .ruleset selectors rules _ => [.ofNodes (selectors.getD []), .ofNodes rules]
  | .selector elements extendList guard => [.ofNodes elements, .ofNodes extendList, guard]
  | .unicodeDescriptor value => [value]
  | .unit _ _ _ => []
  | .url value => [value]
  | .valueList value => [value]
  | .variableUse _ => []
  | .variableCall _ => []

/-- A member of the node holds the other node. -/
def Node.Holds (n c : Node) : Prop :=
  ∃ v ∈ n.body.members, v.Holds c

/-- The kinds that are plain texts as they come from the source. -/
def Kind.isPlain : Kind → Bool
  | .combinator | .comment | .javaScript | .keyword | .quoted | .unicodeDescriptor => true
  | _ => false

/-- The node stands in the text of the file. -/
def InText (root n : Node) : Prop :=
  Relation.ReflTransGen Node.Holds root n

/-- The other node is held, and neither inside an import nor inside a plain text. -/
def Node.Follows (n c : Node) : Prop :=
  n.Holds c ∧ n.isImport = false ∧ n.kind.isPlain = false

/-- The node stands in the text of the file as far as that is followed. -/
def InFollowedText (root n : Node) : Prop :=
  Relation.ReflTransGen Node.Follows root n

/-! ## Members and children -/

theorem Value.mem_nodes_of_holds {v : Value} {n : Node} (h : v.Holds n) : n ∈ v.nodes := by
  induction h with
  | node n => exact List.mem_singleton_self n
  | @item items v n hmem _ ih =>
    rw [Value.nodes, Value.nodesOf_eq_flatMap]
    exact List.mem_flatMap.2 ⟨v, hmem, ih⟩

mutual

theorem Value.holds_of_mem_nodes {n : Node} : (v : Value) → n ∈ v.nodes → v.Holds n
  | .node m, h => by
    cases List.mem_singleton.1 h
    exact .node n
  | .list items, h => by
    obtain ⟨v, hv, hholds⟩ := Value.exists_holds_of_mem_nodesOf items h
    exact .item hv hholds
  | .text _, h | .number _, h | .flag _, h | .null, h => absurd h List.not_mem_nil

theorem Value.exists_holds_of_mem_nodesOf {n : Node} :
    (vs : List Value) → n ∈ Value.nodesOf vs → ∃ v ∈ vs, v.Holds n
  | [], h => absurd h List.not_mem_nil
  | v :: vs, h => by
    rcases List.mem_append.1 h with h | h
    · exact ⟨v, List.mem_cons_self, Value.holds_of_mem_nodes v h⟩
    · obtain ⟨v', hv', hholds⟩ := Value.exists_holds_of_mem_nodesOf vs h
      exact ⟨v', List.mem_cons_of_mem v hv', hholds⟩

end

/-- A node holds what stands in the values of its members. -/
theorem Node.holds_iff {n c : Node} : n.Holds c ↔ c ∈ n.body.members.flatMap Value.nodes := by
  rw [List.mem_flatMap]
  constructor
  · rintro ⟨v, hv, hholds⟩
    exact ⟨v, hv, Value.mem_nodes_of_holds hholds⟩
  · rintro ⟨v, hv, hnode⟩
    exact ⟨v, hv, Value.holds_of_mem_nodes v hnode⟩

/-- A list of nodes holds these nodes. -/
theorem Value.nodes_ofNodes (ns : List Node) : (Value.ofNodes ns).nodes = ns := by
  rw [Value.ofNodes, Value.nodes, Value.nodesOf_eq_flatMap]
  induction ns with
  | nil => rfl
  | cons n ns ih => simp [Value.nodes, ih]

/-- Imports and plain texts apart, the children of a node are what its members hold, in order. -/
theorem Node.children_eq_flatMap_members {n : Node} (himport : n.isImport = false)
    (hplain : n.kind.isPlain = false) : n.children = n.body.members.flatMap Value.nodes := by
  obtain ⟨index, body⟩ := n
  -- The members of each remaining kind are listed in the order of its children.
  cases body
  case importRule => cases himport
  case combinator | comment | javaScript | keyword | quoted | unicodeDescriptor => cases hplain
  all_goals
    simp [Node.children, Body.children, Body.members, Value.nodes_ofNodes,
      Value.nodesOf_eq_flatMap, Value.nodes]

/-- What is followed are the children, except those of imports and plain texts. -/
theorem Node.follows_iff {n c : Node} :
    n.Follows c ↔ c ∈ n.children ∧ n.isImport = false ∧ n.kind.isPlain = false := by
  rw [Node.Follows, Node.holds_iff]
  refine and_congr_left fun ⟨himport, hplain⟩ => ?_
  rw [Node.children_eq_flatMap_members himport hplain]

/-- What stands in the followed text has a place. -/
theorem InFollowedText.exists_place {root n : Node} (h : InFollowedText root n) :
    ∃ place, root.at? false place = some n := by
  -- The way is built from its end: each step puts the number of a child before it.
  induction h using Relation.ReflTransGen.head_induction_on with
  | refl => exact ⟨[], rfl⟩
  | @head p c hfollows _ ih =>
    obtain ⟨place, hplace⟩ := ih
    obtain ⟨hchild, himport, -⟩ := Node.follows_iff.1 hfollows
    obtain ⟨i, hi⟩ := List.getElem?_of_mem hchild
    refine ⟨i :: place, ?_⟩
    rw [Node.at?, if_neg (by simp [himport]), hi]
    exact hplace

end ImportSweep.Tree

namespace ImportSweep

open ImportSweep.Tree ImportSweep.Names

/-- No use in the followed text is missed: the name is among the used names, and so no import that
exports it is reported. -/
theorem usedNames_cover_text (root : Node) :
    (∀ used, usedNames root = .ok used →
      ∀ n name, InFollowedText root n → Refers n name → name ∈ used) ∧
    (∀ referenceOnly unused, unusedImports referenceOnly root = .ok unused →
      ∀ statement ∈ unused, ∀ tree name, statement.root = some tree → Exports tree name →
        ∀ n, InFollowedText root n → ¬ Refers n name) := by
  constructor
  · intro used hused n name htext hrefers
    obtain ⟨place, hplace⟩ := htext.exists_place
    exact (mem_usedNames_iff hused).2 ⟨place, n, hplace, hrefers⟩
  · intro referenceOnly unused hunused statement hmem tree name htree hexports n htext hrefers
    obtain ⟨place, hplace⟩ := htext.exists_place
    obtain ⟨tree', htree', -, hnone⟩ := ((mem_unusedImports_iff hunused).1 hmem).2
    cases htree.symm.trans htree'
    exact hnone ⟨name, hexports, place, n, hplace, hrefers⟩

/-- In the file with two imports the use of `@x` is covered, and so the import that is reported
does not export it. -/
theorem usedNames_cover_twoImports :
    (∃ used, usedNames twoImports = .ok used ∧ "@x" ∈ used) ∧
      ∃ statement tree, unusedImports false twoImports = .ok [statement] ∧
        statement.root = some tree ∧ ¬ Exports tree "@x" := by
  have hstep : ∀ {n c : Node}, c ∈ n.children → n.isImport = false → n.kind.isPlain = false →
      n.Follows c := fun hchild himport hplain => Node.follows_iff.2 ⟨hchild, himport, hplain⟩
  -- From the file to its block, the property, the value, the expression and the variable.
  have htext : InFollowedText twoImports (Build.variableUse "@x") :=
    .head (hstep (.tail _ (.head _)) rfl rfl) <|
      .head (hstep (.tail _ (.tail _ (.head _))) rfl rfl) <|
        .head (hstep (.tail _ (.head _)) rfl rfl) <|
          .head (hstep (.head _) rfl rfl) <| .single (hstep (.head _) rfl rfl)
  obtain ⟨hused, hunused⟩ := usedNames_cover_text twoImports
  refine ⟨⟨_, rfl, hused _ rfl _ _ htext .variableUse⟩, _, _, rfl, rfl, fun hexports => ?_⟩
  exact hunused false _ rfl _ List.mem_cons_self _ _ rfl hexports _ htext .variableUse

/-! ## Where uses are missed -/

/-- Nodes that each hold a use of `@a` where nothing is looked for. -/
def hiddenUses : List Node :=
  let use : Value := .node (Build.variableUse "@a")
  [.of (.combinator use), .of (.comment use false), .of (.javaScript use), .of (.keyword use),
   .of (.quoted use none false), .of (.unicodeDescriptor use),
   .of (.importRule use .null {} none none), .of (.importRule .null use {} none none)]

/-- A file that imports `@theme` for the path of another import only. -/
def themed : Node :=
  Build.root
    [Build.importRule "theme"
      (some (Build.root [Build.variableDeclaration "@theme" (Build.anonymous "dark")])) true,
     Build.importRule "@\x7btheme\x7d/main" none false]

/-- Uses inside imports and plain texts are missed, and with them imports that are needed. -/
theorem usedNames_miss_hidden_uses :
    (∀ root ∈ hiddenUses, InText root (Build.variableUse "@a") ∧
      Refers (Build.variableUse "@a") "@a" ∧ ∃ used, usedNames root = .ok used ∧ "@a" ∉ used) ∧
    ∃ n statement tree, InText themed n ∧ Refers n "@theme" ∧
      unusedImports false themed = .ok [statement] ∧ statement.root = some tree ∧
        Exports tree "@theme" := by
  have hempty : "@a" ∉ NameSet.empty := List.not_mem_nil
  constructor
  · -- Each of the nodes holds the use directly, and nothing is entered below it.
    intro root hroot
    simp only [hiddenUses, List.mem_cons, List.not_mem_nil, or_false] at hroot
    rcases hroot with rfl | rfl | rfl | rfl | rfl | rfl | rfl | rfl
    all_goals
      exact ⟨.single (Node.holds_iff.2 (.head _)), .variableUse, .empty, rfl, hempty⟩
  · -- The path of the second import refers to what the first one exports.
    refine ⟨Build.quoted "@\x7btheme\x7d/main", _, _, ?_, .quoted ?_, rfl, rfl,
      Build.variableDeclaration "@theme" (Build.anonymous "dark"), ?_, .declaration (by decide)⟩
    · exact .head (Node.holds_iff.2 (.tail _ (.head _)))
        (.single (Node.holds_iff.2 (.head _)))
    · exact mem_interpolations_iff.1 (by decide +kernel)
    · exact .inr (List.mem_singleton_self _)

end ImportSweep

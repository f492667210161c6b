import Mathlib.Data.List.Nodup
import ImportSweep.Proofs.DecodedMembers

/-!
# The contents of a decoded node

`Body.contents` lists the members of a decoded node with what each of them holds. A body is read
from an object exactly when each of these contents is read from the member of its name
(`body_eq_ok_iff`), so decoding can be followed one member at a time.

`Body.put` replaces one of the loosely typed values of a node, and `contents_put` says that it
changes nothing else.
-/

namespace ImportSweep.Tree

/-! ## Contents -/

/-- What a member of a node holds. -/
inductive Content where
  /-- A loosely typed value. -/
  | value (value : Value)
  /-- A list of loosely typed values. -/
  | values (values : List Value)
  /-- A text. -/
  | text (text : String)
  /-- A text that may be absent. -/
  | text? (text : Option String)
  /-- A list of texts. -/
  | texts (texts : List String)
  /-- A truth value. -/
  | flag (flag : Bool)
  /-- A node. -/
  | node (node : Node)
  /-- A node that may be absent. -/
  | node? (node : Option Node)
  /-- A list of nodes. -/
  | nodes (nodes : List Node)
  /-- A list of nodes that may be absent. -/
  | nodes? (nodes : Option (List Node))
  /-- The name of a declaration. -/
  | declaredName (name : DeclaredName)
  /-- The options of an import. -/
  | importOptions (options : ImportOptions)
  /-- The arguments of a mixin call. -/
  | arguments (arguments : List Argument)
  /-- The parameters of a mixin definition. -/
  | parameters (parameters : List Parameter)

namespace Content

/-- What is due where the content stands. -/
def site : Content → Site
  | value _ => .loose
  | values _ => .list .loose
  | text _ | text? _ | texts _ | flag _ => .plain
  | node _ | node? _ => .node
  | nodes _ | nodes? _ | declaredName _ => .list .node
  | importOptions _ => .record .importOptions
  | arguments _ => .list (.record .argument)
  | parameters _ => .list (.record .parameter)

/-- The content is what the member of the name is read as. -/
def IsRead (m : NodeMembers) (name : String) : Content → Prop
  | value v => (m.value name).run = .ok v
  | values vs => (m.values name).run = .ok vs
  | text s => (m.text name).run = .ok s
  | text? s => (m.text? name).run = .ok s
  | texts l => (m.texts name).run = .ok l
  | flag b => (m.flag name).run = .ok b
  | node n => (m.node name).run = .ok n
  | node? n => (m.node? name).run = .ok n
  | nodes ns => (m.nodes name).run = .ok ns
  | nodes? ns => (m.nodes? name).run = .ok ns
  | declaredName d => (m.get name (.text "") Reading.declaredName).run = .ok d
  | importOptions o =>
    (m.get name {} (Reading.orElse {} (Fields.read .importOptions Fields.importOptions))).run =
      .ok o
  | arguments l => (m.records name .argument Fields.argument).run = .ok l
  | parameters l => (m.records name .parameter Fields.parameter).run = .ok l

/-- The loosely typed values that the content has, in order. -/
def loose : Content → List Value
  | value v => [v]
  | values vs => vs
  | arguments l => l.map Argument.value
  | parameters l => l.map Parameter.value
  | _ => []

/-- The content with another loosely typed value at one position. -/
def put (i : Nat) (v : Value) : Content → Content
  | value _ => value v
  | values vs => values (vs.set i v)
  | arguments l => arguments (l.modify i fun argument => { argument with value := v })
  | parameters l => parameters (l.modify i fun parameter => { parameter with value := v })
  | c => c

/-- Whether a content is read depends only on the values of the name. -/
theorem isRead_congr {m m' : NodeMembers} {name : String} {c : Content}
    (h : valuesOf name m.members = valuesOf name m'.members) :
    c.IsRead m name ↔ c.IsRead m' name := by
  -- Every reader of a member is `Fields.member`, which looks at these values only.
  cases c <;>
    simp only [IsRead, NodeMembers.value, NodeMembers.values, NodeMembers.text, NodeMembers.text?,
      NodeMembers.texts, NodeMembers.flag, NodeMembers.node, NodeMembers.node?, NodeMembers.nodes,
      NodeMembers.nodes?, NodeMembers.records, NodeMembers.get, member_eq_ok_iff, h]

end Content

/-- The members of a body, with what they hold. -/
def Body.contents : Body → List (String × Content)
  | .anonymous value | .color value | .combinator value | .expression value | .keyword value
  | .negative value | .paren value | .unicodeDescriptor value | .url value | .valueList value =>
    [("value", .value value)]
  | .assignment key value => [("key", .value key), ("value", .value value)]
  | .atRule name value rules =>
    [("name", .text? name), ("value", .value value), ("rules", .nodes rules)]
  | .attributeSelector key op value =>
    [("key", .value key), ("op", .text? op), ("value", .value value)]
  | .call name args => [("name", .text name), ("args", .values args)]
  | .comment value isLineComment =>
    [("value", .value value), ("isLineComment", .flag isLineComment)]
  | .condition op lvalue rvalue negate =>
    [("op", .text? op), ("lvalue", .value lvalue), ("rvalue", .value rvalue),
      ("negate", .flag negate)]
  | .declaration name value isVariable =>
    [("name", .declaredName name), ("value", .value value), ("variable", .flag isVariable)]
  | .detachedRuleset block => [("ruleset", .node block)]
  | .dimension value measure => [("value", .value value), ("unit", .node? measure)]
  | .element join value isVariable =>
    [("combinator", .node? join), ("value", .value value), ("isVariable", .flag isVariable)]
  | .extend target option => [("selector", .node target), ("option", .text? option)]
  | .importRule path features options root importedFilename =>
    [("path", .value path), ("features", .value features), ("options", .importOptions options),
      ("root", .node? root), ("importedFilename", .text? importedFilename)]
  | .javaScript script => [("expression", .value script)]
  | .media features rules => [("features", .value features), ("rules", .nodes rules)]
  | .mixinCall target arguments =>
    [("selector", .node target), ("arguments", .arguments arguments)]
  | .mixinDefinition name selectors params guard rules variadic =>
    [("name", .text name), ("selectors", .nodes selectors), ("params", .parameters params),
      ("condition", .node? guard), ("rules", .nodes rules), ("variadic", .flag variadic)]
  | .namespaceValue value lookups => [("value", .node value), ("lookups", .texts lookups)]
  | .operation op operands => [("op", .text? op), ("operands", .values operands)]
  | .property name => [("name", .text name)]
  | .quoted value quote escaped =>
    [("value", .value value), ("quote", .text? quote), ("escaped", .flag escaped)]
  | .ruleset selectors rules isRoot =>
    [("selectors", .nodes? selectors), ("rules", .nodes rules), ("root", .flag isRoot)]
  | .selector elements extendList guard =>
    [("elements", .nodes elements), ("extendList", .nodes extendList), ("condition", .value guard)]
  | .unit numerator denominator backupUnit =>
    [("numerator", .texts numerator), ("denominator", .texts denominator),
      ("backupUnit", .text? backupUnit)]
  | .variableUse name => [("name", .text name)]
  | .variableCall name => [("variable", .text name)]

/-- A body has the members of its kind. -/
theorem Body.map_site_contents (b : Body) :
    b.contents.map (fun c => (c.1, c.2.site)) = b.kind.members.map (fun k => (k.name, k.site)) := by
  cases b <;> rfl

theorem Body.map_fst_contents (b : Body) :
    b.contents.map Prod.fst = b.kind.members.map Member.name := by
  have hfst := congrArg (List.map Prod.fst) b.map_site_contents
  rw [List.map_map, List.map_map] at hfst
  exact hfst

/-- No two members of a node have the same name. -/
theorem nodup_nodeMembers (kind : Kind) : ((nodeMembers kind).map Member.name).Nodup := by
  cases kind <;> decide

theorem nodup_members (kind : Kind) : (kind.members.map Member.name).Nodup :=
  (List.nodup_cons.1 (List.nodup_cons.1 (nodup_nodeMembers kind)).2).2

theorem ne_of_mem_members {kind : Kind} {k : Member} (hk : k ∈ kind.members) :
    k.name ≠ "type" ∧ k.name ≠ "index" := by
  have hnodup := nodup_nodeMembers kind
  simp only [nodeMembers, List.map_cons, List.nodup_cons, List.mem_cons, not_or] at hnodup
  have hmem : k.name ∈ kind.members.map Member.name := List.mem_map_of_mem hk
  constructor
  · intro htype
    exact hnodup.1.2 (htype ▸ hmem)
  · intro hindex
    exact hnodup.2.1 (hindex ▸ hmem)

/-- What a member holds is of the type that is due in it. -/
theorem Body.site_eq {b : Body} {k : Member} {c : Content} (hk : k ∈ b.kind.members)
    (hc : (k.name, c) ∈ b.contents) : c.site = k.site := by
  have hmem : (k.name, c.site) ∈ b.kind.members.map (fun k => (k.name, k.site)) := by
    rw [← b.map_site_contents]
    exact List.mem_map.2 ⟨(k.name, c), hc, rfl⟩
  obtain ⟨k', hk', heq⟩ := List.mem_map.1 hmem
  obtain ⟨hname, hsite⟩ := Prod.mk.inj heq
  rw [List.inj_on_of_nodup_map (nodup_members b.kind) hk' hk hname] at hsite
  exact hsite.symm

/-- Each member of the kind holds something, and only one thing. -/
theorem Body.exists_content {b : Body} {k : Member} (hk : k ∈ b.kind.members) :
    ∃ c, (k.name, c) ∈ b.contents ∧ c.site = k.site ∧ valuesOf k.name b.contents = [c] := by
  have hmem : k.name ∈ b.contents.map Prod.fst := by
    rw [b.map_fst_contents]
    exact List.mem_map_of_mem hk
  obtain ⟨⟨name, c⟩, hc, rfl⟩ := List.mem_map.1 hmem
  have hnodup : (b.contents.map Prod.fst).Nodup := by
    rw [b.map_fst_contents]
    exact nodup_members b.kind
  exact ⟨c, hc, Body.site_eq hk hc, valuesOf_of_nodup hnodup hc⟩

/-- A body is read exactly when each of its contents is. -/
theorem body_eq_ok_iff {m : NodeMembers} {b : Body} :
    (m.body b.kind).run = .ok b ↔ ∀ c ∈ b.contents, c.2.IsRead m c.1 := by
  -- A constructor is applied to what its members are read as, one after the other.
  cases b <;>
    simp [Body.kind, NodeMembers.body, Body.contents, Content.IsRead, Placed.run_seq_eq_ok_iff,
      Placed.run_map_eq_ok_iff, and_assoc, -Bool.exists_bool]

/-- The loosely typed values of the member `name`, in order. -/
def Body.looseOf (b : Body) (name : String) : List Value :=
  (valuesOf name b.contents).flatMap Content.loose

/-! ## Another value in a member -/

/-- The body with another loosely typed value: the one at position `i` of the member `name`. -/
def Body.put (name : String) (i : Nat) (v : Value) : Body → Body
  | .anonymous value => .anonymous (if "value" = name then v else value)
  | .assignment key value =>
    .assignment (if "key" = name then v else key) (if "value" = name then v else value)
  | .atRule rule value rules => .atRule rule (if "value" = name then v else value) rules
  | .attributeSelector key op value =>
    .attributeSelector (if "key" = name then v else key) op (if "value" = name then v else value)
  | .call function args => .call function (if "args" = name then args.set i v else args)
  | .color value => .color (if "value" = name then v else value)
  | .combinator value => .combinator (if "value" = name then v else value)
  | .comment value isLineComment => .comment (if "value" = name then v else value) isLineComment
  | .condition op lvalue rvalue negate =>
    .condition op (if "lvalue" = name then v else lvalue) (if "rvalue" = name then v else rvalue)
      negate
  | .declaration declared value isVariable =>
    .declaration declared (if "value" = name then v else value) isVariable
  | .dimension value measure => .dimension (if "value" = name then v else value) measure
  | .element join value isVariable =>
    .element join (if "value" = name then v else value) isVariable
  | .expression value => .expression (if "value" = name then v else value)
  | .importRule path features options root importedFilename =>
    .importRule (if "path" = name then v else path) (if "features" = name then v else features)
      options root importedFilename
  | .javaScript script => .javaScript (if "expression" = name then v else script)
  | .keyword value => .keyword (if "value" = name then v else value)
  | .media features rules => .media (if "features" = name then v else features) rules
  | .mixinCall target arguments =>
    .mixinCall target
      (if "arguments" = name then arguments.modify i fun argument => { argument with value := v }
        else arguments)
  | .mixinDefinition mixin selectors params guard rules variadic =>
    .mixinDefinition mixin selectors
      (if "params" = name then params.modify i fun parameter => { parameter with value := v }
        else params) guard rules variadic
  | .negative value => .negative (if "value" = name then v else value)
  | .operation op operands =>
    .operation op (if "operands" = name then operands.set i v else operands)
  | .paren value => .paren (if "value" = name then v else value)
  | .quoted value quote escaped => .quoted (if "value" = name then v else value) quote escaped
  | .selector elements extendList guard =>
    .selector elements extendList (if "condition" = name then v else guard)
  | .unicodeDescriptor value => .unicodeDescriptor (if "value" = name then v else value)
  | .url value => .url (if "value" = name then v else value)
  | .valueList value => .valueList (if "value" = name then v else value)
  | b => b

theorem Body.kind_put (name : String) (i : Nat) (v : Value) (b : Body) :
    (b.put name i v).kind = b.kind := by
  cases b <;> rfl

/-- Only that value is another. -/
theorem Body.contents_put (name : String) (i : Nat) (v : Value) (b : Body) :
    (b.put name i v).contents =
      b.contents.map fun c => (c.1, if c.1 = name then c.2.put i v else c.2) := by
  cases b <;>
    simp [Body.put, Body.contents, Content.put, apply_ite Content.value, apply_ite Content.values,
      apply_ite Content.arguments, apply_ite Content.parameters]

end ImportSweep.Tree

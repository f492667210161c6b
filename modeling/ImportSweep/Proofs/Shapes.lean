import Mathlib.Data.List.Sort
import ImportSweep.Names.Exported
import ImportSweep.Names.Used
import ImportSweep.Proofs.Fallible

/-!
# Shapes of nodes

What a node by itself uses or defines depends on little of the tree below it: on its own texts and
flags, which are its shape, and on what the elements of a few selectors directly below it say, which
are their labels. Rules and the contents of imports are no part of a shape.

## Main definitions

* `Body.shape`: a body with all nodes in it blanked;
* `Node.labels?`: what the elements of a selector say;
* `Body.targets`: the selectors that a node is read through.

## Main results

* `toOption_usedBy_congr`, `toOption_definedBy_congr`: nodes of one shape whose targets have the
  same labels use and define the same names, or both cannot be read;
* `gathered_congr`: the set of names that is gathered from a list of nodes depends only on which
  outcomes there are.
-/

namespace ImportSweep.Tree

/-! ## Shapes -/

/-- The node that stands in a shape for any other. -/
def Node.blank : Node :=
  .of (.unit [] [] none)

mutual

/-- The value with its nodes blanked. -/
def Value.shape : Value → Value
  | .node _ => .node .blank
  | .list items => .list (Value.shapes items)
  | .text t => .text t
  | .number x => .number x
  | .flag b => .flag b
  | .null => .null

/-- The values with their nodes blanked. -/
def Value.shapes : List Value → List Value
  | [] => []
  | v :: vs => v.shape :: Value.shapes vs

end

/-- The declared name with its parts blanked. -/
def DeclaredName.shape : DeclaredName → DeclaredName
  | .text t => .text t
  | .parts ps => .parts (ps.map fun _ => .blank)

/-- The body with its nodes blanked. Rules are dropped, and of an import nothing is left. -/
def Body.shape : Body → Body
  | .anonymous value => .anonymous value.shape
  | .assignment key value => .assignment key.shape value.shape
  | .atRule name value _ => .atRule name value.shape []
  | .attributeSelector key op value => .attributeSelector key.shape op value.shape
  | .call name args => .call name (Value.shapes args)
  | .color value => .color value.shape
  | .combinator value => .combinator value.shape
  | .comment value isLineComment => .comment value.shape isLineComment
  | .condition op lvalue rvalue negate => .condition op lvalue.shape rvalue.shape negate
  | .declaration name value isVariable => .declaration name.shape value.shape isVariable
  | .detachedRuleset _ => .detachedRuleset .blank
  | .dimension value measure => .dimension value.shape (measure.map fun _ => .blank)
  | .element join value isVariable => .element (join.map fun _ => .blank) value.shape isVariable
  | .expression value => .expression value.shape
  | .extend _ option => .extend .blank option
  | .importRule _ _ _ _ _ => .importRule .null .null {} none none
  | .javaScript script => .javaScript script.shape
  | .keyword value => .keyword value.shape
  | .media features _ => .media features.shape []
  | .mixinCall _ arguments =>
    .mixinCall .blank (arguments.map fun argument => ⟨argument.name, argument.value.shape⟩)
  | .mixinDefinition name selectors params guard _ variadic =>
    .mixinDefinition name (selectors.map fun _ => .blank)
      (params.map fun param => ⟨param.name, param.value.shape, param.variadic⟩)
      (guard.map fun _ => .blank) [] variadic
  | .namespaceValue _ lookups => .namespaceValue .blank lookups
  | .negative value => .negative value.shape
  | .operation op operands => .operation op (Value.shapes operands)
  | .paren value => .paren value.shape
  | .property name => .property name
  | .quoted value quote escaped => .quoted value.shape quote escaped
  | .ruleset selectors _ isRoot => .ruleset (selectors.map (·.map fun _ => .blank)) [] isRoot
  | .selector elements extendList guard =>
    .selector (elements.map fun _ => .blank) (extendList.map fun _ => .blank) guard.shape
  | .unicodeDescriptor value => .unicodeDescriptor value.shape
  | .unit numerator denominator backupUnit => .unit numerator denominator backupUnit
  | .url value => .url value.shape
  | .valueList value => .valueList value.shape
  | .variableUse name => .variableUse name
  | .variableCall name => .variableCall name

theorem Body.kind_shape (body : Body) : body.shape.kind = body.kind := by
  cases body <;> rfl

theorem Body.kind_eq_of_shape_eq {body body' : Body} (h : body.shape = body'.shape) :
    body.kind = body'.kind := by
  rw [← body.kind_shape, h, body'.kind_shape]

theorem Node.isImport_iff_kind {n : Node} : n.isImport = true ↔ n.kind = .importRule := by
  obtain ⟨index, body⟩ := n
  cases body <;> simp [Node.isImport, Node.kind, Body.kind]

theorem Node.isImport_eq_of_shape_eq {n n' : Node} (h : n.body.shape = n'.body.shape) :
    n.isImport = n'.isImport := by
  rw [Bool.eq_iff_iff, Node.isImport_iff_kind, Node.isImport_iff_kind, Node.kind, Node.kind,
    Body.kind_eq_of_shape_eq h]

/-! ## Labels of selectors -/

/-- What an element of a selector says. -/
inductive Label where
  /-- A plain text. -/
  | plain (text : String)
  /-- It is an element, but its text is not plain. -/
  | loose
  /-- It is no element. -/
  | foreign
  deriving DecidableEq, Repr

/-- What a body says as an element of a selector. -/
def Body.label : Body → Label
  | .element _ (.text text) _ => .plain text
  | .element _ _ _ => .loose
  | _ => .foreign

/-- The elements of a body that is a selector. -/
def Body.elements? : Body → Option (List Node)
  | .selector elements _ _ => some elements
  | _ => none

theorem Body.exists_of_elements?_eq_some {body : Body} {elements : List Node}
    (h : body.elements? = some elements) :
    ∃ extendList guard, body = .selector elements extendList guard := by
  cases body
  case selector elements' extendList guard =>
    cases h
    exact ⟨extendList, guard, rfl⟩
  all_goals cases h

/-- What the elements of a node say, if it is a selector. -/
def Node.labels? (n : Node) : Option (List Label) :=
  n.body.elements?.map (·.map fun element => element.body.label)

/-- The selectors that a node is read through. -/
def Body.targets : Body → List Node
  | .extend target _ => [target]
  | .mixinCall target _ => [target]
  | .ruleset selectors _ _ => selectors.getD []
  | _ => []

theorem Body.label_shape (body : Body) : body.shape.label = body.label := by
  cases body
  case element join value isVariable => cases value <;> rfl
  all_goals rfl

theorem Body.label_eq_of_shape_eq {body body' : Body} (h : body.shape = body'.shape) :
    body.label = body'.label := by
  rw [← body.label_shape, h, body'.label_shape]

theorem Body.length_elements?_shape (body : Body) :
    body.shape.elements?.map List.length = body.elements?.map List.length := by
  cases body
  case selector elements extendList guard => simp [Body.shape, Body.elements?]
  all_goals rfl

theorem Body.length_targets_shape (body : Body) :
    body.shape.targets.length = body.targets.length := by
  cases body
  case ruleset selectors rules isRoot => cases selectors <;> simp [Body.shape, Body.targets]
  all_goals rfl

theorem Body.length_elements?_eq_of_shape_eq {body body' : Body} (h : body.shape = body'.shape) :
    body.elements?.map List.length = body'.elements?.map List.length := by
  rw [← body.length_elements?_shape, h, body'.length_elements?_shape]

theorem Body.length_targets_eq_of_shape_eq {body body' : Body} (h : body.shape = body'.shape) :
    body.targets.length = body'.targets.length := by
  rw [← body.length_targets_shape, h, body'.length_targets_shape]

end ImportSweep.Tree

namespace ImportSweep

/-- Sets of the same names are the same. -/
theorem NameSet.eq_of_mem_iff {a b : NameSet} (h : ∀ name, name ∈ a ↔ name ∈ b) : a = b := by
  obtain ⟨names, hsorted⟩ := a
  obtain ⟨names', hsorted'⟩ := b
  have hnames : names = names' := hsorted.eq_of_mem_iff hsorted' fun name => h name
  subst hnames
  rfl

end ImportSweep

namespace ImportSweep.Names

open ImportSweep.Tree

/-! ## What is read off labels -/

/-- The name that the labels of a mixin call's selector give. -/
def headOf? : List Label → Option String
  | .plain text :: _ => if text = "" then none else some text
  | _ => none

/-- The texts that one label of an extend's selector gives. -/
def targetOf? : Label → Option (List String)
  | .plain text => some [text]
  | .loose => some []
  | .foreign => none

/-- The name that the labels of a block's selector give, if they are those of a class or id. -/
def simpleOf? : List Label → Option (Option String)
  | [.plain text] => some (if isClassOrId text then some text else none)
  | [.foreign] => none
  | _ => some none

/-- The names that the labels of a block's selectors give. -/
def simpleNamesOf? (labels : List (Option (List Label))) : Option (List String) :=
  let names? : List (Option (Option String)) := labels.map (·.bind simpleOf?)
  (names?.mapM id).map fun names => names.filterMap id

theorem toOption_mixinHead (call selector : Node) :
    (mixinHead call selector).toOption = selector.labels?.bind headOf? := by
  obtain ⟨index, body⟩ := selector
  cases body
  case selector elements extendList guard =>
    cases elements with
    | nil => rfl
    | cons first others =>
      obtain ⟨index, body⟩ := first
      cases body
      case element join value isVariable =>
        cases value
        case text text =>
          by_cases htext : text = "" <;>
            simp [mixinHead, Node.labels?, Body.elements?, Body.label, headOf?, htext,
              Except.toOption]
        all_goals rfl
      all_goals rfl
  all_goals rfl

theorem toOption_extendTarget (rule element : Node) :
    (extendTarget rule element).toOption = targetOf? element.body.label := by
  obtain ⟨index, body⟩ := element
  cases body
  case element join value isVariable => cases value <;> rfl
  all_goals rfl

theorem toOption_extendTargets (rule selector : Node) :
    (extendTargets rule selector).toOption =
      selector.labels?.bind fun labels => ((labels.map targetOf?).mapM id).map List.flatten := by
  obtain ⟨index, body⟩ := selector
  cases body
  case selector elements extendList guard =>
    have hlabels : (elements.map fun element => element.body.label).map targetOf? =
        elements.map fun element => (extendTarget rule element).toOption := by
      simp [toOption_extendTarget]
    simp only [extendTargets, Node.labels?, Body.elements?, Option.map_some, Option.bind_some,
      hlabels, ← toOption_mapM]
    cases elements.mapM (extendTarget rule) <;> rfl
  all_goals rfl

theorem toOption_simpleName (target : Node) :
    (simpleName target).toOption = target.labels?.bind simpleOf? := by
  obtain ⟨index, body⟩ := target
  cases body
  case selector elements extendList guard =>
    match elements with
    | [] => rfl
    | [element] =>
      obtain ⟨index, body⟩ := element
      cases body
      case element join value isVariable => cases value <;> rfl
      all_goals rfl
    | first :: second :: others =>
      simp [simpleName, Node.labels?, Body.elements?, simpleOf?, Except.toOption]
  all_goals rfl

/-! ## What a node by itself uses and defines -/

/-- Mixin calls and extends apart, what a node uses is read off its shape. -/
theorem toOption_usedBy_shape {n : Node} (hcall : n.kind ≠ .mixinCall)
    (hextend : n.kind ≠ .extend) :
    (usedBy n).toOption = (usedBy (.of n.body.shape)).toOption := by
  obtain ⟨index, body⟩ := n
  cases body
  case mixinCall => exact absurd rfl hcall
  case extend => exact absurd rfl hextend
  case variableUse name | variableCall name =>
    by_cases hname : name = "" <;> simp [usedBy, Node.of, Body.shape, hname, Except.toOption]
  case element join value isVariable => cases value <;> rfl
  case quoted value quote escaped => cases value <;> rfl
  case url value => cases value <;> rfl
  all_goals rfl

theorem toOption_usedBy_mixinCall {n selector : Node} {arguments : List Argument}
    (hbody : n.body = .mixinCall selector arguments) :
    (usedBy n).toOption = (selector.labels?.bind headOf?).map fun head => [head] := by
  rw [← toOption_mixinHead n]
  simp only [usedBy, hbody]
  cases mixinHead n selector <;> rfl

/-- Nodes of one shape that are read through selectors of the same labels use the same names, or
neither can be read. -/
theorem toOption_usedBy_congr {n n' : Node} (hshape : n.body.shape = n'.body.shape)
    (htargets : n.body.targets.map Node.labels? = n'.body.targets.map Node.labels?) :
    (usedBy n).toOption = (usedBy n').toOption := by
  have hkind : n.kind = n'.kind := Body.kind_eq_of_shape_eq hshape
  by_cases hcall : n.kind = .mixinCall
  · obtain ⟨selector, arguments, hbody⟩ := Body.exists_of_kind_eq_mixinCall hcall
    obtain ⟨selector', arguments', hbody'⟩ :=
      Body.exists_of_kind_eq_mixinCall (hkind.symm.trans hcall)
    have hlabels : selector.labels? = selector'.labels? := by
      simpa [hbody, hbody', Body.targets] using htargets
    rw [toOption_usedBy_mixinCall hbody, toOption_usedBy_mixinCall hbody', hlabels]
  by_cases hextend : n.kind = .extend
  · obtain ⟨selector, option, hbody⟩ := Body.exists_of_kind_eq_extend hextend
    obtain ⟨selector', option', hbody'⟩ :=
      Body.exists_of_kind_eq_extend (hkind.symm.trans hextend)
    have hlabels : selector.labels? = selector'.labels? := by
      simpa [hbody, hbody', Body.targets] using htargets
    simp only [usedBy, hbody, hbody', toOption_extendTargets, hlabels]
  -- All other kinds are read without looking at another node.
  rw [toOption_usedBy_shape hcall hextend, hshape,
    ← toOption_usedBy_shape (hkind ▸ hcall) (hkind ▸ hextend)]

/-- Blocks apart, what a node defines is read off its shape. -/
theorem toOption_definedBy_shape {n : Node} (hblock : n.kind ≠ .ruleset) :
    (definedBy n).toOption = (definedBy (.of n.body.shape)).toOption := by
  obtain ⟨index, body⟩ := n
  cases body
  case ruleset => exact absurd rfl hblock
  case declaration name value isVariable =>
    cases isVariable with
    | false => rfl
    | true =>
      cases name with
      | parts ps => rfl
      | text t =>
        by_cases ht : t = "" <;>
          simp [definedBy, Node.of, Body.shape, DeclaredName.shape, ht, Except.toOption]
  case mixinDefinition name selectors params guard rules variadic =>
    by_cases hname : name = "" <;>
      simp [definedBy, Node.of, Body.shape, hname, Except.toOption]
  all_goals rfl

theorem toOption_definedBy_ruleset {n : Node} {selectors : Option (List Node)}
    {rules : List Node} {isRoot : Bool} (hbody : n.body = .ruleset selectors rules isRoot) :
    (definedBy n).toOption =
      if isRoot then some [] else simpleNamesOf? ((selectors.getD []).map Node.labels?) := by
  obtain ⟨index, body⟩ := n
  subst hbody
  cases isRoot with
  | true => cases selectors <;> rfl
  | false =>
    cases selectors with
    | none => rfl
    | some selectors =>
      have hlabels : ((selectors.map Node.labels?).map fun labels => labels.bind simpleOf?) =
          selectors.map fun selector => (simpleName selector).toOption := by
        simp [toOption_simpleName]
      rw [Option.getD_some, simpleNamesOf?, hlabels, ← toOption_mapM]
      simp only [definedBy]
      cases selectors.mapM simpleName <;> rfl

/-- Nodes of one shape that are read through selectors of the same labels define the same names, or
neither can be read. -/
theorem toOption_definedBy_congr {n n' : Node} (hshape : n.body.shape = n'.body.shape)
    (htargets : n.body.targets.map Node.labels? = n'.body.targets.map Node.labels?) :
    (definedBy n).toOption = (definedBy n').toOption := by
  have hkind : n.kind = n'.kind := Body.kind_eq_of_shape_eq hshape
  by_cases hblock : n.kind = .ruleset
  · obtain ⟨selectors, rules, isRoot, hbody⟩ := Body.exists_of_kind_eq_ruleset hblock
    obtain ⟨selectors', rules', isRoot', hbody'⟩ :=
      Body.exists_of_kind_eq_ruleset (hkind.symm.trans hblock)
    have hroot : isRoot = isRoot' := by
      simp only [hbody, hbody', Body.shape, Body.ruleset.injEq] at hshape
      exact hshape.2.2
    simp only [hbody, hbody', Body.targets] at htargets
    rw [toOption_definedBy_ruleset hbody, toOption_definedBy_ruleset hbody', htargets, hroot]
  rw [toOption_definedBy_shape hblock, hshape, ← toOption_definedBy_shape (hkind ▸ hblock)]

/-! ## Sets of names -/

/-- The set of the names that the nodes of a list give. -/
def gathered (names : Node → Except TreeError (List String)) (ns : List Node) :
    Except TreeError NameSet := do
  let found ← ns.mapM names
  return NameSet.ofList found.flatten

theorem usedNames_eq_gathered (scope : Node) :
    usedNames scope = gathered usedBy (scope.preorder false) :=
  rfl

theorem exportedNames_eq_gathered (scope : Node) :
    exportedNames scope = gathered definedBy (scope :: scope.children) :=
  rfl

variable {names : Node → Except TreeError (List String)} {ns ns' : List Node} {set : NameSet}

/-- A set is gathered when each node gives its names, and then it has these names. -/
theorem gathered_eq_ok_iff :
    gathered names ns = .ok set ↔
      none ∉ ns.map (fun n => (names n).toOption) ∧
        ∀ name, name ∈ set ↔
          ∃ found, some found ∈ ns.map (fun n => (names n).toOption) ∧ name ∈ found := by
  have hall : none ∉ ns.map (fun n => (names n).toOption) ↔
      ∃ found, ns.mapM names = .ok found := by
    rw [exists_mapM_eq_ok_iff]
    simp only [List.mem_map, not_exists, not_and, ← toOption_eq_some_iff,
      ← Option.ne_none_iff_exists', ne_eq]
  have hmem : ∀ found, ns.mapM names = .ok found → ∀ name,
      name ∈ NameSet.ofList found.flatten ↔
        ∃ found, some found ∈ ns.map (fun n => (names n).toOption) ∧ name ∈ found := by
    intro found hfound name
    rw [NameSet.mem_ofList, mem_flatten_of_mapM_eq_ok hfound]
    simp only [List.mem_map, toOption_eq_some_iff]
    constructor
    · rintro ⟨n, hn, texts, htexts, hname⟩
      exact ⟨texts, ⟨n, hn, htexts⟩, hname⟩
    · rintro ⟨texts, ⟨n, hn, htexts⟩, hname⟩
      exact ⟨n, hn, texts, htexts, hname⟩
  rw [hall, gathered, bind_eq_ok_iff]
  constructor
  · rintro ⟨found, hfound, hset⟩
    cases hset
    exact ⟨⟨found, hfound⟩, hmem found hfound⟩
  · rintro ⟨⟨found, hfound⟩, hset⟩
    refine ⟨found, hfound, congrArg Except.ok (NameSet.eq_of_mem_iff fun name => ?_)⟩
    rw [hmem found hfound name, hset name]

/-- The set that is gathered depends only on which outcomes there are. -/
theorem gathered_congr
    (h : ∀ outcome, outcome ∈ ns.map (fun n => (names n).toOption) ↔
      outcome ∈ ns'.map fun n => (names n).toOption) :
    gathered names ns = .ok set ↔ gathered names ns' = .ok set := by
  simp only [gathered_eq_ok_iff, h]

end ImportSweep.Names

import ImportSweep.Proofs.FirstErrors
import ImportSweep.Proofs.Shapes

/-!
# The level that is exported

The exported names of a tree are read off its own level: the tree itself and its children. Of each of
these nodes only the members count that name what it defines. They are its naming, and all the rest
may be anything: values, parameters, guards, and the rules inside (`exportedNames_congr`). A selector
with no element or with several names nothing, so it is left out of the naming of a block.

A node on this level fails when its naming is malformed, and the first one that fails decides
(`exportedNames_eq_error_iff`).

## Main definitions

* `Naming`, `Node.naming`: the members of a node that name what it defines;
* `namesOf?`: the names that are read off them;
* `MalformedDefinition`: a node that should define a name and does not, with its error.
-/

namespace ImportSweep.Tree

/-! ## Namings -/

/-- The node is a selector with no element or with several. -/
def Node.IsSilent (selector : Node) : Prop :=
  ∃ elements, selector.body.elements? = some elements ∧ elements.length ≠ 1

instance (selector : Node) : Decidable selector.IsSilent :=
  decidable_of_iff (selector.body.elements?.any (fun elements => elements.length ≠ 1) = true)
    (by simp [Node.IsSilent, Option.any_eq_true])

/-- The members of a node that name what it defines. -/
inductive Naming where
  /-- Of a declaration: its name, and whether it is that of a variable. -/
  | declared (isVariable : Bool) (name : DeclaredName)
  /-- Of the definition of a mixin: its name. -/
  | mixin (name : String)
  /-- Of a block: whether it is a file, and its selectors without the silent ones. -/
  | block (isRoot : Bool) (selectors : List Node)
  /-- Of any other node: nothing but the kind. -/
  | other (kind : Kind)

/-- The selectors that are not silent. -/
def speaking (selectors : List Node) : List Node :=
  selectors.filter fun selector => ¬ selector.IsSilent

/-- The naming of a node. -/
def Node.naming (n : Node) : Naming :=
  match n.body with
  | .declaration name _ isVariable => .declared isVariable name
  | .mixinDefinition name _ _ _ _ _ => .mixin name
  | .ruleset selectors _ isRoot => .block isRoot (speaking (selectors.getD []))
  | _ => .other n.kind

end ImportSweep.Tree

namespace ImportSweep.Names

open ImportSweep.Tree

/-- The names that the selectors of a block give. -/
def selectorNames (selectors : List Node) : Except TreeError (List String) := do
  return (← selectors.mapM simpleName).filterMap id

/-- The names that a naming gives, if it is well-formed. -/
def namesOf? : Naming → Option (List String)
  | .declared true (.text text) => if text = "" then none else some [text]
  | .declared true (.parts _) => none
  | .declared false _ => some []
  | .mixin name => if name = "" then none else some [name]
  | .block true _ => some []
  | .block false selectors => (selectorNames selectors).toOption
  | .other _ => some []

/-! ## Silent selectors -/

/-- A silent selector gives no name and no error, whatever its elements are. -/
theorem simpleName_of_isSilent {selector : Node} (h : selector.IsSilent) :
    simpleName selector = .ok none := by
  obtain ⟨elements, helements, hlength⟩ := h
  obtain ⟨extendList, guard, hselector⟩ := Body.exists_of_elements?_eq_some helements
  unfold simpleName
  rw [hselector]
  split
  · -- Only a list of one element is looked into.
    next hbody =>
    cases hbody
    exact absurd rfl hlength
  · rfl
  · next hforeign => exact absurd rfl (hforeign _ _ _)

/-- The names of selectors are those of the first and those of the others. -/
theorem selectorNames_cons (selector : Node) (selectors : List Node) :
    selectorNames (selector :: selectors) = (do
      let name ← simpleName selector
      let names ← selectorNames selectors
      return name.toList ++ names) := by
  unfold selectorNames
  rw [List.mapM_cons]
  cases simpleName selector with
  | error e => rfl
  | ok name =>
    cases selectors.mapM simpleName with
    | error e => rfl
    | ok names => cases name <;> rfl

theorem selectorNames_cons_of_isSilent {selector : Node} (h : selector.IsSilent)
    (selectors : List Node) : selectorNames (selector :: selectors) = selectorNames selectors := by
  rw [selectorNames_cons, simpleName_of_isSilent h]
  cases selectorNames selectors <;> rfl

/-- A silent selector may stand anywhere among the others. -/
theorem selectorNames_append_cons_of_isSilent {selector : Node} (h : selector.IsSilent)
    (before after : List Node) :
    selectorNames (before ++ selector :: after) = selectorNames (before ++ after) := by
  induction before with
  | nil => exact selectorNames_cons_of_isSilent h after
  | cons first before ih =>
    rw [List.cons_append, List.cons_append, selectorNames_cons, selectorNames_cons, ih]

/-- The names of selectors are those of the selectors that are not silent. -/
theorem selectorNames_speaking (selectors : List Node) :
    selectorNames (speaking selectors) = selectorNames selectors := by
  unfold speaking
  induction selectors with
  | nil => rfl
  | cons selector selectors ih =>
    by_cases hsilent : selector.IsSilent
    · rw [List.filter_cons_of_neg (by simpa using hsilent), ih,
        selectorNames_cons_of_isSilent hsilent]
    · rw [List.filter_cons_of_pos (by simpa using hsilent), selectorNames_cons, ih,
        ← selectorNames_cons]

/-! ## Names are read off the namings -/

/-- What a node by itself defines is read off its naming. -/
theorem toOption_definedBy (n : Node) : (definedBy n).toOption = namesOf? n.naming := by
  obtain ⟨index, body⟩ := n
  cases body
  case declaration name value isVariable =>
    cases isVariable with
    | false => rfl
    | true =>
      cases name with
      | parts ps => rfl
      | text text =>
        simp only [definedBy, Node.naming, namesOf?]
        split <;> rfl
  case mixinDefinition name selectors params guard rules variadic =>
    simp only [definedBy, Node.naming, namesOf?]
    split <;> rfl
  case ruleset selectors rules isRoot =>
    cases isRoot with
    | true => cases selectors <;> rfl
    | false =>
      -- The naming has fewer selectors than the block, but they give the same names.
      simp only [Node.naming, namesOf?, selectorNames_speaking]
      cases selectors <;> rfl
  all_goals rfl

/-- Trees with the same namings on their own levels export the same names, or neither can be read. -/
theorem exportedNames_congr {scope scope' : Node}
    (h : (scope :: scope.children).map Node.naming = (scope' :: scope'.children).map Node.naming)
    {exported : NameSet} :
    exportedNames scope = .ok exported ↔ exportedNames scope' = .ok exported := by
  have hread : ∀ ns : List Node,
      ns.map (fun n => (definedBy n).toOption) = (ns.map Node.naming).map namesOf? := by
    intro ns
    simp only [toOption_definedBy, List.map_map]
    rfl
  rw [exportedNames_eq_gathered, exportedNames_eq_gathered]
  apply gathered_congr
  intro outcome
  rw [hread, hread, h]

/-! ## Malformed definitions -/

/-- The node among the selectors of a block is no selector, or has a single element that is none. -/
inductive MalformedSelector : Node → TreeError → Prop where
  /-- It is no selector. -/
  | target {selector : Node} (hkind : selector.kind ≠ .selector) :
    MalformedSelector selector (selector.malformed "ruleset selector is not a Selector")
  /-- Its single element is none. -/
  | element {selector element : Node}
    (helements : selector.body.elements? = some [element]) (hkind : element.kind ≠ .element) :
    MalformedSelector selector (element.malformed "selector element is not an Element")

/-- The node should define a name and does not, for this error. -/
inductive MalformedDefinition : Node → TreeError → Prop where
  /-- The definition of a variable has no plain text as its name, or an empty one. -/
  | declaration {n : Node} {name : DeclaredName} {value : Value}
    (hbody : n.body = .declaration name value true)
    (hname : ∀ text, name = .text text → text = "") :
    MalformedDefinition n (n.malformed "variable declaration has no text name")
  /-- The definition of a mixin has no name. -/
  | mixinDefinition {n : Node} {selectors : List Node} {params : List Parameter}
    {guard : Option Node} {rules : List Node} {variadic : Bool}
    (hbody : n.body = .mixinDefinition "" selectors params guard rules variadic) :
    MalformedDefinition n (n.malformed "mixin definition has no name")
  /-- A block other than a file has a selector that is malformed; the first one counts. -/
  | ruleset {n : Node} {selectors rules : List Node} {e : TreeError}
    (hbody : n.body = .ruleset (some selectors) rules false)
    (hfirst : FirstFailure MalformedSelector selectors e) : MalformedDefinition n e

/-- A selector fails exactly when it is malformed. -/
theorem simpleName_eq_error_iff (selector : Node) (e : TreeError) :
    simpleName selector = .error e ↔ MalformedSelector selector e := by
  constructor
  · intro h
    unfold simpleName at h
    -- Either the single element is at fault, or what should be a selector.
    split at h
    · next element extendList guard hselector =>
      split at h
      · cases h
      · cases h
      · next hforeign =>
        cases h
        refine .element (by rw [hselector]; rfl) fun hkind => ?_
        obtain ⟨join, value, isVariable, helement⟩ := Body.exists_of_kind_eq_element hkind
        exact hforeign join value isVariable helement
    · cases h
    · next hforeign =>
      cases h
      refine .target fun hkind => ?_
      obtain ⟨elements, extendList, guard, hselector⟩ := Body.exists_of_kind_eq_selector hkind
      exact hforeign elements extendList guard hselector
  · intro h
    cases h with
    | target hkind =>
      obtain ⟨index, body⟩ := selector
      cases body
      case selector => exact absurd rfl hkind
      all_goals rfl
    | @element element helements hkind =>
      obtain ⟨extendList, guard, hselector⟩ := Body.exists_of_elements?_eq_some helements
      simp only [simpleName, hselector]
      obtain ⟨index, body⟩ := element
      cases body
      case element => exact absurd rfl hkind
      all_goals rfl

/-- A node by itself fails exactly when it should define a name and does not. -/
theorem definedBy_eq_error_iff (n : Node) (e : TreeError) :
    definedBy n = .error e ↔ MalformedDefinition n e := by
  constructor
  · intro h
    unfold definedBy at h
    -- A variable, a mixin, a block; all other nodes define nothing and do not fail.
    split at h
    · next name value hbody =>
      split at h
      · split at h
        · next hempty =>
          cases h
          refine .declaration hbody fun text htext => ?_
          cases htext
          exact hempty
        · cases h
      · cases h
        exact .declaration hbody fun text htext => by cases htext
    · next name selectors params guard rules variadic hbody =>
      split at h
      · next hempty =>
        cases h
        rw [hempty] at hbody
        exact .mixinDefinition hbody
      · cases h
    · next selectors rules hbody =>
      have hselectors := bind_pure_eq_error_iff.1 h
      exact .ruleset hbody ((mapM_eq_error_iff simpleName_eq_error_iff).1 hselectors)
    · cases h
  · intro h
    unfold definedBy
    cases h with
    | @declaration name _ hbody hname =>
      rw [hbody]
      cases name with
      | parts ps => rfl
      | text text => simp only [hname text rfl, if_true]
    | mixinDefinition hbody => simp only [hbody, if_true]
    | ruleset hbody hfirst =>
      simp only [hbody]
      exact bind_pure_eq_error_iff.2 ((mapM_eq_error_iff simpleName_eq_error_iff).2 hfirst)

/-- The exported names of a tree fail with the first error on its own level. -/
theorem exportedNames_eq_error_iff {scope : Node} {e : TreeError} :
    exportedNames scope = .error e ↔
      FirstFailure MalformedDefinition (scope :: scope.children) e := by
  rw [← mapM_eq_error_iff definedBy_eq_error_iff]
  exact bind_pure_eq_error_iff

/-- The exported names of a tree are those of its own level. Another tree with the same namings on its
own level exports the same names, or neither can be read. The names cannot be found exactly when the
tree or a child of it is malformed; the error is that of the tree, or else that of the first child that
is malformed. A selector with no element or with several may be left out of any block. -/
theorem exportedNames_own_level (scope : Node) :
    (∀ scope' : Node,
      (scope :: scope.children).map Node.naming = (scope' :: scope'.children).map Node.naming →
      ∀ exported, exportedNames scope = .ok exported ↔ exportedNames scope' = .ok exported) ∧
    ((∃ e, exportedNames scope = .error e) ↔
      ∃ n, (n = scope ∨ n ∈ scope.children) ∧ ∃ e, MalformedDefinition n e) ∧
    (∀ e, exportedNames scope = .error e ↔
      MalformedDefinition scope e ∨
        (∀ e', ¬ MalformedDefinition scope e') ∧
          FirstFailure MalformedDefinition scope.children e) ∧
    ∀ selector : Node, selector.IsSilent → ∀ index before after rules,
      definedBy ⟨index, .ruleset (some (before ++ selector :: after)) rules false⟩ =
        definedBy ⟨index, .ruleset (some (before ++ after)) rules false⟩ := by
  refine ⟨fun scope' h exported => exportedNames_congr h, ?_, fun e => ?_, ?_⟩
  · simp only [exportedNames_eq_error_iff, exists_firstFailure_iff, List.mem_cons]
  · rw [exportedNames_eq_error_iff, firstFailure_cons_iff]
  · intro selector hsilent index before after rules
    exact selectorNames_append_cons_of_isSilent hsilent before after

/-- A tree that defines a variable, a mixin and a class. -/
def plainSheet : Node :=
  Build.root
    [Build.variableDeclaration "@x" (Build.anonymous "red"), Build.mixinDefinition ".m" [],
     Build.ruleset [".box", "a b"] []]

/-- A tree with the same namings. It has other values, another selector of several elements, and rules
in which a variable has no name. -/
def nestedSheet : Node :=
  Build.root
    [Build.variableDeclaration "@x" (Build.variableUse "@y"),
     Build.mixinDefinition ".m" [Build.variableDeclaration "" (Build.anonymous "red")],
     Build.ruleset [".a .b .c", ".box"] [Build.ruleset [".inner"] [], Build.mixinDefinition "" []]]

/-- The two trees export the same three names. -/
theorem exportedNames_own_level_nestedSheet :
    ∃ exported, exportedNames plainSheet = .ok exported ∧ exportedNames nestedSheet = .ok exported ∧
      exported.names = [".box", ".m", "@x"] := by
  obtain ⟨hsame, -⟩ := exportedNames_own_level plainSheet
  have hplain : (exportedNames plainSheet).toOption.map NameSet.names =
      some [".box", ".m", "@x"] := by decide +kernel
  obtain ⟨exported, hexported, hnames⟩ := Option.map_eq_some_iff.1 hplain
  have hexported := toOption_eq_some_iff.1 hexported
  exact ⟨exported, hexported, (hsame nestedSheet rfl exported).1 hexported, hnames⟩

end ImportSweep.Names

import ImportSweep.Proofs.Detection

/-!
# The first error

The names that a file uses cannot be found when a node of the file is malformed, and the unused imports
cannot be found either when the tree of an import has no exported names. The error that is reported is
that of the first such node in the order of the text, whatever comes after it. Places give this order:
a node comes before another when its place is smaller.

## Main definitions

* `MalformedUse`: the node should refer to a name but does not, with the reason;
* `BrokenImport`: the exported names of the tree of an import cannot be found;
* `Node.FirstError`: the first node that fails does so with this error.

## Main results

* `usedBy_eq_error_iff`: a node by itself fails exactly when it is malformed;
* `usedNames_eq_error_iff`, `importSupplies_eq_error_iff`: a file fails with its first error.
-/

namespace ImportSweep.Tree

/-! ## The first of many nodes -/

/-- In the order of the text, the first node of a tree that fails does so with this error. Imports are
not entered. -/
def Node.FirstError (fails : Node → TreeError → Prop) (root : Node) (e : TreeError) : Prop :=
  ∃ place n, root.at? false place = some n ∧ fails n e ∧
    ∀ earlier m, earlier < place → root.at? false earlier = some m → ∀ e', ¬ fails m e'

/-- In the list of the nodes, the first that fails is the one at the smallest place. -/
theorem Node.firstFailure_preorder_iff {root : Node} {fails : Node → TreeError → Prop}
    {e : TreeError} :
    FirstFailure fails (root.preorder false) e ↔ root.FirstError fails e := by
  have hmap : (root.places false).map (root.at? false) = (root.preorder false).map some :=
    root.map_at?_places
  have hincreasing : (root.places false).Pairwise (· < ·) := root.places_increasing
  constructor
  · rintro ⟨before, n, after, hpreorder, hbefore, hn⟩
    rw [hpreorder, List.map_append, List.map_cons] at hmap
    obtain ⟨earlierPlaces, laterPlaces, hplaces, hearlier, hlater⟩ := List.map_eq_append_iff.1 hmap
    obtain ⟨place, behind, rfl, hplace, -⟩ := List.map_eq_cons_iff.1 hlater
    refine ⟨place, n, hplace, hn, fun earlier m hlt hm => hbefore m ?_⟩
    -- The smaller place is listed, and it cannot be listed behind the larger one.
    have hmem : earlier ∈ earlierPlaces := by
      have hlisted : earlier ∈ root.places false := Node.mem_places_iff.2 ⟨m, hm⟩
      rw [hplaces] at hlisted hincreasing
      obtain ⟨-, hbehind, -⟩ := List.pairwise_append.1 hincreasing
      rcases List.mem_append.1 hlisted with hmem | hmem
      · exact hmem
      · exfalso
        rcases List.mem_cons.1 hmem with rfl | hmem
        · exact List.lt_irrefl _ hlt
        · exact List.lt_asymm hlt ((List.pairwise_cons.1 hbehind).1 earlier hmem)
    have hsome : some m ∈ before.map some := by
      rw [← hearlier, ← hm]
      exact List.mem_map_of_mem hmem
    simpa using hsome
  · rintro ⟨place, n, hplace, hn, hbefore⟩
    obtain ⟨earlierPlaces, behind, hplaces⟩ :=
      List.append_of_mem (Node.mem_places_iff.2 ⟨n, hplace⟩)
    rw [hplaces, List.map_append, List.map_cons, hplace, eq_comm] at hmap
    obtain ⟨before, rest, hpreorder, hearlier, hrest⟩ := List.map_eq_append_iff.1 hmap
    obtain ⟨n', after, rfl, hn', -⟩ := List.map_eq_cons_iff.1 hrest
    cases hn'
    refine ⟨before, n, after, hpreorder, fun m hm => ?_, hn⟩
    -- The node has a place, which is listed before the place of the other.
    have hsome : some m ∈ earlierPlaces.map (root.at? false) := by
      rw [← hearlier]
      exact List.mem_map_of_mem hm
    obtain ⟨earlier, hmem, hat⟩ := List.mem_map.1 hsome
    rw [hplaces] at hincreasing
    exact hbefore earlier m
      ((List.pairwise_append.1 hincreasing).2.2 earlier hmem place List.mem_cons_self) hat

/-- There is a first error as soon as some node of the tree fails. -/
theorem Node.exists_firstError_iff {root : Node} {fails : Node → TreeError → Prop} :
    (∃ e, root.FirstError fails e) ↔ ∃ place n e, root.at? false place = some n ∧ fails n e := by
  simp only [← Node.firstFailure_preorder_iff, exists_firstFailure_iff, Node.mem_preorder_iff]
  constructor
  · rintro ⟨n, ⟨place, hplace⟩, e, he⟩
    exact ⟨place, n, e, hplace, he⟩
  · rintro ⟨place, n, e, hplace, he⟩
    exact ⟨n, ⟨place, hplace⟩, e, he⟩

end ImportSweep.Tree

namespace ImportSweep.Names

open ImportSweep.Tree

/-! ## Malformed uses -/

/-- The node should refer to a name and does not, for the reason given. -/
inductive MalformedUse : Node → String → Prop where
  /-- The use of a variable without a name. -/
  | variableUse {index : Option Nat} :
    MalformedUse ⟨index, .variableUse ""⟩ "variable has no name"
  /-- The call of a variable without a name. -/
  | variableCall {index : Option Nat} :
    MalformedUse ⟨index, .variableCall ""⟩ "variable call has no variable"
  /-- The use of a mixin whose selector is none. -/
  | callTarget {index : Option Nat} {selector : Node} {arguments : List Argument}
    (hkind : selector.kind ≠ .selector) :
    MalformedUse ⟨index, .mixinCall selector arguments⟩ "mixin call selector is not a Selector"
  /-- The use of a mixin whose selector is empty. -/
  | callEmpty {index : Option Nat} {selector : Node} {arguments : List Argument}
    {extendList : List Node} {guard : Value}
    (hselector : selector.body = .selector [] extendList guard) :
    MalformedUse ⟨index, .mixinCall selector arguments⟩ "mixin call has no selector elements"
  /-- The use of a mixin whose selector does not begin with an element. -/
  | callElement {index : Option Nat} {selector first : Node} {arguments : List Argument}
    {others extendList : List Node} {guard : Value}
    (hselector : selector.body = .selector (first :: others) extendList guard)
    (hkind : first.kind ≠ .element) :
    MalformedUse ⟨index, .mixinCall selector arguments⟩
      "mixin call selector element is not an Element"
  /-- The use of a mixin whose selector begins with an element that has no plain text, or an empty
  one. -/
  | callName {index : Option Nat} {selector first : Node} {arguments : List Argument}
    {others extendList : List Node} {guard value : Value} {join : Option Node} {isVariable : Bool}
    (hselector : selector.body = .selector (first :: others) extendList guard)
    (hfirst : first.body = .element join value isVariable)
    (hname : ∀ text, value = .text text → text = "") :
    MalformedUse ⟨index, .mixinCall selector arguments⟩ "mixin call name is not text"
  /-- An extend whose selector is none. -/
  | extendTarget {index : Option Nat} {selector : Node} {option : Option String}
    (hkind : selector.kind ≠ .selector) :
    MalformedUse ⟨index, .extend selector option⟩ "extend target is not a Selector"
  /-- An extend with something among its targets that is no element. -/
  | extendElement {index : Option Nat} {selector element : Node} {option : Option String}
    {elements extendList : List Node} {guard : Value}
    (hselector : selector.body = .selector elements extendList guard)
    (hmem : element ∈ elements) (hkind : element.kind ≠ .element) :
    MalformedUse ⟨index, .extend selector option⟩ "extend target element is not an Element"

/-- The error of a node that is malformed. -/
def UseError (n : Node) (e : TreeError) : Prop :=
  ∃ reason, MalformedUse n reason ∧ e = n.malformed reason

/-- The head of a mixin call is not found exactly when the call is malformed. -/
theorem mixinHead_eq_error_iff {index : Option Nat} {selector : Node} {arguments : List Argument}
    {e : TreeError} :
    mixinHead ⟨index, .mixinCall selector arguments⟩ selector = .error e ↔
      UseError ⟨index, .mixinCall selector arguments⟩ e := by
  constructor
  · intro h
    unfold mixinHead at h
    -- The cases are those of the selector, then of its first element, then of the text in there.
    split at h
    · next hselector =>
      cases h
      exact ⟨_, .callEmpty hselector, rfl⟩
    · next first others extendList guard hselector =>
      split at h
      · next join text isVariable hfirst =>
        split at h
        · next hempty =>
          cases h
          refine ⟨_, .callName hselector hfirst fun text' htext => ?_, rfl⟩
          cases htext
          exact hempty
        · cases h
      · next join value isVariable hloose hfirst =>
        cases h
        exact ⟨_, .callName hselector hfirst fun text htext => (hloose text htext).elim, rfl⟩
      · next hforeign =>
        cases h
        refine ⟨_, .callElement hselector fun hkind => ?_, rfl⟩
        obtain ⟨join, value, isVariable, hfirst⟩ := Body.exists_of_kind_eq_element hkind
        exact hforeign join value isVariable hfirst
    · next hempty hfirst =>
      cases h
      refine ⟨_, .callTarget fun hkind => ?_, rfl⟩
      obtain ⟨elements, extendList, guard, hselector⟩ := Body.exists_of_kind_eq_selector hkind
      cases elements with
      | nil => exact hempty extendList guard hselector
      | cons first others => exact hfirst first others extendList guard hselector
  · rintro ⟨reason, hmalformed, rfl⟩
    cases hmalformed with
    | callTarget hkind =>
      -- Every body but that of a selector ends in the last case.
      obtain ⟨index', body⟩ := selector
      cases body
      case selector => exact absurd rfl hkind
      all_goals rfl
    | callEmpty hselector => simp only [mixinHead, hselector]
    | @callElement _ _ first _ _ _ _ hselector hkind =>
      simp only [mixinHead, hselector]
      obtain ⟨index', body⟩ := first
      cases body
      case element => exact absurd rfl hkind
      all_goals rfl
    | @callName _ _ _ _ _ _ _ value _ _ hselector hfirst hname =>
      simp only [mixinHead, hselector, hfirst]
      cases value
      case text text => simp [hname text rfl]
      all_goals rfl

/-- One target of an extend is not found exactly when it is no element. -/
theorem extendTarget_eq_error_iff (rule element : Node) (e : TreeError) :
    extendTarget rule element = .error e ↔
      element.kind ≠ .element ∧ e = rule.malformed "extend target element is not an Element" := by
  obtain ⟨index, body⟩ := element
  cases body
  case element join value isVariable => simp [extendTarget, Node.kind, Body.kind]
  all_goals simp [extendTarget, Node.kind, Body.kind, eq_comm]

/-- The targets of an extend are not found exactly when the extend is malformed. -/
theorem extendTargets_eq_error_iff {index : Option Nat} {selector : Node} {option : Option String}
    {e : TreeError} :
    extendTargets ⟨index, .extend selector option⟩ selector = .error e ↔
      UseError ⟨index, .extend selector option⟩ e := by
  constructor
  · intro h
    unfold extendTargets at h
    split at h
    · next elements extendList guard hselector =>
      obtain ⟨before, element, after, rfl, -, hkind, rfl⟩ :=
        (mapM_eq_error_iff (extendTarget_eq_error_iff _)).1 (bind_pure_eq_error_iff.1 h)
      exact ⟨_, .extendElement hselector List.mem_append_cons_self hkind, rfl⟩
    · next hforeign =>
      cases h
      refine ⟨_, .extendTarget fun hkind => ?_, rfl⟩
      obtain ⟨elements, extendList, guard, hselector⟩ := Body.exists_of_kind_eq_selector hkind
      exact hforeign elements extendList guard hselector
  · rintro ⟨reason, hmalformed, rfl⟩
    cases hmalformed with
    | extendTarget hkind =>
      obtain ⟨index', body⟩ := selector
      cases body
      case selector => exact absurd rfl hkind
      all_goals rfl
    | extendElement hselector hmem hkind =>
      simp only [extendTargets, hselector]
      rw [bind_pure_eq_error_iff, mapM_eq_error_iff (extendTarget_eq_error_iff _)]
      -- All targets that fail do so with the same error, so it does not matter which is the first.
      exact firstFailure_of_forall_eq hmem ⟨hkind, rfl⟩ fun _ _ _ hfails => hfails.2

/-- A node by itself fails exactly when it is malformed. -/
theorem usedBy_eq_error_iff (n : Node) (e : TreeError) : usedBy n = .error e ↔ UseError n e := by
  obtain ⟨index, body⟩ := n
  cases body
  case variableUse name | variableCall name =>
    -- The two differ in the reason alone.
    simp only [usedBy]
    split
    · next hempty =>
      subst hempty
      constructor
      · intro h
        cases h
        exact ⟨_, by constructor, rfl⟩
      · rintro ⟨reason, ⟨⟩, rfl⟩
        rfl
    · next hname =>
      refine iff_of_false (by simp) ?_
      rintro ⟨reason, ⟨⟩, -⟩
      exact hname rfl
  case mixinCall selector arguments =>
    rw [← mixinHead_eq_error_iff]
    exact bind_pure_eq_error_iff
  case extend selector option => exact extendTargets_eq_error_iff
  -- No other node fails, and no other node is malformed.
  all_goals
    refine iff_of_false (by simp [usedBy]) ?_
    rintro ⟨reason, ⟨⟩, -⟩

/-- The used names of a file fail with the error of the first malformed node. -/
theorem usedNames_eq_error_iff {root : Node} {e : TreeError} :
    usedNames root = .error e ↔ root.FirstError UseError e := by
  rw [← Node.firstFailure_preorder_iff, ← mapM_eq_error_iff usedBy_eq_error_iff]
  exact bind_pure_eq_error_iff

end ImportSweep.Names

namespace ImportSweep

open ImportSweep.Tree ImportSweep.Names

/-! ## Broken imports -/

/-- The node is an import with a tree whose exported names cannot be found, for this error. -/
def BrokenImport (n : Node) (e : TreeError) : Prop :=
  ∃ statement, ImportStatement.ofNode? n = some statement ∧
    ∃ tree, statement.root = some tree ∧ exportedNames tree = .error e

/-- Of an import, only its tree can fail. -/
theorem importSupply_eq_error_iff (statement : ImportStatement) (e : TreeError) :
    importSupply statement = .error e ↔
      ∃ tree, statement.root = some tree ∧ exportedNames tree = .error e := by
  unfold importSupply
  split
  · next tree htree =>
    rw [bind_pure_eq_error_iff, htree]
    simp
  · next hnone => simp [hnone]

/-- The imports of a file with their names fail with the error of the first broken import. -/
theorem importSupplies_eq_error_iff {root : Node} {e : TreeError} :
    importSupplies root = .error e ↔ root.FirstError BrokenImport e := by
  rw [importSupplies, mapM_eq_error_iff importSupply_eq_error_iff, imports,
    firstFailure_filterMap_iff, ← Node.firstFailure_preorder_iff]
  rfl

/-- The unused imports fail with the used names, or else with the names of the imports. -/
theorem unusedImports_eq_error_iff {referenceOnly : Bool} {root : Node} {e : TreeError} :
    unusedImports referenceOnly root = .error e ↔
      usedNames root = .error e ∨
        (∃ used, usedNames root = .ok used) ∧ importSupplies root = .error e := by
  rw [unusedImports, bind_eq_error_iff]
  simp only [bind_pure_eq_error_iff, exists_and_right]

/-- Failures are exact, and the first one counts. The used names of a file cannot be found exactly when
a node outside imports is malformed, and the error is that of the first such node in the order of the
text: its kind, the reason and its text. The unused imports fail with the same error. If the used names
can be found, the unused imports fail exactly when the tree of an import does, with the error of the
first such import. -/
theorem unusedImports_fails_first (referenceOnly : Bool) (root : Node) :
    ((∃ e, usedNames root = .error e) ↔
      ∃ place n reason, root.at? false place = some n ∧ MalformedUse n reason) ∧
    (∀ e, usedNames root = .error e ↔ root.FirstError UseError e) ∧
    ((∃ e, unusedImports referenceOnly root = .error e) ↔
      (∃ e, usedNames root = .error e) ∨
        ∃ place n e, root.at? false place = some n ∧ BrokenImport n e) ∧
    (∀ e, unusedImports referenceOnly root = .error e ↔
      usedNames root = .error e ∨
        (∃ used, usedNames root = .ok used) ∧ root.FirstError BrokenImport e) := by
  refine ⟨?_, fun e => usedNames_eq_error_iff, ?_, fun e => ?_⟩
  · simp only [usedNames_eq_error_iff, Node.exists_firstError_iff]
    constructor
    · rintro ⟨place, n, e, hplace, reason, hmalformed, -⟩
      exact ⟨place, n, reason, hplace, hmalformed⟩
    · rintro ⟨place, n, reason, hplace, hmalformed⟩
      exact ⟨place, n, _, hplace, reason, hmalformed, rfl⟩
  · rw [← Node.exists_firstError_iff]
    simp only [unusedImports_eq_error_iff, importSupplies_eq_error_iff, exists_or, exists_and_left]
    -- The used names can be found or not, and in the second case the imports do not matter.
    rw [exists_eq_error_iff]
    tauto
  · rw [unusedImports_eq_error_iff, importSupplies_eq_error_iff]

/-- A tree in which a variable has no name. -/
def namelessTree : Node :=
  Build.root [Build.variableDeclaration "" (Build.anonymous "red")]

/-- A file with an import that is broken, a mixin call without a selector, and the use of a variable
without a name. -/
def faultyFile : Node :=
  Build.root
    [Build.importRule "a" (some namelessTree) false,
     Build.ruleset [".box"] [Build.mixinCall [], Build.variableUse ""]]

/-- A file with two imports, of which the second is broken. -/
def brokenFile : Node :=
  Build.root
    [Build.importRule "a" (some (Build.root [])) false,
     Build.importRule "b" (some namelessTree) false]

/-- In the faulty file the mixin call comes first. In the other file nothing is malformed, so the
unused imports fail with the broken one. -/
theorem unusedImports_fails_first_faultyFile :
    (∃ e, e = (Build.mixinCall []).malformed "mixin call has no selector elements" ∧
      faultyFile.FirstError UseError e ∧ unusedImports false faultyFile = .error e) ∧
    ∃ e, exportedNames namelessTree = .error e ∧ brokenFile.FirstError BrokenImport e := by
  have hused : usedNames faultyFile =
      .error ((Build.mixinCall []).malformed "mixin call has no selector elements") := rfl
  obtain ⟨-, hfirst, -, hunused⟩ := unusedImports_fails_first false faultyFile
  obtain ⟨-, -, -, hbroken⟩ := unusedImports_fails_first false brokenFile
  refine ⟨⟨_, rfl, (hfirst _).1 hused, (hunused _).2 (.inl hused)⟩, _, rfl, ?_⟩
  -- The used names of the other file can be found, so that the error is that of an import.
  have hfails : unusedImports false brokenFile = .error _ := rfl
  rcases (hbroken _).1 hfails with hused | ⟨-, hbroken⟩
  · cases hused
  · exact hbroken

end ImportSweep

import Mathlib.Data.List.Perm.Basic
import ImportSweep.Proofs.PlacedImports

/-!
# The order of rules

Rules of a block may stand in any order. Reordering the rules of any number of blocks, at any depth
of the text, changes neither the names that a file exports nor those that it uses, and the same
imports are reported as unused, though maybe in another order (`unusedImports_reordered`).

Both the nodes that are visited and their order change, since a rule that moves is itself reordered
inside. `Node.preorder_reordered` keeps track of both: up to order, a walk visits the nodes that it
visited before, each as it was reordered.
-/

namespace ImportSweep.Tree

/-- The edit reorders rules and does nothing else. -/
def RuleEdit.Reorders (edit : RuleEdit) : Prop :=
  ∀ place first rules, (edit place first rules).Perm rules

/-- The edit as it is seen from the node at that place. -/
def RuleEdit.seenFrom (edit : RuleEdit) (above : List Nat) : RuleEdit :=
  fun place => edit (above ++ place)

/-- The tree that an import holds. -/
def Body.imported? : Body → Option Node
  | .importRule _ _ _ root _ => root
  | _ => none

/-- The children of a node are what it holds in the text, unless it is a plain text, and then the
tree that it imports. -/
theorem Node.children_eq (n : Node) :
    n.children = (if n.kind.isPlain then [] else n.held) ++ n.body.imported?.toList := by
  obtain ⟨index, body⟩ := n
  cases body
  all_goals
    simp [Node.children, Body.children, Node.held, Body.members, Node.kind, Body.kind,
      Kind.isPlain, Body.imported?, Value.nodes_ofNodes, Value.nodesOf_eq_flatMap, Value.nodes]

theorem Body.imported?_editRules (edit : RuleEdit) (body : Body) :
    (body.editRules edit).imported? = body.imported? := by
  cases body
  case ruleset selectors rules isRoot => cases selectors <;> rfl
  all_goals rfl

section Reordered

variable {edit : RuleEdit} (hedit : edit.Reorders)

include hedit

theorem RuleEdit.Reorders.below (i : Nat) : (edit.below i).Reorders :=
  fun place => hedit (i :: place)

/-- Up to order, a node holds the nodes that it held, each reordered. -/
theorem Node.held_reordered (n : Node) :
    (n.editRules edit).held.Perm (Node.editFrom edit 0 n.held) := by
  have hnil : ∀ place first, edit place first [] = [] := fun place first =>
    List.perm_nil.1 (hedit place first [])
  rw [Node.held_editRules edit hnil, n.held_eq, Node.editFrom_append, Nat.zero_add]
  exact (hedit _ _ _).append_left _

theorem Node.entered_reordered (n : Node) :
    ((n.editRules edit).entered false).Perm (Node.editFrom edit 0 (n.entered false)) := by
  rw [Node.entered_eq_held, Node.entered_eq_held, Node.isImport_editRules, Node.kind_editRules]
  split
  · exact .nil
  · exact Node.held_reordered hedit n

/-- Up to order, a walk visits the nodes that it visited, each reordered. -/
theorem Node.preorder_reordered (n : Node) :
    ((n.editRules edit).preorder false).Perm
      (n.placed.map fun entry => entry.2.editRules (edit.seenFrom entry.1)) := by
  induction n using Node.children_induction generalizing edit with
  | node n ih =>
    rw [Node.preorder_eq, n.placed_eq, List.map_cons, List.map_flatMap]
    refine List.Perm.cons _ (((Node.entered_reordered hedit n).flatMap_right _).trans ?_)
    rw [Node.editFrom_eq_map, List.flatMap_map]
    refine List.Perm.flatMap_left _ fun numbered hnumbered => ?_
    -- The children that are entered are walked as they are seen from their numbers.
    have hchild : numbered.1 ∈ n.children :=
      Node.mem_children_of_mem_entered (List.fst_mem_of_mem_zipIdx hnumbered)
    rw [List.map_map]
    exact ih numbered.1 hchild (hedit.below numbered.2)

end Reordered

end ImportSweep.Tree

namespace ImportSweep

open ImportSweep.Tree ImportSweep.Names

variable {edit : RuleEdit} {root : Node}

/-! ## What the analysis finds after rules were reordered -/

/-- A file exports the same names, or its names can still not be found. -/
theorem exportedNames_reordered (hedit : edit.Reorders) {names : NameSet} :
    exportedNames (root.editRules edit) = .ok names ↔ exportedNames root = .ok names := by
  let outcome : Node → Option (List String) := fun n => (definedBy n).toOption
  have hsame : ∀ edit n, outcome (n.editRules edit) = outcome n := toOption_definedBy_editRules
  have hheld : ((root.editRules edit).held.map outcome).Perm (root.held.map outcome) := by
    rw [← Node.map_editFrom edit hsame 0 root.held]
    exact (Node.held_reordered hedit root).map outcome
  have hchildren : ((root.editRules edit).children.map outcome).Perm
      (root.children.map outcome) := by
    rw [Node.children_eq, Node.children_eq, Node.kind_editRules, Node.body_editRules,
      Body.imported?_editRules, List.map_append, List.map_append]
    refine List.Perm.append_right _ ?_
    split
    · exact .nil
    · exact hheld
  -- The file itself is read as before, and so are its children in another order.
  have hall : ((root.editRules edit :: (root.editRules edit).children).map outcome).Perm
      ((root :: root.children).map outcome) := by
    rw [List.map_cons, List.map_cons, hsame]
    exact hchildren.cons _
  rw [exportedNames_eq_gathered, exportedNames_eq_gathered]
  exact gathered_congr fun found => hall.mem_iff

/-- A file uses the same names, or its names can still not be found. -/
theorem usedNames_reordered (hedit : edit.Reorders) {used : NameSet} :
    usedNames (root.editRules edit) = .ok used ↔ usedNames root = .ok used := by
  rw [usedNames_eq_gathered, usedNames_eq_gathered]
  refine gathered_congr fun outcome => ?_
  have hvisited := (Node.preorder_reordered hedit root).map fun n => (usedBy n).toOption
  rw [List.map_map] at hvisited
  rw [hvisited.mem_iff, ← root.map_snd_placed, List.map_map]
  simp only [Function.comp_def, toOption_usedBy_editRules]

/-- Up to order, the imports of a file are those that it had, each reordered. -/
theorem imports_reordered (hedit : edit.Reorders) (root : Node) :
    (imports (root.editRules edit)).Perm
      ((placedImports root).map fun entry => entry.2.editRules (edit.seenFrom entry.1)) := by
  have hvisited := (Node.preorder_reordered hedit root).filterMap ImportStatement.ofNode?
  rw [List.filterMap_map] at hvisited
  rw [imports, placedImports, List.map_filterMap]
  simpa only [Function.comp_def, ofNode?_editRules, Option.map_map] using hvisited

/-- The names of all imports can be found as before. -/
theorem supplies_reordered (hedit : edit.Reorders) :
    (∀ entry ∈ placedImports (root.editRules edit),
        ∃ supply, importSupply entry.2 = .ok supply) ↔
      ∀ entry ∈ placedImports root, ∃ supply, importSupply entry.2 = .ok supply := by
  let found (statement : ImportStatement) : Prop := ∃ supply, importSupply statement = .ok supply
  have hfound : ∀ edit statement, found (statement.editRules edit) ↔ found statement := by
    intro edit statement
    simp only [found, importSupply_editRules]
    cases importSupply statement <;> simp [Except.map]
  calc (∀ entry ∈ placedImports (root.editRules edit), found entry.2)
      ↔ ∀ statement ∈ imports (root.editRules edit), found statement := by
        rw [← map_snd_placedImports, List.forall_mem_map]
    _ ↔ ∀ entry ∈ placedImports root, found (entry.2.editRules (edit.seenFrom entry.1)) := by
        simp only [(imports_reordered hedit root).mem_iff, List.forall_mem_map]
    _ ↔ ∀ entry ∈ placedImports root, found entry.2 := by
        simp only [hfound]

/-- The import is reported as it was when nothing is reordered below its path. -/
theorem editRules_eq_self_of_none {statement : ImportStatement} {place : List Nat}
    (h : ∀ below, edit (place ++ below) = RuleEdit.none below) :
    statement.editRules (edit.seenFrom place) = statement := by
  have hnone : edit.seenFrom place = .none := funext h
  rw [hnone, ImportStatement.editRules, Value.editRules_none]

/-- The order of rules does not matter: however the rules of the blocks of a file are reordered, at
any depth, the same names are exported and used, and the same imports are reported, up to order.
What is reported of an import is as it was, unless rules below its own path were reordered. -/
theorem unusedImports_reordered (root : Node) (edit : RuleEdit) (hedit : edit.Reorders) :
    (∀ names, exportedNames (root.editRules edit) = .ok names ↔ exportedNames root = .ok names) ∧
    (∀ used, usedNames (root.editRules edit) = .ok used ↔ usedNames root = .ok used) ∧
    ∀ referenceOnly,
      ((∃ unused', unusedImports referenceOnly (root.editRules edit) = .ok unused') ↔
        ∃ unused, unusedImports referenceOnly root = .ok unused) ∧
      ∀ unused unused', unusedImports referenceOnly root = .ok unused →
        unusedImports referenceOnly (root.editRules edit) = .ok unused' →
        ∃ reported : List (List Nat × ImportStatement),
          reported.Sublist (placedImports root) ∧
          (∀ entry ∈ placedImports root, entry ∈ reported ↔ entry.2 ∈ unused) ∧
          reported.map Prod.snd = unused ∧
          unused'.Perm (reported.map fun entry => entry.2.editRules (edit.seenFrom entry.1)) ∧
          ((∀ entry ∈ reported, ∀ below, edit (entry.1 ++ below) = RuleEdit.none below) →
            unused'.Perm unused) := by
  refine ⟨fun _ => exportedNames_reordered hedit, fun _ => usedNames_reordered hedit,
    fun referenceOnly => ⟨?_, ?_⟩⟩
  · rw [exists_unusedImports_iff, exists_unusedImports_iff]
    exact and_congr (exists_congr fun _ => usedNames_reordered hedit) (supplies_reordered hedit)
  · intro unused unused' hunused hunused'
    obtain ⟨used, hused, -, rfl⟩ := unusedImports_eq_ok_iff_reported.1 hunused
    obtain ⟨used', hused', -, rfl⟩ := unusedImports_eq_ok_iff.1 hunused'
    cases Except.ok.inj (hused.symm.trans ((usedNames_reordered hedit).1 hused'))
    have hreported : ((imports (root.editRules edit)).filter
        (isUnusedAmong referenceOnly used)).Perm
        ((reportedImports referenceOnly used root).map fun entry =>
          entry.2.editRules (edit.seenFrom entry.1)) := by
      have hkept := (imports_reordered hedit root).filter
        (isUnusedAmong referenceOnly used)
      rw [List.filter_map] at hkept
      simpa only [reportedImports, Function.comp_def, isUnusedAmong_editRules] using hkept
    refine ⟨_, List.filter_sublist, fun _ => mem_reportedImports_iff, rfl, hreported,
      fun hoff => ?_⟩
    have hsame : ((reportedImports referenceOnly used root).map fun entry =>
        entry.2.editRules (edit.seenFrom entry.1)) =
          (reportedImports referenceOnly used root).map Prod.snd :=
      List.map_congr_left fun entry hentry => editRules_eq_self_of_none (hoff entry hentry)
    rw [← hsame]
    exact hreported

/-- The edit that turns the rules of the blocks at these places around. -/
def turnedAt (places : List (List Nat)) : RuleEdit :=
  fun place _ rules => if place ∈ places then rules.reverse else rules

/-- A file with two unused imports, one of them in a block. -/
def nestedImports : Node :=
  Build.root
    [Build.ruleset [".box"]
      [Build.mixinCall [".m"],
       Build.importRule "a"
        (some (Build.root [Build.variableDeclaration "@x" (Build.anonymous "red")])) true],
     Build.importRule "b"
      (some (Build.root [Build.variableDeclaration "@y" (Build.anonymous "red")])) true]

/-- Turned around at both depths, the file has the same two unused imports in the other order. -/
theorem unusedImports_reordered_nestedImports :
    (turnedAt [[], [0]]).Reorders ∧
      ∃ unused unused', unusedImports false nestedImports = .ok unused ∧
        unusedImports false (nestedImports.editRules (turnedAt [[], [0]])) = .ok unused' ∧
        unused.map (·.pathName) = ["a", "b"] ∧ unused'.map (·.pathName) = ["b", "a"] ∧
        unused'.Perm unused := by
  have hreorders : (turnedAt [[], [0]]).Reorders := by
    intro place first rules
    rw [turnedAt]
    split
    · exact List.reverse_perm rules
    · exact .refl rules
  obtain ⟨-, -, hunused⟩ := unusedImports_reordered nestedImports (turnedAt [[], [0]]) hreorders
  obtain ⟨reported, hsublist, -, -, -, hperm⟩ := (hunused false).2 _ _ rfl rfl
  refine ⟨hreorders, _, _, rfl, rfl, by decide, by decide, hperm fun entry hentry below => ?_⟩
  -- Neither import stands above one of the blocks that are turned around.
  obtain ⟨first, second, hplaced⟩ : ∃ first second,
      placedImports nestedImports = [([0, 2], first), ([1], second)] := ⟨_, _, rfl⟩
  have hmem := hsublist.subset hentry
  rw [hplaced] at hmem
  funext first' rules
  rcases List.mem_pair.1 hmem with rfl | rfl <;> simp [turnedAt, RuleEdit.none]

end ImportSweep

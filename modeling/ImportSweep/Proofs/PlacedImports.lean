import ImportSweep.Proofs.RuleEdits

/-!
# Nodes and imports with their places

A walk that does not enter imports meets each node at its place. `Node.placed` lists the nodes with
their places, and `placedImports` the imports among them. What is entered below a node is what the
node holds in the text, imports and plain texts apart (`Node.entered_eq_held`).
-/

namespace ImportSweep.Tree

/-- The nodes that a walk visits, imports not entered, with their places. -/
def Node.placed (n : Node) : List (List Nat × Node) :=
  (n.places false).zip (n.preorder false)

theorem Node.length_places (n : Node) : (n.places false).length = (n.preorder false).length := by
  have hmap : (n.places false).map (n.at? false) = (n.preorder false).map some := n.map_at?_places
  have hlength := congrArg List.length hmap
  rwa [List.length_map, List.length_map] at hlength

theorem Node.map_snd_placed (n : Node) : n.placed.map Prod.snd = n.preorder false :=
  List.map_snd_zip (Nat.le_of_eq n.length_places.symm)

/-- The node at a place is the one that is listed with the place. -/
theorem Node.at?_of_mem_placed {n : Node} {entry : List Nat × Node} (h : entry ∈ n.placed) :
    n.at? false entry.1 = some entry.2 := by
  obtain ⟨i, hi⟩ := List.getElem?_of_mem h
  obtain ⟨hplace, hnode⟩ := List.getElem?_zip_eq_some.1 hi
  have hmap : (n.places false).map (n.at? false) = (n.preorder false).map some := n.map_at?_places
  have hentry := congrArg (fun nodes : List (Option Node) => nodes[i]?) hmap
  simp only [List.getElem?_map, hplace, hnode, Option.map_some] at hentry
  exact Option.some.inj hentry

/-- Below numbered nodes the number comes before each place. -/
theorem Outline.zip_placesFrom (start : Nat) (ns : List Node) :
    (Outline.placesFrom false start (ns.map Node.outline)).zip
        (ns.flatMap (Node.preorder false)) =
      (ns.zipIdx start).flatMap fun numbered =>
        numbered.1.placed.map fun entry => (numbered.2 :: entry.1, entry.2) := by
  induction ns generalizing start with
  | nil => rfl
  | cons n ns ih =>
    have hlength : ((n.places false).map (start :: ·)).length = (n.preorder false).length := by
      rw [List.length_map, n.length_places]
    have hplaces : Outline.placesFrom false start ((n :: ns).map Node.outline) =
        (n.places false).map (start :: ·) ++
          Outline.placesFrom false (start + 1) (ns.map Node.outline) := rfl
    rw [hplaces, List.flatMap_cons, List.zip_append hlength, ih, List.zip_map_left,
      List.zipIdx_cons, List.flatMap_cons]
    rfl

/-- A node comes first, and then the nodes below each of the children that are entered. -/
theorem Node.placed_eq (n : Node) :
    n.placed = ([], n) :: (n.entered false).zipIdx.flatMap fun numbered =>
      numbered.1.placed.map fun entry => (numbered.2 :: entry.1, entry.2) := by
  rw [Node.placed, n.places_eq, n.preorder_eq, List.zip_cons_cons, Outline.zip_placesFrom]

/-- The kinds that are plain texts list no children. -/
theorem Node.children_eq_nil_of_isPlain {n : Node} (h : n.kind.isPlain = true) :
    n.children = [] := by
  obtain ⟨index, body⟩ := n
  cases body
  case combinator | comment | javaScript | keyword | quoted | unicodeDescriptor => rfl
  all_goals cases h

/-- What a walk enters below a node is what the node holds, imports and plain texts apart. -/
theorem Node.entered_eq_held (n : Node) :
    n.entered false = if n.isImport = true ∨ n.kind.isPlain = true then [] else n.held := by
  rw [Node.entered]
  by_cases himport : n.isImport = true
  · simp [himport]
  · by_cases hplain : n.kind.isPlain = true
    · simp [himport, hplain, Node.children_eq_nil_of_isPlain hplain]
    · have hchildren := Node.children_eq_flatMap_members (Bool.eq_false_iff.2 himport)
        (Bool.eq_false_iff.2 hplain)
      simp [himport, hplain, hchildren, Node.held]

/-- A child that is entered is held under the same number. -/
theorem Node.held_of_entered {n c : Node} {i : Nat} (h : (n.entered false)[i]? = some c) :
    n.held[i]? = some c := by
  rw [Node.entered_eq_held] at h
  split at h
  · cases h
  · exact h

end ImportSweep.Tree

namespace ImportSweep

open ImportSweep.Tree ImportSweep.Names

/-- The imports of a file with their places, in the order of the text. -/
def placedImports (root : Node) : List (List Nat × ImportStatement) :=
  root.placed.filterMap fun entry => (ImportStatement.ofNode? entry.2).map (entry.1, ·)

theorem map_snd_placedImports (root : Node) : (placedImports root).map Prod.snd = imports root := by
  rw [placedImports, List.map_filterMap, imports, ← root.map_snd_placed, List.filterMap_map]
  congr 1
  funext entry
  simp [Option.map_map, Function.comp_def]

/-- The imports that are unused in a file with these used names, with their places. -/
def reportedImports (referenceOnly : Bool) (used : NameSet) (root : Node) :
    List (List Nat × ImportStatement) :=
  (placedImports root).filter fun entry => isUnusedAmong referenceOnly used entry.2

/-- The unused imports can be found exactly when the used names and the names of each import can,
and then they are the ones reported. -/
theorem unusedImports_eq_ok_iff_reported {referenceOnly : Bool} {root : Node}
    {unused : List ImportStatement} :
    unusedImports referenceOnly root = .ok unused ↔
      ∃ used, usedNames root = .ok used ∧
        (∀ entry ∈ placedImports root, ∃ supply, importSupply entry.2 = .ok supply) ∧
        unused = (reportedImports referenceOnly used root).map Prod.snd := by
  rw [unusedImports_eq_ok_iff]
  refine exists_congr fun used => and_congr_right fun _ => ?_
  have hfilter : (imports root).filter (isUnusedAmong referenceOnly used) =
      (reportedImports referenceOnly used root).map Prod.snd := by
    rw [← map_snd_placedImports, List.filter_map]
    rfl
  rw [hfilter, ← map_snd_placedImports, List.forall_mem_map]

theorem exists_unusedImports_iff {referenceOnly : Bool} {root : Node} :
    (∃ unused, unusedImports referenceOnly root = .ok unused) ↔
      (∃ used, usedNames root = .ok used) ∧
        ∀ entry ∈ placedImports root, ∃ supply, importSupply entry.2 = .ok supply := by
  simp only [unusedImports_eq_ok_iff_reported]
  constructor
  · rintro ⟨_, used, hused, hsupplies, -⟩
    exact ⟨⟨used, hused⟩, hsupplies⟩
  · rintro ⟨⟨used, hused⟩, hsupplies⟩
    exact ⟨_, used, hused, hsupplies, rfl⟩

/-- An import is reported exactly when it is among the unused ones. -/
theorem mem_reportedImports_iff {referenceOnly : Bool} {used : NameSet} {root : Node}
    {entry : List Nat × ImportStatement} (h : entry ∈ placedImports root) :
    entry ∈ reportedImports referenceOnly used root ↔
      entry.2 ∈ (reportedImports referenceOnly used root).map Prod.snd := by
  constructor
  · intro hentry
    exact List.mem_map_of_mem hentry
  · -- Imports that look alike have the same verdict.
    intro hstatement
    obtain ⟨other, hother, hsame⟩ := List.mem_map.1 hstatement
    have hverdict := (List.mem_filter.1 hother).2
    rw [hsame] at hverdict
    exact List.mem_filter.2 ⟨h, hverdict⟩

end ImportSweep

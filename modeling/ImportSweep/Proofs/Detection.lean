import ImportSweep.Imports
import ImportSweep.Proofs.Exported
import ImportSweep.Tree.Build

/-!
# Unused imports

An import is unused when it is resolved, is a candidate, and exports no name that the file refers
to. `unusedImports` reports just these, in the order of the text: the places of the unused imports
increase, and each is reported once (`unusedImports_exact`).
-/

namespace ImportSweep

open ImportSweep.Tree ImportSweep.Names

/-- The import is resolved, it is for reference if only these are candidates, and no node of the
file refers to a name that its tree exports. -/
def IsUnused (referenceOnly : Bool) (root : Node) (statement : ImportStatement) : Prop :=
  ∃ tree, statement.root = some tree ∧
    (referenceOnly = true → statement.options.reference = true) ∧
    ¬ ∃ name, Exports tree name ∧
      ∃ place n, root.at? false place = some n ∧ Refers n name

/-- The verdict on an import of a file that uses certain names. -/
def isUnusedAmong (referenceOnly : Bool) (used : NameSet) (statement : ImportStatement) : Bool :=
  match importSupply statement with
  | .ok supply => supply.isUnused referenceOnly used
  | .error _ => false

/-- The names that an import brings in are listed with the import. -/
theorem statement_of_importSupply {statement : ImportStatement} {supply : ImportSupply}
    (h : importSupply statement = .ok supply) : supply.statement = statement := by
  unfold importSupply at h
  split at h
  · obtain ⟨names, -, h⟩ := bind_eq_ok_iff.1 h
    cases h
    rfl
  · cases h
    rfl

/-- Of imports with their names, those that are unused are the imports with that verdict. -/
theorem map_statement_filter_isUnused {referenceOnly : Bool} {used : NameSet}
    {statements : List ImportStatement} {supplies : List ImportSupply}
    (h : List.Forall₂ (fun i supply => importSupply i = .ok supply) statements supplies) :
    (supplies.filter (·.isUnused referenceOnly used)).map (·.statement) =
      statements.filter (isUnusedAmong referenceOnly used) := by
  induction h with
  | nil => rfl
  | @cons statement supply statements supplies hsupply _ ih =>
    have hstatement := statement_of_importSupply hsupply
    have hverdict : isUnusedAmong referenceOnly used statement =
        supply.isUnused referenceOnly used := by
      rw [isUnusedAmong, hsupply]
    cases hunused : supply.isUnused referenceOnly used with
    | true => simp [hverdict, hunused, hstatement, ih]
    | false => simp [hverdict, hunused, ih]

/-- The unused imports can be found exactly when the used names and the names of each import can,
and then they are the imports with that verdict. -/
theorem unusedImports_eq_ok_iff {referenceOnly : Bool} {root : Node}
    {unused : List ImportStatement} :
    unusedImports referenceOnly root = .ok unused ↔
      ∃ used, usedNames root = .ok used ∧
        (∀ statement ∈ imports root, ∃ supply, importSupply statement = .ok supply) ∧
        unused = (imports root).filter (isUnusedAmong referenceOnly used) := by
  rw [unusedImports, bind_eq_ok_iff]
  refine exists_congr fun used => and_congr_right fun _ => ?_
  rw [bind_eq_ok_iff, ← exists_mapM_eq_ok_iff, ← exists_and_right]
  refine exists_congr fun supplies => and_congr_right fun hsupplies => ?_
  rw [pure_eq_ok_iff, map_statement_filter_isUnused (mapM_eq_ok_iff.1 hsupplies), eq_comm]

/-- The verdict on an import with its names is that on the import. -/
theorem isUnused_eq_true_iff {referenceOnly : Bool} {root : Node} {used : NameSet}
    (hused : usedNames root = .ok used) {statement : ImportStatement} {supply : ImportSupply}
    (h : importSupply statement = .ok supply) :
    supply.isUnused referenceOnly used = true ↔ IsUnused referenceOnly root statement := by
  unfold importSupply at h
  split at h
  · rename_i tree htree
    obtain ⟨exported, hexported, h⟩ := bind_eq_ok_iff.1 h
    cases h
    have hdisjoint : exported.disjoint used = true ↔ ¬ ∃ name, Exports tree name ∧
        ∃ place n, root.at? false place = some n ∧ Refers n name := by
      simp only [NameSet.disjoint_iff, mem_exportedNames_iff hexported, mem_usedNames_iff hused,
        not_exists, not_and]
    simp only [ImportSupply.isUnused, Bool.true_and, Bool.and_eq_true, Bool.or_eq_true,
      Bool.not_eq_true', hdisjoint]
    -- What is left is the condition on candidates, as a test and as an implication.
    constructor
    · rintro ⟨hcandidate, hunused⟩
      refine ⟨tree, htree, fun hreference => ?_, hunused⟩
      exact hcandidate.resolve_left (by simp [hreference])
    · rintro ⟨tree', htree', hcandidate, hunused⟩
      cases htree.symm.trans htree'
      refine ⟨?_, hunused⟩
      cases referenceOnly with
      | false => exact .inl rfl
      | true => exact .inr (hcandidate rfl)
  · -- An import without a tree is never reported.
    rename_i hnone
    cases h
    refine iff_of_false Bool.false_ne_true ?_
    rintro ⟨tree, htree, -⟩
    cases hnone.symm.trans htree

open Classical in
/-- The unused imports, when they can be found, are the imports of the file less those that are
used. -/
theorem unusedImports_eq_filter {referenceOnly : Bool} {root : Node}
    {unused : List ImportStatement} (h : unusedImports referenceOnly root = .ok unused) :
    unused = (imports root).filter fun statement => IsUnused referenceOnly root statement := by
  obtain ⟨used, hused, hsupplies, rfl⟩ := unusedImports_eq_ok_iff.1 h
  refine List.filter_congr fun statement hmem => ?_
  obtain ⟨supply, hsupply⟩ := hsupplies statement hmem
  rw [Bool.eq_iff_iff, decide_eq_true_iff, isUnusedAmong, hsupply]
  exact isUnused_eq_true_iff hused hsupply

/-- The unused imports, when they can be found, are the imports of the file that are unused. -/
theorem mem_unusedImports_iff {referenceOnly : Bool} {root : Node} {unused : List ImportStatement}
    (h : unusedImports referenceOnly root = .ok unused) {statement : ImportStatement} :
    statement ∈ unused ↔ statement ∈ imports root ∧ IsUnused referenceOnly root statement := by
  classical
  rw [unusedImports_eq_filter h, List.mem_filter, decide_eq_true_iff]

/-- What the imports of a list of nodes keep of a property stands at the places that have it. -/
theorem forall₂_filter_places {at' : List Nat → Option Node} {places : List (List Nat)}
    {nodes : List Node} (h : places.map at' = nodes.map some) (keep : ImportStatement → Bool) :
    List.Forall₂ (fun place statement => (at' place).bind ImportStatement.ofNode? = some statement)
      (places.filter fun place => ((at' place).bind ImportStatement.ofNode?).any keep)
      ((nodes.filterMap ImportStatement.ofNode?).filter keep) := by
  induction places generalizing nodes with
  | nil =>
    cases nodes with
    | nil => exact .nil
    | cons n nodes => cases h
  | cons place places ih =>
    cases nodes with
    | nil => cases h
    | cons n nodes =>
      -- A place stays exactly when its node is an import that is kept.
      obtain ⟨hat, hrest⟩ := List.cons.inj h
      have ih' := ih hrest
      cases hn : ImportStatement.ofNode? n with
      | none => simpa [List.filter_cons, hat, hn] using ih'
      | some statement =>
        cases hkeep : keep statement with
        | true => simpa [List.filter_cons, hat, hn, hkeep] using ih'
        | false => simpa [List.filter_cons, hat, hn, hkeep] using ih'

/-- The unused imports are exact: there is one for each place at which an unused import stands,
in the order of the text. -/
theorem unusedImports_exact (referenceOnly : Bool) (root : Node) (unused : List ImportStatement)
    (h : unusedImports referenceOnly root = .ok unused) :
    ∃ places : List (List Nat), places.Pairwise (· < ·) ∧
      (∀ place, place ∈ places ↔ ∃ n statement, root.at? false place = some n ∧
        ImportStatement.ofNode? n = some statement ∧ IsUnused referenceOnly root statement) ∧
      List.Forall₂ (fun place statement => ∃ n, root.at? false place = some n ∧
        ImportStatement.ofNode? n = some statement) places unused := by
  classical
  rw [unusedImports_eq_filter h]
  -- The places asked for are those of the tree at which an unused import stands.
  refine ⟨_, List.Pairwise.filter _ root.places_increasing, fun place => ?_,
    (forall₂_filter_places root.map_at?_places _).imp fun place statement hstatement => ?_⟩
  · rw [List.mem_filter, Node.mem_places_iff]
    constructor
    · rintro ⟨⟨n, hn⟩, hany⟩
      rw [hn, Option.bind_some, Option.any_eq_true] at hany
      obtain ⟨statement, hstatement, hunused⟩ := hany
      exact ⟨n, statement, hn, hstatement, of_decide_eq_true hunused⟩
    · rintro ⟨n, statement, hn, hstatement, hunused⟩
      refine ⟨⟨n, hn⟩, ?_⟩
      rw [hn, Option.bind_some, Option.any_eq_true]
      exact ⟨statement, hstatement, decide_eq_true hunused⟩
  · exact Option.bind_eq_some_iff.1 hstatement

/-- A file that imports two others and uses only what the first one exports. -/
def twoImports : Node :=
  Build.root
    [Build.importRule "a"
      (some (Build.root [Build.variableDeclaration "@x" (Build.anonymous "red")])) true,
     Build.ruleset [".box"]
      [Build.importRule "b"
        (some (Build.root [Build.variableDeclaration "@y" (Build.anonymous "red")])) true,
       Build.property "color" (Build.value [Build.variableUse "@x"])]]

/-- In the file with two imports one import is reported, and an unused import stands at its
place. -/
theorem unusedImports_exact_twoImports :
    ∃ place n statement, unusedImports false twoImports = .ok [statement] ∧
      twoImports.at? false place = some n ∧ ImportStatement.ofNode? n = some statement ∧
        IsUnused false twoImports statement := by
  obtain ⟨places, -, hplaces, hall⟩ := unusedImports_exact false twoImports _ rfl
  obtain ⟨place, _, ⟨n, hn, hstatement⟩, -, rfl⟩ := List.forall₂_cons_right_iff.1 hall
  obtain ⟨n', statement', hn', hstatement', hunused⟩ := (hplaces place).1 List.mem_cons_self
  cases hn.symm.trans hn'
  cases hstatement.symm.trans hstatement'
  exact ⟨place, n, _, rfl, hn, hstatement, hunused⟩

end ImportSweep

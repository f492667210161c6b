import Mathlib.Data.List.Infix
import ImportSweep.Proofs.Detection
import ImportSweep.Proofs.Shapes
import ImportSweep.Proofs.WalkCalls

/-!
# Outermost imports

A walk that does not go into imports leaves out what is below an import, and nothing else. Places say
what is below what: the nodes above a place are those at the proper prefixes of the place. So such a
walk comes to the places of the whole tree that have no import above them
(`Node.places_false_eq_filter`), and the imports among them are the imports of the file itself. Imports
that imported files make have an import above them.

## Main definitions

* `Node.BelowImport`: an import is above the place;
* `Node.Shows`: the places that a walk shows to a visitor that never turns it back;
* `Supplies`: what is listed for an import together with its names.
-/

namespace ImportSweep.Tree

/-! ## Below an import -/

/-- An import stands at the place. -/
def Node.ImportAt (root : Node) (place : List Nat) : Prop :=
  ∃ n, root.at? true place = some n ∧ n.isImport = true

/-- An import stands above the place. -/
def Node.BelowImport (root : Node) (place : List Nat) : Prop :=
  ∃ above, above <+: place ∧ above ≠ place ∧ root.ImportAt above

instance (root : Node) (place : List Nat) : Decidable (root.ImportAt place) :=
  decidable_of_iff ((root.at? true place).any Node.isImport = true) (Option.any_eq_true _ _)

instance (root : Node) (place : List Nat) : Decidable (root.BelowImport place) :=
  decidable_of_iff (∃ above ∈ place.inits, above ≠ place ∧ root.ImportAt above)
    (exists_congr fun _ => and_congr_left fun _ => List.mem_inits _ _)

/-- The top is below nothing. -/
theorem Node.not_belowImport_nil (root : Node) : ¬ root.BelowImport [] := by
  rintro ⟨above, hprefix, hne, -⟩
  exact hne (List.prefix_nil.1 hprefix)

theorem Node.importAt_nil_iff {root : Node} : root.ImportAt [] ↔ root.isImport = true := by
  simp [Node.ImportAt, Node.at?]

theorem Node.importAt_cons_iff {root : Node} {i : Nat} {place : List Nat} :
    root.ImportAt (i :: place) ↔ ∃ c, root.children[i]? = some c ∧ c.ImportAt place := by
  unfold Node.ImportAt
  rw [Node.at?_cons, Node.entered_of_opened (by simp)]
  constructor
  · rintro ⟨n, hn, himport⟩
    obtain ⟨c, hc, hn⟩ := Option.bind_eq_some_iff.1 hn
    exact ⟨c, hc, n, hn, himport⟩
  · rintro ⟨c, hc, n, hn, himport⟩
    exact ⟨n, Option.bind_eq_some_iff.2 ⟨c, hc, hn⟩, himport⟩

/-- Below an import is what is below the top, if that is one, and what is below an import inside the
child that the place leads to. -/
theorem Node.belowImport_cons_iff {root : Node} {i : Nat} {place : List Nat} :
    root.BelowImport (i :: place) ↔
      root.isImport = true ∨ ∃ c, root.children[i]? = some c ∧ c.BelowImport place := by
  constructor
  · rintro ⟨above, hprefix, hne, himport⟩
    -- What is above the place is the top or leads to the same child.
    rcases List.prefix_cons_iff.1 hprefix with rfl | ⟨rest, rfl, hrest⟩
    · exact .inl (Node.importAt_nil_iff.1 himport)
    · obtain ⟨c, hc, himport⟩ := Node.importAt_cons_iff.1 himport
      exact .inr ⟨c, hc, rest, hrest, fun h => hne (congrArg (i :: ·) h), himport⟩
  · rintro (himport | ⟨c, hc, above, hprefix, hne, himport⟩)
    · exact ⟨[], List.nil_prefix, (List.cons_ne_nil i place).symm, Node.importAt_nil_iff.2 himport⟩
    · refine ⟨i :: above, List.cons_prefix_cons.2 ⟨rfl, hprefix⟩, ?_, ?_⟩
      · exact fun h => hne (List.cons.inj h).2
      · exact Node.importAt_cons_iff.2 ⟨c, hc, himport⟩

/-! ## The two ways to walk -/

/-- Without going into imports one comes to the places that are not below an import, and finds the
same nodes there. -/
theorem Node.at?_false_eq_some_iff {root n : Node} {place : List Nat} :
    root.at? false place = some n ↔ root.at? true place = some n ∧ ¬ root.BelowImport place := by
  -- On the place, from the top: each number leads one level further down.
  induction place generalizing root with
  | nil => simp [Node.at?, root.not_belowImport_nil]
  | cons i place ih =>
    rw [Node.at?_cons, Node.at?_cons, Node.belowImport_cons_iff, Option.bind_eq_some_iff,
      Option.bind_eq_some_iff]
    by_cases himport : root.isImport = true
    · -- Below an import there is no place in the one walk, and an import above in the other.
      simp [Node.entered_of_closed ⟨himport, rfl⟩, himport]
    · have hentered : ∀ intoImports, root.entered intoImports = root.children := by
        intro intoImports
        exact Node.entered_of_opened fun hclosed => himport hclosed.1
      simp only [hentered, ih, himport, Bool.false_eq_true, false_or, not_exists, not_and]
      constructor
      · rintro ⟨c, hc, hn, hbelow⟩
        refine ⟨⟨c, hc, hn⟩, fun c' hc' => ?_⟩
        rwa [Option.some.inj (hc'.symm.trans hc)]
      · rintro ⟨⟨c, hc, hn⟩, hbelow⟩
        exact ⟨c, hc, hn, hbelow c hc⟩

/-- The places of a tree whose imports are not entered are, in the same order, those of the whole tree
that are not below an import. -/
theorem Node.places_false_eq_filter (root : Node) :
    root.places false = (root.places true).filter fun place => ¬ root.BelowImport place := by
  -- Both lists increase, so it is enough that they have the same members.
  refine List.Pairwise.eq_of_mem_iff root.places_increasing
    (root.places_increasing.filter _) fun place => ?_
  rw [List.mem_filter, Node.mem_places_iff, Node.mem_places_iff, decide_eq_true_iff]
  simp only [Node.at?_false_eq_some_iff, exists_and_right]

/-- The nodes that a walk finds without going into imports stand at these places. -/
theorem Node.map_at?_outermost (root : Node) :
    ((root.places true).filter fun place => ¬ root.BelowImport place).map (root.at? true) =
      (root.preorder false).map some := by
  rw [← root.map_at?_places, ← root.places_false_eq_filter]
  refine List.map_congr_left fun place hplace => ?_
  obtain ⟨n, hn⟩ := Node.mem_places_iff.1 hplace
  rw [hn, (Node.at?_false_eq_some_iff.1 hn).1]

section Visitors

variable {σ : Type} {intoImports : Bool} {visit : σ → Node → σ × Step}

mutual

/-- A visitor that never turns a walk back is shown all nodes in pre-order. -/
theorem Visits.map_node (henter : ∀ state n, (visit state n).2 = .enter) {n : Node}
    {state state' : σ} {calls : List (Call σ)} {stopped : Bool} :
    Visits intoImports visit n state calls state' stopped →
      stopped = false ∧ calls.map Call.node = n.preorder intoImports
  | .stop answer => by
    -- Neither this answer nor the next is one that the visitor gives.
    have h := henter state n
    rw [answer] at h
    cases h
  | .skip answer => by
    have h := henter state n
    rw [answer] at h
    cases h
  | .outside answer closed => by
    refine ⟨rfl, ?_⟩
    rw [n.preorder_eq, Node.entered_of_closed closed]
    rfl
  | .enter answer opened children => by
    obtain ⟨hstopped, hnodes⟩ := children.map_node henter
    refine ⟨hstopped, ?_⟩
    rw [List.map_cons, hnodes, n.preorder_eq, Node.entered_of_opened opened]

/-- The same for one node after the other. -/
theorem VisitsAll.map_node (henter : ∀ state n, (visit state n).2 = .enter) {ns : List Node}
    {state state' : σ} {calls : List (Call σ)} {stopped : Bool} :
    VisitsAll intoImports visit ns state calls state' stopped →
      stopped = false ∧ calls.map Call.node = ns.flatMap (Node.preorder intoImports)
  | .nil => ⟨rfl, rfl⟩
  | .stopped first => by
    have h := (first.map_node henter).1
    cases h
  | .next first others => by
    obtain ⟨-, hfirst⟩ := first.map_node henter
    obtain ⟨hstopped, hothers⟩ := others.map_node henter
    exact ⟨hstopped, by rw [List.map_append, hfirst, hothers, List.flatMap_cons]⟩

end

end Visitors

/-- A visitor that always goes on is called for the nodes at these places, in this order. -/
def Node.Shows (intoImports : Bool) (root : Node) (places : List (List Nat)) : Prop :=
  ∀ (σ : Type) (visit : σ → Node → σ × Step) (state : σ), (∀ state n, (visit state n).2 = .enter) →
    ∃ state' calls, root.walk intoImports (recording visit) (state, []) =
      ((state', calls), false) ∧ places.map (root.at? true) = calls.map fun call => some call.node

theorem Node.shows_of_map_at? {intoImports : Bool} {root : Node} {places : List (List Nat)}
    (h : places.map (root.at? true) = (root.preorder intoImports).map some) :
    root.Shows intoImports places := by
  intro σ visit state henter
  obtain ⟨calls, state', stopped, hvisits⟩ := exists_visits intoImports visit root state
  obtain ⟨rfl, hnodes⟩ := hvisits.map_node henter
  refine ⟨state', calls, hvisits.walk_root, ?_⟩
  rw [h, ← hnodes, List.map_map]
  rfl

end ImportSweep.Tree

namespace ImportSweep

open ImportSweep.Tree ImportSweep.Names

/-! ## Imports and what they bring in -/

theorem ImportStatement.exists_ofNode?_iff {n : Node} :
    (∃ statement, ImportStatement.ofNode? n = some statement) ↔ n.isImport = true := by
  unfold ImportStatement.ofNode? Node.isImport
  cases n.body <;> simp

/-- An import stands at a place when the node there can be read as one. -/
theorem importAt_iff_bind {root : Node} {place : List Nat} :
    root.ImportAt place ↔
      ((root.at? true place).bind ImportStatement.ofNode?).any (fun _ => true) = true := by
  simp only [Node.ImportAt, Option.any_eq_true, Option.bind_eq_some_iff, and_true,
    ← ImportStatement.exists_ofNode?_iff]
  constructor
  · rintro ⟨n, hn, statement, hstatement⟩
    exact ⟨statement, n, hn, hstatement⟩
  · rintro ⟨statement, n, hn, hstatement⟩
    exact ⟨n, hn, statement, hstatement⟩

/-- The import is listed with what it brings in: the names of its tree, or nothing where it has
none. -/
structure Supplies (statement : ImportStatement) (supply : ImportSupply) : Prop where
  /-- It is this import. -/
  statement_eq : supply.statement = statement
  /-- It is marked as resolved when it has a tree. -/
  resolved_iff : supply.resolved = true ↔ ∃ tree, statement.root = some tree
  /-- The names are those that the tree exports. -/
  names_of_tree : ∀ tree, statement.root = some tree → exportedNames tree = .ok supply.names
  /-- Without a tree there are no names. -/
  no_names : statement.root = none → ∀ name, name ∉ supply.names

theorem importSupply_eq_ok_iff {statement : ImportStatement} {supply : ImportSupply} :
    importSupply statement = .ok supply ↔ Supplies statement supply := by
  obtain ⟨statement', names, resolved⟩ := supply
  cases htree : statement.root with
  | none =>
    simp only [importSupply, htree]
    constructor
    · intro h
      cases h
      exact ⟨rfl, by simp [htree], by simp [htree], fun _ name => List.not_mem_nil⟩
    · rintro ⟨hstatement, hresolved, -, hnames⟩
      -- A set of names is determined by its members, and here there are none.
      have hempty : names = .empty :=
        NameSet.eq_of_mem_iff fun name => iff_of_false (hnames htree name) List.not_mem_nil
      have hfalse : resolved = false := by simpa [htree] using hresolved
      rw [← hstatement, hempty, hfalse]
  | some tree =>
    simp only [importSupply, htree, bind_eq_ok_iff]
    constructor
    · rintro ⟨names', hnames, h⟩
      cases h
      exact ⟨rfl, by simp [htree], by simpa [htree] using hnames, by simp [htree]⟩
    · rintro ⟨rfl, hresolved, hnames, -⟩
      have htrue : resolved = true := hresolved.2 ⟨tree, htree⟩
      exact ⟨names, hnames tree htree, by rw [htrue]; rfl⟩

/-- The imports of a file stand at the places of imports that are not below another import. -/
theorem forall₂_imports_places (root : Node) :
    List.Forall₂
      (fun place statement => ∃ n, root.at? true place = some n ∧
        ImportStatement.ofNode? n = some statement)
      ((root.places true).filter fun place => ¬ root.BelowImport place ∧ root.ImportAt place)
      (imports root) := by
  have hplaces : (root.places true).filter
        (fun place => ¬ root.BelowImport place ∧ root.ImportAt place) =
      ((root.places true).filter fun place => ¬ root.BelowImport place).filter fun place =>
        ((root.at? true place).bind ImportStatement.ofNode?).any fun _ => true := by
    rw [List.filter_filter]
    apply List.filter_congr
    intro place _
    simp only [importAt_iff_bind, Bool.decide_and, Bool.decide_eq_true, Bool.and_comm]
  -- All imports are kept, whatever they are.
  have hall := forall₂_filter_places root.map_at?_outermost fun _ => true
  rw [List.filter_true] at hall
  rw [hplaces]
  exact hall.imp fun place statement => Option.bind_eq_some_iff.1

/-- The imports of a file are the outermost ones. The places of a tree, in order, are what a walk
through everything shows. A walk that does not go into imports shows those places that are not below
an import. The imports of the file stand at the places of imports among these, and they are listed
with their names one by one. -/
theorem imports_outermost (root : Node) :
    ∃ places : List (List Nat), places.Pairwise (· < ·) ∧
      (∀ place, place ∈ places ↔ ∃ n, root.at? true place = some n) ∧
      root.Shows true places ∧
      root.Shows false (places.filter fun place => ¬ root.BelowImport place) ∧
      List.Forall₂
        (fun place statement => ∃ n, root.at? true place = some n ∧
          ImportStatement.ofNode? n = some statement)
        (places.filter fun place => ¬ root.BelowImport place ∧ root.ImportAt place)
        (imports root) ∧
      ∀ supplies, importSupplies root = .ok supplies ↔
        List.Forall₂ Supplies (imports root) supplies := by
  refine ⟨root.places true, root.places_increasing, fun place => Node.mem_places_iff,
    Node.shows_of_map_at? root.map_at?_places, Node.shows_of_map_at? root.map_at?_outermost,
    forall₂_imports_places root, fun supplies => ?_⟩
  rw [importSupplies, mapM_eq_ok_iff]
  simp only [importSupply_eq_ok_iff]

/-- A file with an import of a file that has an import itself, and with an import in a block that is
not resolved. -/
def layeredFile : Node :=
  Build.root
    [Build.importRule "a" (some (Build.root
      [Build.importRule "c" (some (Build.root [])) false,
       Build.variableDeclaration "@x" (Build.anonymous "red")])) false,
     Build.ruleset [".box"] [Build.importRule "b" none false]]

/-- Of the three imports in the layered file, the inner one is not an import of the file. -/
theorem imports_outermost_layeredFile :
    layeredFile.ImportAt [0, 1, 0] ∧ layeredFile.BelowImport [0, 1, 0] ∧
      ∃ first second supply supply', imports layeredFile = [first, second] ∧
        importSupplies layeredFile = .ok [supply, supply'] ∧
        Supplies first supply ∧ Supplies second supply' := by
  obtain ⟨places, -, -, -, -, -, hsupplies⟩ := imports_outermost layeredFile
  have hlisted := (hsupplies _).1 (rfl : importSupplies layeredFile = .ok [_, _])
  obtain ⟨first, _, hfirst, hrest, hfirsts⟩ := List.forall₂_cons_right_iff.1 hlisted
  obtain ⟨second, _, hsecond, hnil, rfl⟩ := List.forall₂_cons_right_iff.1 hrest
  cases hnil
  exact ⟨by decide +kernel, by decide +kernel, first, second, _, _, hfirsts, rfl, hfirst, hsecond⟩

end ImportSweep

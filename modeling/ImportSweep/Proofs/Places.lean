import ImportSweep.Proofs.Preorder

/-!
# Places in a tree

A place is the way from the top of a tree to a node, as the list of the numbers of the children
taken. Two nodes that look alike differ in their places, and the lexicographic order of places is
the order in which the nodes stand in the text.

`Node.at?` gives the node at a place. `Node.places` lists the places of a tree: they increase
(`Node.places_increasing`), they are all places at which there is a node (`Node.mem_places_iff`),
and the nodes there are those that a walk visits, one by one (`Node.map_at?_places`).
-/

namespace ImportSweep.Tree

variable {intoImports : Bool}

/-- The node at a place. Below an import there are places only with `intoImports`. -/
def Node.at? (intoImports : Bool) : Node → List Nat → Option Node
  | n, [] => some n
  | n, i :: place =>
    if n.isImport = true ∧ intoImports = false then none
    else n.children[i]?.bind fun c => Node.at? intoImports c place

/-- The first number of a place is that of a child that a walk enters. -/
theorem Node.at?_cons (n : Node) (i : Nat) (place : List Nat) :
    n.at? intoImports (i :: place) =
      (n.entered intoImports)[i]?.bind fun c => c.at? intoImports place := by
  rw [Node.at?, Node.entered]
  cases n.isImport <;> cases intoImports <;> simp

mutual

/-- The places of an outline, in the order of the text. -/
def Outline.places (intoImports : Bool) : Outline → List (List Nat)
  | .mk n branches =>
    [] :: if n.isImport && !intoImports then [] else Outline.placesFrom intoImports 0 branches

/-- The places of outlines that are children numbered from `i` on. -/
def Outline.placesFrom (intoImports : Bool) (i : Nat) : List Outline → List (List Nat)
  | [] => []
  | o :: os => (o.places intoImports).map (i :: ·) ++ Outline.placesFrom intoImports (i + 1) os

end

/-- The places of a tree, in the order of the text. -/
def Node.places (intoImports : Bool) (root : Node) : List (List Nat) :=
  root.outline.places intoImports

/-- The places of a tree are its top and the places below the children that are entered. -/
theorem Node.places_eq (n : Node) :
    n.places intoImports =
      [] :: Outline.placesFrom intoImports 0 ((n.entered intoImports).map Node.outline) := by
  rw [Node.places, Node.outline_eq, Outline.places, Node.entered]
  split
  · rfl
  · rfl

/-- A place below numbered children is a place of one of them after its number. -/
theorem Outline.mem_placesFrom_iff {i : Nat} {os : List Outline} {place : List Nat} :
    place ∈ Outline.placesFrom intoImports i os ↔
      ∃ j o rest, os[j]? = some o ∧ rest ∈ o.places intoImports ∧ place = (i + j) :: rest := by
  induction os generalizing i with
  | nil => simp [Outline.placesFrom]
  | cons o os ih =>
    rw [Outline.placesFrom, List.mem_append, List.mem_map, ih]
    constructor
    · -- The children after the first are numbered from `i + 1` on.
      rintro (⟨rest, hrest, rfl⟩ | ⟨j, o', rest, ho', hrest, rfl⟩)
      · exact ⟨0, o, rest, rfl, hrest, rfl⟩
      · exact ⟨j + 1, o', rest, ho', hrest, by rw [Nat.add_right_comm, Nat.add_assoc]⟩
    · rintro ⟨j, o', rest, ho', hrest, rfl⟩
      cases j with
      | zero =>
        cases Option.some.inj ho'
        exact .inl ⟨rest, hrest, rfl⟩
      | succ j => exact .inr ⟨j, o', rest, ho', hrest, by rw [Nat.add_right_comm, Nat.add_assoc]⟩

mutual

/-- The places of an outline increase. -/
theorem Outline.places_increasing : (o : Outline) → (o.places intoImports).Pairwise (· < ·)
  | .mk n branches => by
    rw [Outline.places]
    split
    · exact List.pairwise_singleton _ _
    · -- The top comes before all places below it.
      refine List.pairwise_cons.2 ⟨fun place hplace => ?_, Outline.placesFrom_increasing 0 branches⟩
      obtain ⟨j, o, rest, -, -, rfl⟩ := Outline.mem_placesFrom_iff.1 hplace
      exact List.nil_lt_cons _ _

/-- The places below numbered children increase. -/
theorem Outline.placesFrom_increasing : (i : Nat) → (os : List Outline) →
    (Outline.placesFrom intoImports i os).Pairwise (· < ·)
  | _, [] => List.Pairwise.nil
  | i, o :: os => by
    rw [Outline.placesFrom]
    refine List.pairwise_append.2 ⟨?_, Outline.placesFrom_increasing (i + 1) os, ?_⟩
    · -- The same number before all places of a child keeps their order.
      refine List.pairwise_map.2 ((Outline.places_increasing o).imp fun h => ?_)
      exact List.cons_lt_cons_iff.2 (.inr ⟨rfl, h⟩)
    · -- Later children have larger numbers.
      intro place hplace place' hplace'
      obtain ⟨rest, -, rfl⟩ := List.mem_map.1 hplace
      obtain ⟨j, _, rest', -, -, rfl⟩ := Outline.mem_placesFrom_iff.1 hplace'
      exact List.cons_lt_cons_iff.2 (.inl (by omega))

end

/-- The places of a tree increase, so none is listed twice. -/
theorem Node.places_increasing (root : Node) : (root.places intoImports).Pairwise (· < ·) :=
  Outline.places_increasing root.outline

/-- The places of a tree are those at which there is a node. -/
theorem Node.mem_places_iff {root : Node} {place : List Nat} :
    place ∈ root.places intoImports ↔ ∃ n, root.at? intoImports place = some n := by
  induction place generalizing root with
  | nil => simp [root.places_eq, Node.at?]
  | cons i place ih =>
    have hne : i :: place ≠ [] := List.cons_ne_nil _ _
    rw [root.places_eq, List.mem_cons, or_iff_right hne, Outline.mem_placesFrom_iff,
      Node.at?_cons]
    simp only [Option.bind_eq_some_iff, List.getElem?_map, Option.map_eq_some_iff]
    constructor
    · rintro ⟨j, o, rest, ⟨c, hc, rfl⟩, hrest, heq⟩
      obtain ⟨rfl, rfl⟩ := List.cons.inj heq
      obtain ⟨n, hn⟩ := ih.1 hrest
      exact ⟨n, c, by simpa using hc, hn⟩
    · rintro ⟨n, c, hc, hn⟩
      exact ⟨i, c.outline, place, ⟨c, hc, rfl⟩, ih.2 ⟨n, hn⟩, by simp⟩

/-- The nodes at the places below numbered children, when each child is as it should be. -/
theorem Outline.map_at?_placesFrom (before cs : List Node) {at' : List Nat → Option Node}
    (hat : ∀ i place, at' (i :: place) =
      (before ++ cs)[i]?.bind fun c => c.at? intoImports place)
    (hcs : ∀ c ∈ cs, (c.places intoImports).map (c.at? intoImports) =
      (c.preorder intoImports).map some) :
    (Outline.placesFrom intoImports before.length (cs.map Node.outline)).map at' =
      (cs.flatMap (Node.preorder intoImports)).map some := by
  -- The children that have been passed go to `before`, so that the numbers stay those of the node.
  induction cs generalizing before with
  | nil => rfl
  | cons c cs ih =>
    have hhead : ∀ place, at' (before.length :: place) = c.at? intoImports place := by
      intro place
      rw [hat, List.getElem?_append_right (Nat.le_refl _)]
      simp
    have htail := ih (before ++ [c]) (by simpa using hat)
      fun c' hc' => hcs c' (List.mem_cons_of_mem c hc')
    rw [List.length_append, List.length_singleton] at htail
    rw [List.map_cons, Outline.placesFrom, List.map_append, htail, List.flatMap_cons,
      List.map_append, ← hcs c List.mem_cons_self, List.map_map]
    congr 1
    exact List.map_congr_left fun place _ => hhead place

/-- The nodes at the places of a tree are the nodes that a walk visits, one by one. -/
theorem Node.map_at?_places (root : Node) :
    (root.places intoImports).map (root.at? intoImports) =
      (root.preorder intoImports).map some := by
  induction root using Node.children_induction with
  | node n ih =>
    have hbelow := Outline.map_at?_placesFrom [] (n.entered intoImports)
      (fun i place => n.at?_cons i place) fun c hc => ih c (Node.mem_children_of_mem_entered hc)
    rw [List.length_nil] at hbelow
    rw [n.places_eq, n.preorder_eq, List.map_cons, List.map_cons, hbelow, Node.at?]

/-- A walk visits the nodes that have a place. -/
theorem Node.mem_preorder_iff {root n : Node} :
    n ∈ root.preorder intoImports ↔ ∃ place, root.at? intoImports place = some n := by
  constructor
  · intro h
    have hmem : some n ∈ (root.places intoImports).map (root.at? intoImports) := by
      rw [root.map_at?_places]
      exact List.mem_map_of_mem h
    obtain ⟨place, -, hplace⟩ := List.mem_map.1 hmem
    exact ⟨place, hplace⟩
  · rintro ⟨place, hplace⟩
    have hmem : some n ∈ (root.preorder intoImports).map some := by
      rw [← root.map_at?_places]
      exact List.mem_map.2 ⟨place, Node.mem_places_iff.2 ⟨n, hplace⟩, hplace⟩
    simpa using hmem

end ImportSweep.Tree

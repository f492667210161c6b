import ImportSweep.Tree.Walk

/-!
# The order of a walk

The walk with a stack is the walk by recursion (`walkStack_eq_walkEach`), so the nodes that it
visits when nothing stops it are the node itself and then, child by child, what is visited below it
(`Node.preorder_eq`).
-/

namespace ImportSweep.Tree

variable {σ : Type} {intoImports : Bool}

/-! ## The walk with a stack and the walk by recursion -/

/-- A walk through two lists of trees is a walk through the first, and through the second unless
it was stopped. -/
theorem Outline.walkEach_append (visit : σ → Node → σ × Step) (os os' : List Outline) (state : σ) :
    Outline.walkEach intoImports visit (os ++ os') state =
      match Outline.walkEach intoImports visit os state with
      | (state, true) => (state, true)
      | (state, false) => Outline.walkEach intoImports visit os' state := by
  induction os generalizing state with
  | nil => rfl
  | cons o os ih =>
    rw [List.cons_append, Outline.walkEach, Outline.walkEach]
    -- A stop in the first tree of the first list ends both sides with the same state.
    obtain ⟨state', stopped⟩ := o.walk intoImports visit state
    cases stopped with
    | true => rfl
    | false => exact ih state'

/-- The branches of a node that a walk enters, as outlines. -/
theorem Outline.walk_enter (visit : σ → Node → σ × Step) (n : Node) {state state' : σ}
    (h : visit state n = (state', .enter)) :
    n.outline.walk intoImports visit state =
      Outline.walkEach intoImports visit ((n.entered intoImports).map Node.outline) state' := by
  rw [Node.outline_eq, Outline.walk, h]
  by_cases hcut : (n.isImport && !intoImports) = true
  · simp [Node.entered, hcut, Outline.walkEach]
  · simp [Node.entered, hcut]

/-- The number of nodes below two lists of trees. -/
theorem Outline.sizeOfAll_append (os os' : List Outline) :
    Outline.sizeOfAll (os ++ os') = Outline.sizeOfAll os + Outline.sizeOfAll os' := by
  induction os with
  | nil => simp [Outline.sizeOfAll]
  | cons o os ih =>
    rw [List.cons_append, Outline.sizeOfAll, Outline.sizeOfAll, ih]
    omega

/-- A tree of a list has no more nodes than all of them. -/
theorem Outline.size_le_sizeOfAll {o : Outline} {os : List Outline} (h : o ∈ os) :
    o.size ≤ Outline.sizeOfAll os := by
  induction os with
  | nil => cases h
  | cons first os ih =>
    rw [Outline.sizeOfAll]
    rcases List.mem_cons.1 h with rfl | h
    · omega
    · have := ih h
      omega

/-- What a walk enters below a node is smaller than the tree of the node. -/
theorem Node.sizeOfAll_entered_lt (intoImports : Bool) (n : Node) :
    Outline.sizeOfAll ((n.entered intoImports).map Node.outline) < n.outline.size := by
  rw [Node.outline_eq, Outline.size, Node.entered]
  split
  · simp [Outline.sizeOfAll]
  · omega

/-- With enough fuel, the walk with a stack visits the trees of the stack one after the other. -/
theorem walkStack_eq_walkEach (visit : σ → Node → σ × Step) (fuel : Nat) (stack : List Node)
    (state : σ) (hfuel : Outline.sizeOfAll (stack.map Node.outline) ≤ fuel) :
    walkStack intoImports visit fuel stack state =
      Outline.walkEach intoImports visit (stack.map Node.outline) state := by
  induction fuel generalizing stack state with
  | zero =>
    -- Every tree has a node, so only an empty stack needs no fuel.
    cases stack with
    | nil => rfl
    | cons n stack =>
      rw [List.map_cons, Outline.sizeOfAll, Node.outline_eq, Outline.size] at hfuel
      omega
  | succ fuel ih =>
    cases stack with
    | nil => rfl
    | cons n stack =>
      rw [List.map_cons, Outline.sizeOfAll] at hfuel
      have hsize := n.sizeOfAll_entered_lt intoImports
      rw [List.map_cons, Outline.walkEach, walkStack]
      rcases hvisit : visit state n with ⟨state', step⟩
      cases step with
      | stop => rw [Node.outline_eq, Outline.walk, hvisit]
      | skip =>
        rw [Node.outline_eq, Outline.walk, hvisit]
        exact ih stack state' (by omega)
      | enter =>
        -- The children go on top of the stack, so they come before what was there already.
        have hstack : Outline.sizeOfAll
            ((n.entered intoImports ++ stack).map Node.outline) ≤ fuel := by
          rw [List.map_append, Outline.sizeOfAll_append]
          omega
        have hwalk := ih (n.entered intoImports ++ stack) state' hstack
        rw [List.map_append, Outline.walkEach_append] at hwalk
        rw [Outline.walk_enter visit n hvisit]
        exact hwalk

/-- A walk from a node is the walk by recursion through its tree. -/
theorem Node.walk_eq_walk_outline (visit : σ → Node → σ × Step) (state : σ) (root : Node) :
    root.walk intoImports visit state = root.outline.walk intoImports visit state := by
  -- The fuel of the walk is the number of nodes of the tree.
  rw [Node.walk, walkStack_eq_walkEach visit _ _ _ (by simp [Outline.sizeOfAll])]
  rw [List.map_cons, List.map_nil, Outline.walkEach]
  obtain ⟨state', stopped⟩ := root.outline.walk intoImports visit state
  cases stopped <;> rfl

/-! ## The nodes visited -/

mutual

/-- The nodes of an outline in pre-order, those below an import only with `intoImports`. -/
def Outline.nodes (intoImports : Bool) : Outline → List Node
  | .mk n branches =>
    n :: if n.isImport && !intoImports then [] else Outline.nodesOf intoImports branches

/-- The nodes of a list of outlines, one outline after the other. -/
def Outline.nodesOf (intoImports : Bool) : List Outline → List Node
  | [] => []
  | o :: os => o.nodes intoImports ++ Outline.nodesOf intoImports os

end

mutual

/-- A walk that puts each node on a list collects the nodes of the outline, last first. -/
theorem Outline.walk_collect : (o : Outline) → (seen : List Node) →
    o.walk intoImports (fun seen n => (n :: seen, .enter)) seen =
      ((o.nodes intoImports).reverse ++ seen, false)
  | .mk n branches, seen => by
    rw [Outline.walk, Outline.nodes]
    by_cases hcut : (n.isImport && !intoImports) = true
    · simp [hcut]
    · simp [hcut, Outline.walkEach_collect branches]

/-- The same for a list of outlines. -/
theorem Outline.walkEach_collect : (os : List Outline) → (seen : List Node) →
    Outline.walkEach intoImports (fun seen n => (n :: seen, .enter)) os seen =
      ((Outline.nodesOf intoImports os).reverse ++ seen, false)
  | [], _ => rfl
  | o :: os, seen => by
    rw [Outline.walkEach, Outline.walk_collect o, Outline.nodesOf]
    simp [Outline.walkEach_collect os]

end

/-- The nodes that a walk visits are the nodes of the outline in pre-order. -/
theorem Node.preorder_eq_nodes (root : Node) :
    root.preorder intoImports = root.outline.nodes intoImports := by
  rw [Node.preorder, Node.walk_eq_walk_outline, Outline.walk_collect]
  simp

/-- The nodes of a list of trees are those of each in turn. -/
theorem Outline.nodesOf_map_outline (ns : List Node) :
    Outline.nodesOf intoImports (ns.map Node.outline) = ns.flatMap (Node.preorder intoImports) := by
  induction ns with
  | nil => rfl
  | cons n ns ih => rw [List.map_cons, Outline.nodesOf, ih, List.flatMap_cons, n.preorder_eq_nodes]

/-- A node is visited first, then what is below each of the children that are entered. -/
theorem Node.preorder_eq (n : Node) :
    n.preorder intoImports = n :: (n.entered intoImports).flatMap (Node.preorder intoImports) := by
  rw [n.preorder_eq_nodes, Node.outline_eq, Outline.nodes, Node.entered]
  split
  · rfl
  · rw [Outline.nodesOf_map_outline]

/-- Nothing below an import is entered by a walk that does not go into imports. -/
theorem Node.entered_of_closed {n : Node} (h : n.isImport = true ∧ intoImports = false) :
    n.entered intoImports = [] := by
  simp [Node.entered, h]

/-- Otherwise all children are entered. -/
theorem Node.entered_of_opened {n : Node} (h : ¬ (n.isImport = true ∧ intoImports = false)) :
    n.entered intoImports = n.children := by
  rw [Node.entered, if_neg]
  simpa using h

theorem Node.mem_children_of_mem_entered {n c : Node} (h : c ∈ n.entered intoImports) :
    c ∈ n.children := by
  rw [Node.entered] at h
  split at h
  · cases h
  · exact h

/-- What is above all its children everywhere holds of every node. -/
@[elab_as_elim]
theorem Node.children_induction {motive : Node → Prop}
    (node : ∀ n : Node, (∀ c ∈ n.children, motive c) → motive n) (n : Node) : motive n := by
  -- The induction is on the number of nodes of the tree.
  induction hsize : n.outline.size using Nat.strongRecOn generalizing n with
  | ind size ih =>
    refine node n fun c hc => ih c.outline.size ?_ c rfl
    rw [← hsize, n.outline_eq, Outline.size]
    exact Nat.lt_succ_of_le (Outline.size_le_sizeOfAll (List.mem_map_of_mem hc))

end ImportSweep.Tree

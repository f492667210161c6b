import ImportSweep.Tree.Outline

/-!
# Walking a tree

`Node.walk` visits a node and the nodes below it in pre-order, with a stack of nodes that are
still to be visited. A visitor has a state and says after each node how to go on. `Outline.walk`
is the same walk by recursion, and `Node.preorder` the list of all nodes that are visited when
nothing stops the walk.

An import is visited, but what it holds only on request: imported files are looked at on their own.
-/

namespace ImportSweep.Tree

/-- How a walk goes on after a node. -/
inductive Step where
  /-- With the node's children. -/
  | enter
  /-- With the next node that is not below this one. -/
  | skip
  /-- Not at all. -/
  | stop
  deriving DecidableEq, Repr

/-- The children that a walk enters: those of an import only with `intoImports`. -/
def Node.entered (intoImports : Bool) (n : Node) : List Node :=
  if n.isImport && !intoImports then [] else n.children

/-- Visits the nodes of a stack and all below them, at most `fuel` nodes. The result is the last
state, and whether the visitor stopped the walk. -/
def walkStack {σ : Type} (intoImports : Bool) (visit : σ → Node → σ × Step) :
    Nat → List Node → σ → σ × Bool
  | _, [], state => (state, false)
  | 0, _ :: _, state => (state, false)
  | fuel + 1, n :: stack, state =>
    match visit state n with
    | (state, .stop) => (state, true)
    | (state, .skip) => walkStack intoImports visit fuel stack state
    | (state, .enter) =>
      walkStack intoImports visit fuel (n.entered intoImports ++ stack) state

/-- Visits a node and all nodes below it in pre-order. -/
def Node.walk {σ : Type} (intoImports : Bool) (visit : σ → Node → σ × Step) (state : σ)
    (root : Node) : σ × Bool :=
  walkStack intoImports visit root.outline.size [root] state

/-- A node and all nodes below it, in pre-order. -/
def Node.preorder (intoImports : Bool) (root : Node) : List Node :=
  (root.walk intoImports (fun seen n => (n :: seen, .enter)) []).1.reverse

mutual

/-- The walk by recursion. -/
def Outline.walk {σ : Type} (intoImports : Bool) (visit : σ → Node → σ × Step) :
    Outline → σ → σ × Bool
  | .mk n branches, state =>
    match visit state n with
    | (state, .stop) => (state, true)
    | (state, .skip) => (state, false)
    | (state, .enter) =>
      if n.isImport && !intoImports then (state, false)
      else Outline.walkEach intoImports visit branches state

/-- The walk through one tree after the other. -/
def Outline.walkEach {σ : Type} (intoImports : Bool) (visit : σ → Node → σ × Step) :
    List Outline → σ → σ × Bool
  | [], state => (state, false)
  | o :: os, state =>
    match o.walk intoImports visit state with
    | (state, true) => (state, true)
    | (state, false) => Outline.walkEach intoImports visit os state

end

end ImportSweep.Tree

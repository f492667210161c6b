import ImportSweep.Proofs.Preorder
import ImportSweep.Tree.Build

/-!
# The calls of a walk

A walk with a stack calls its visitor just as a walk by recursion would. `Visits` states the
recursion as rules: a node is visited first, then its children from left to right, and a stop ends
everything. It says which calls are made, in which order, with which states. To see the calls of
the walk with a stack, the visitor is given a log (`recording`), which changes nothing else
(`walkStack_recording`). `Visits.walkStack_eq` is the simulation: one turn of the loop for each
call, whatever else is on the stack.
-/

namespace ImportSweep.Tree

variable {σ : Type} {intoImports : Bool} {visit : σ → Node → σ × Step}

/-- A call of a visitor: its state before the call and the node that it is shown. -/
structure Call (σ : Type) where
  /-- The state before the call. -/
  state : σ
  /-- The node. -/
  node : Node

mutual

/-- `Visits intoImports visit n state calls state' stopped`: a recursive walk from `n` with the
state `state` makes the calls `calls` and leaves the state `state'`, and a stop ended it if
`stopped`. -/
inductive Visits (intoImports : Bool) (visit : σ → Node → σ × Step) :
    Node → σ → List (Call σ) → σ → Bool → Prop where
  /-- The visitor stops the walk. -/
  | stop {n : Node} {state state' : σ} (answer : visit state n = (state', .stop)) :
    Visits intoImports visit n state [⟨state, n⟩] state' true
  /-- The visitor leaves out what is below the node. -/
  | skip {n : Node} {state state' : σ} (answer : visit state n = (state', .skip)) :
    Visits intoImports visit n state [⟨state, n⟩] state' false
  /-- The node is an import, and the walk does not go into imports. -/
  | outside {n : Node} {state state' : σ} (answer : visit state n = (state', .enter))
    (closed : n.isImport = true ∧ intoImports = false) :
    Visits intoImports visit n state [⟨state, n⟩] state' false
  /-- The walk goes on with the children. -/
  | enter {n : Node} {state state' state'' : σ} {calls : List (Call σ)} {stopped : Bool}
    (answer : visit state n = (state', .enter))
    (opened : ¬ (n.isImport = true ∧ intoImports = false))
    (children : VisitsAll intoImports visit n.children state' calls state'' stopped) :
    Visits intoImports visit n state (⟨state, n⟩ :: calls) state'' stopped

/-- The recursive walk from one node after the other. -/
inductive VisitsAll (intoImports : Bool) (visit : σ → Node → σ × Step) :
    List Node → σ → List (Call σ) → σ → Bool → Prop where
  /-- No node is left. -/
  | nil {state : σ} : VisitsAll intoImports visit [] state [] state false
  /-- A stop below the first node leaves out the other nodes. -/
  | stopped {n : Node} {ns : List Node} {state state' : σ} {calls : List (Call σ)}
    (first : Visits intoImports visit n state calls state' true) :
    VisitsAll intoImports visit (n :: ns) state calls state' true
  /-- Otherwise they come next. -/
  | next {n : Node} {ns : List Node} {state state' state'' : σ} {calls calls' : List (Call σ)}
    {stopped : Bool} (first : Visits intoImports visit n state calls state' false)
    (others : VisitsAll intoImports visit ns state' calls' state'' stopped) :
    VisitsAll intoImports visit (n :: ns) state (calls ++ calls') state'' stopped

end

/-! ## The recursion -/

/-- If a recursive walk from each of the nodes ends, then so does one from all of them. -/
theorem exists_visitsAll {ns : List Node}
    (h : ∀ n ∈ ns, ∀ state, ∃ calls state' stopped,
      Visits intoImports visit n state calls state' stopped) (state : σ) :
    ∃ calls state' stopped, VisitsAll intoImports visit ns state calls state' stopped := by
  induction ns generalizing state with
  | nil => exact ⟨[], state, false, .nil⟩
  | cons n ns ih =>
    obtain ⟨calls, state', stopped, hfirst⟩ := h n List.mem_cons_self state
    cases stopped with
    | true => exact ⟨calls, state', true, .stopped hfirst⟩
    | false =>
      obtain ⟨calls', state'', stopped, hothers⟩ :=
        ih (fun c hc => h c (List.mem_cons_of_mem n hc)) state'
      exact ⟨calls ++ calls', state'', stopped, .next hfirst hothers⟩

/-- A recursive walk ends. -/
theorem exists_visits (intoImports : Bool) (visit : σ → Node → σ × Step) (n : Node) (state : σ) :
    ∃ calls state' stopped, Visits intoImports visit n state calls state' stopped := by
  -- On the tree; the state may be any, since it changes from call to call.
  induction n using Node.children_induction generalizing state with
  | node n ih =>
    rcases hanswer : visit state n with ⟨state', step⟩
    cases step with
    | stop => exact ⟨_, state', true, .stop hanswer⟩
    | skip => exact ⟨_, state', false, .skip hanswer⟩
    | enter =>
      by_cases hclosed : n.isImport = true ∧ intoImports = false
      · exact ⟨_, state', false, .outside hanswer hclosed⟩
      · obtain ⟨calls, state'', stopped, hchildren⟩ := exists_visitsAll ih state'
        exact ⟨_, state'', stopped, .enter hanswer hclosed hchildren⟩

/-- Each call is given the state that the call before it left, the first one `state`, and the last
one leaves `state'`. -/
def Threaded (visit : σ → Node → σ × Step) (state : σ) (calls : List (Call σ)) (state' : σ) :
    Prop :=
  match calls with
  | [] => state' = state
  | call :: calls => call.state = state ∧ Threaded visit (visit state call.node).1 calls state'

theorem Threaded.append {state state' state'' : σ} {calls calls' : List (Call σ)}
    (h : Threaded visit state calls state') (h' : Threaded visit state' calls' state'') :
    Threaded visit state (calls ++ calls') state'' := by
  induction calls generalizing state with
  | nil =>
    cases h
    exact h'
  | cons call calls ih => exact ⟨h.1, ih h.2⟩

/-- A call whose answer is to stop is among the calls. -/
def SomeStop (visit : σ → Node → σ × Step) (calls : List (Call σ)) : Prop :=
  ∃ call ∈ calls, (visit call.state call.node).2 = .stop

mutual

theorem Visits.threaded {n : Node} {state state' : σ} {calls : List (Call σ)} {stopped : Bool} :
    Visits intoImports visit n state calls state' stopped → Threaded visit state calls state'
  | .stop answer => ⟨rfl, by rw [answer]; rfl⟩
  | .skip answer => ⟨rfl, by rw [answer]; rfl⟩
  | .outside answer _ => ⟨rfl, by rw [answer]; rfl⟩
  | .enter answer _ children => ⟨rfl, by rw [answer]; exact children.threaded⟩

theorem VisitsAll.threaded {ns : List Node} {state state' : σ} {calls : List (Call σ)}
    {stopped : Bool} :
    VisitsAll intoImports visit ns state calls state' stopped → Threaded visit state calls state'
  | .nil => rfl
  | .stopped first => first.threaded
  | .next first others => first.threaded.append others.threaded

end

mutual

theorem Visits.stopped_iff {n : Node} {state state' : σ} {calls : List (Call σ)} {stopped : Bool} :
    Visits intoImports visit n state calls state' stopped → (stopped = true ↔ SomeStop visit calls)
  | .stop answer => by simp [SomeStop, answer]
  | .skip answer => by simp [SomeStop, answer]
  | .outside answer _ => by simp [SomeStop, answer]
  | .enter answer _ children => by
    rw [children.stopped_iff]
    simp [SomeStop, answer]

theorem VisitsAll.stopped_iff {ns : List Node} {state state' : σ} {calls : List (Call σ)}
    {stopped : Bool} :
    VisitsAll intoImports visit ns state calls state' stopped →
      (stopped = true ↔ SomeStop visit calls)
  | .nil => by simp [SomeStop]
  | .stopped first => first.stopped_iff
  | .next first others => by
    have hfirst := first.stopped_iff
    rw [others.stopped_iff]
    simp only [SomeStop, List.mem_append, or_and_right, exists_or] at hfirst ⊢
    simp [← hfirst]

end

/-! ## The walk with a stack -/

/-- The visitor with a log of its calls. -/
def recording (visit : σ → Node → σ × Step) (logged : σ × List (Call σ)) (n : Node) :
    (σ × List (Call σ)) × Step :=
  let (state, calls) := logged
  let (state', step) := visit state n
  ((state', calls ++ [⟨state, n⟩]), step)

theorem recording_eq {n : Node} {state state' : σ} {step : Step} (calls : List (Call σ))
    (answer : visit state n = (state', step)) :
    recording visit (state, calls) n = ((state', calls ++ [⟨state, n⟩]), step) := by
  rw [recording, answer]

/-- The log changes neither the states nor whether the walk is stopped. -/
theorem walkStack_recording (fuel : Nat) (stack : List Node) (state : σ) (calls : List (Call σ)) :
    walkStack intoImports visit fuel stack state =
      Prod.map Prod.fst id
        (walkStack intoImports (recording visit) fuel stack (state, calls)) := by
  induction fuel generalizing stack state calls with
  | zero => cases stack <;> rfl
  | succ fuel ih =>
    cases stack with
    | nil => rfl
    | cons n stack =>
      rcases hanswer : visit state n with ⟨state', step⟩
      rw [walkStack, walkStack, hanswer, recording_eq calls hanswer]
      cases step with
      | stop => rfl
      | skip => exact ih stack state' _
      | enter => exact ih _ state' _

mutual

/-- The loop takes one turn for each call of the recursive walk from the node on top of the stack.
Then it is at what was below that node on the stack, unless it was stopped. -/
theorem Visits.walkStack_eq {n : Node} {state state' : σ} {calls : List (Call σ)} {stopped : Bool}
    (fuel : Nat) (stack : List Node) (seen : List (Call σ)) :
    Visits intoImports visit n state calls state' stopped →
      walkStack intoImports (recording visit) (calls.length + fuel) (n :: stack) (state, seen) =
        if stopped then ((state', seen ++ calls), true)
        else walkStack intoImports (recording visit) fuel stack (state', seen ++ calls)
  | .stop answer => by
    rw [List.length_singleton, Nat.add_comm, walkStack, recording_eq seen answer]
    rfl
  | .skip answer => by
    rw [List.length_singleton, Nat.add_comm, walkStack, recording_eq seen answer]
    rfl
  | .outside answer closed => by
    rw [List.length_singleton, Nat.add_comm, walkStack, recording_eq seen answer]
    simp only [Node.entered_of_closed closed]
    rfl
  | .enter answer opened children => by
    rw [List.length_cons, Nat.add_right_comm, walkStack, recording_eq seen answer]
    -- The children come on top of the stack.
    have hchildren := children.walkStack_eq fuel stack (seen ++ [⟨state, n⟩])
    rw [List.append_assoc, List.singleton_append] at hchildren
    simpa only [Node.entered_of_opened opened] using hchildren

theorem VisitsAll.walkStack_eq {ns : List Node} {state state' : σ} {calls : List (Call σ)}
    {stopped : Bool} (fuel : Nat) (stack : List Node) (seen : List (Call σ)) :
    VisitsAll intoImports visit ns state calls state' stopped →
      walkStack intoImports (recording visit) (calls.length + fuel) (ns ++ stack) (state, seen) =
        if stopped then ((state', seen ++ calls), true)
        else walkStack intoImports (recording visit) fuel stack (state', seen ++ calls)
  | .nil => by simp
  | .stopped first => first.walkStack_eq fuel _ seen
  | .next first others => by
    -- The turns for the first node leave the turns for the others.
    rw [List.length_append, Nat.add_assoc, List.cons_append, first.walkStack_eq,
      if_neg Bool.false_ne_true, others.walkStack_eq, List.append_assoc]

end

/-- With a turn for each call, the loop makes the calls of the recursive walk and no others. -/
theorem Visits.walkStack_root {root : Node} {state state' : σ} {calls : List (Call σ)}
    {stopped : Bool} (h : Visits intoImports visit root state calls state' stopped) {fuel : Nat}
    (hfuel : calls.length ≤ fuel) :
    walkStack intoImports (recording visit) fuel [root] (state, []) =
      ((state', calls), stopped) := by
  obtain ⟨more, rfl⟩ := Nat.exists_eq_add_of_le hfuel
  rw [h.walkStack_eq, List.nil_append]
  -- With no node on the stack, the loop is done.
  cases stopped <;> cases more <;> rfl

/-- The fuel of a walk is enough for all its calls. -/
theorem Visits.walk_root {root : Node} {state state' : σ} {calls : List (Call σ)}
    {stopped : Bool} (h : Visits intoImports visit root state calls state' stopped) :
    root.walk intoImports (recording visit) (state, []) = ((state', calls), stopped) := by
  have hsize : Outline.sizeOfAll ([root].map Node.outline) ≤ root.outline.size := by
    simp [Outline.sizeOfAll]
  -- More fuel than the size of the tree changes nothing.
  rw [Node.walk, walkStack_eq_walkEach _ _ _ _ hsize,
    ← walkStack_eq_walkEach _ (root.outline.size + calls.length) _ _ (Nat.le_add_right_of_le hsize)]
  exact h.walkStack_root (Nat.le_add_left _ _)

/-- The walk with a stack is the recursive walk in pre-order. For every tree and every visitor the
recursion makes exactly one sequence of calls. The loop makes the same calls, one each turn, and is
then done, however much fuel is left. Each call is given the state that the one before it left, and
the walk is stopped exactly if a call answers so. -/
theorem walk_calls_recursively (intoImports : Bool) (visit : σ → Node → σ × Step) (state : σ)
    (root : Node) :
    ∃ calls state' stopped,
      (∀ calls₁ state₁ stopped₁, Visits intoImports visit root state calls₁ state₁ stopped₁ ↔
        calls₁ = calls ∧ state₁ = state' ∧ stopped₁ = stopped) ∧
      root.walk intoImports (recording visit) (state, []) = ((state', calls), stopped) ∧
      (∀ fuel, calls.length ≤ fuel →
        walkStack intoImports (recording visit) fuel [root] (state, []) =
          ((state', calls), stopped)) ∧
      root.walk intoImports visit state = (state', stopped) ∧
      Threaded visit state calls state' ∧
      (stopped = true ↔ SomeStop visit calls) := by
  obtain ⟨calls, state', stopped, hvisits⟩ := exists_visits intoImports visit root state
  refine ⟨calls, state', stopped, ?_, hvisits.walk_root, fun fuel => hvisits.walkStack_root, ?_,
    hvisits.threaded, hvisits.stopped_iff⟩
  · intro calls₁ state₁ stopped₁
    constructor
    · -- Both sequences are what the one loop records.
      intro hvisits₁
      have hsame := hvisits₁.walk_root.symm.trans hvisits.walk_root
      simpa [and_assoc, and_comm, and_left_comm] using hsame
    · rintro ⟨rfl, rfl, rfl⟩
      exact hvisits
  · rw [Node.walk, walkStack_recording _ _ _ [], ← Node.walk, hvisits.walk_root]
    rfl

/-- Counts nodes, leaves out what is below a selector, and stops at the first comment. -/
def countToComment (count : Nat) (n : Node) : Nat × Step :=
  (count + 1,
    match n.kind with
    | .comment => .stop
    | .selector => .skip
    | _ => .enter)

/-- A file with an import, a block with a comment in it, and a second comment. -/
def commentedFile : Node :=
  Build.root
    [Build.importRule "base" (some (Build.root [Build.comment "/* a */"])) false,
      Build.ruleset [".card"] [Build.comment "/* b */"], Build.comment "/* c */"]

theorem walk_calls_recursively_commentedFile :
    ∃ calls, Visits false countToComment commentedFile 0 calls 5 true ∧
      Threaded countToComment 0 calls 5 ∧ SomeStop countToComment calls := by
  have hrun : commentedFile.walk false countToComment 0 = (5, true) := by decide +kernel
  obtain ⟨calls, state', stopped, hvisits, -, -, hwalk, hthreaded, hstop⟩ :=
    walk_calls_recursively false countToComment 0 commentedFile
  obtain ⟨rfl, rfl⟩ := Prod.mk.inj (hwalk.symm.trans hrun)
  exact ⟨calls, (hvisits calls 5 true).2 ⟨rfl, rfl, rfl⟩, hthreaded, hstop.1 rfl⟩

end ImportSweep.Tree

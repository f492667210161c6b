import ImportSweep.Proofs.OwnText
import ImportSweep.Tree.Line

/-!
# Lines of nodes and of the nodes below

The line of a node follows one member down to texts and numbers. On the way it comes to other nodes,
and it goes on with all of the line of each. It may also come to a dead end, that is a truth value,
nothing or an empty list, and then there is no line.

A node and all that is below it write to the same line, in functions that call each other. What they
have in common is stated once (`ComesFrom`): the segments come from the stops on the way, each of
which is a node or a dead end. This holds of a value by the recursion over lists in lists, and of a
node by the member that its kind follows.

## Main definitions

* `Body.traced`: the member that is followed, and `Node.tracedNodes` the nodes in it;
* `Value.HoldsDeadEnd`: there is a dead end in a value;
* `InOrder`: parts that stand in a whole one after the other;
* `Node.FirstDeadEnd`: the node to which the first dead end belongs. Dead ends have places, and the
  place of the first is the smallest.

## Main results

* `Node.comesFrom_segments`: the segments of a node come from its stops;
* `Node.exists_line_iff` and `Node.inOrder_lines`: the line of a node, from those of the nodes that
  it follows;
* `Node.exists_firstDeadEnd`: why a node has no line.
-/

namespace ImportSweep.Tree

/-! ## What a line follows -/

/-- The member that the line of a body follows. -/
def Body.traced : Body → Value
  | .namespaceValue value _ => .node value
  | .selector elements _ _ => .ofNodes elements
  | .mixinCall target _ => .node target
  | .extend target _ => .node target
  | .importRule path _ _ _ _ => path
  | .ruleset _ rules _ => .ofNodes rules
  | .mixinDefinition _ _ _ _ rules _ => .ofNodes rules
  | .media _ rules => .ofNodes rules
  | .atRule name value rules =>
    if rules.isEmpty then (name.map Value.text).getD value else .ofNodes rules
  | .variableCall name => .text name
  | .declaration (.text name) _ _ => .text name
  | .declaration (.parts parts) _ _ => .ofNodes parts
  | .variableUse name => .text name
  | .call name _ => .text name
  | .property name => .text name
  | .detachedRuleset block => .node block
  | .unit numerator _ _ => .list (numerator.map .text)
  | .condition _ lvalue _ _ => lvalue
  | .operation _ operands => .list operands
  | .attributeSelector key _ _ => key
  | .javaScript script => script
  | .anonymous value => value
  | .assignment _ value => value
  | .color value => value
  | .combinator value => value
  | .comment value _ => value
  | .dimension value _ => value
  | .element _ value _ => value
  | .expression value => value
  | .keyword value => value
  | .negative value => value
  | .paren value => value
  | .quoted value _ _ => value
  | .unicodeDescriptor value => value
  | .url value => value
  | .valueList value => value

/-- The nodes with which the line of a node goes on, in order. -/
def Node.tracedNodes (n : Node) : List Node :=
  n.body.traced.nodes

/-- The value holds a truth value, nothing or an empty list, in lists at any depth. -/
inductive Value.HoldsDeadEnd : Value → Prop where
  /-- A truth value. -/
  | flag (flag : Bool) : Value.HoldsDeadEnd (.flag flag)
  /-- Nothing. -/
  | null : Value.HoldsDeadEnd .null
  /-- An empty list. -/
  | empty : Value.HoldsDeadEnd (.list [])
  /-- An item of a list holds a dead end. -/
  | item {items : List Value} {v : Value} (hmem : v ∈ items) (hv : v.HoldsDeadEnd) :
      Value.HoldsDeadEnd (.list items)

/-- What the way down comes to. -/
inductive Stop where
  /-- A node, with whose own line it goes on. -/
  | node (node : Node)
  /-- A dead end. -/
  | deadEnd

mutual

/-- The stops in a value, in order. -/
def Value.stops : Value → List Stop
  | .node n => [.node n]
  | .list items => if items.isEmpty then [.deadEnd] else Value.stopsOf items
  | .text _ | .number _ => []
  | .flag _ | .null => [.deadEnd]

/-- The stops in a list of values, in order. -/
def Value.stopsOf : List Value → List Stop
  | [] => []
  | v :: vs => v.stops ++ Value.stopsOf vs

end

/-- The stops of a node. The texts of a unit are joined to one, so that no unit has a dead end. -/
def Node.stops (n : Node) : List Stop :=
  if n.kind = .unit then [] else n.body.traced.stops

/-- The node that a stop is. -/
def Stop.node? : Stop → Option Node
  | .node n => some n
  | .deadEnd => none

theorem Value.holdsDeadEnd_list_iff {items : List Value} (h : items ≠ []) :
    (Value.list items).HoldsDeadEnd ↔ ∃ v ∈ items, v.HoldsDeadEnd := by
  constructor
  · intro hdead
    cases hdead with
    | empty => exact absurd rfl h
    | item hmem hv => exact ⟨_, hmem, hv⟩
  · rintro ⟨v, hmem, hv⟩
    exact .item hmem hv

mutual

theorem Value.deadEnd_mem_stops_iff : (v : Value) → (Stop.deadEnd ∈ v.stops ↔ v.HoldsDeadEnd)
  | .node n => by
    refine iff_of_false (by simp [Value.stops]) fun h => ?_
    cases h
  | .list [] => iff_of_true List.mem_cons_self .empty
  | .list (v :: vs) => by
    rw [Value.holdsDeadEnd_list_iff (List.cons_ne_nil v vs)]
    exact Value.deadEnd_mem_stopsOf_iff (v :: vs)
  | .text _ => iff_of_false List.not_mem_nil fun h => by cases h
  | .number _ => iff_of_false List.not_mem_nil fun h => by cases h
  | .flag b => iff_of_true List.mem_cons_self (.flag b)
  | .null => iff_of_true List.mem_cons_self .null

theorem Value.deadEnd_mem_stopsOf_iff :
    (vs : List Value) → (Stop.deadEnd ∈ Value.stopsOf vs ↔ ∃ v ∈ vs, v.HoldsDeadEnd)
  | [] => by simp [Value.stopsOf]
  | v :: vs => by
    rw [Value.stopsOf, List.mem_append, List.exists_mem_cons_iff, Value.deadEnd_mem_stops_iff v,
      Value.deadEnd_mem_stopsOf_iff vs]

end

mutual

/-- The nodes among the stops of a value are the nodes that it holds. -/
theorem Value.filterMap_stops : (v : Value) → v.stops.filterMap Stop.node? = v.nodes
  | .node _ => rfl
  | .list [] => rfl
  | .list (v :: vs) => Value.filterMap_stopsOf (v :: vs)
  | .text _ => rfl
  | .number _ => rfl
  | .flag _ => rfl
  | .null => rfl

theorem Value.filterMap_stopsOf :
    (vs : List Value) → (Value.stopsOf vs).filterMap Stop.node? = Value.nodesOf vs
  | [] => rfl
  | v :: vs => by
    rw [Value.stopsOf, List.filterMap_append, Value.filterMap_stops v, Value.filterMap_stopsOf vs,
      Value.nodesOf]

end

/-- Where no stop is a dead end, the stops are nodes. -/
theorem map_node_filterMap {stops : List Stop} (h : Stop.deadEnd ∉ stops) :
    (stops.filterMap Stop.node?).map .node = stops := by
  induction stops with
  | nil => rfl
  | cons stop stops ih =>
    rw [List.mem_cons, not_or] at h
    cases stop with
    | node n => exact congrArg (Stop.node n :: ·) (ih h.2)
    | deadEnd => exact absurd rfl h.1

/-- A unit follows texts only. -/
theorem Node.tracedNodes_of_kind_eq_unit {n : Node} (h : n.kind = .unit) : n.tracedNodes = [] := by
  obtain ⟨index, body⟩ := n
  cases body
  case unit numerator denominator backupUnit =>
    have htexts : (Value.list (numerator.map .text)).nodes = [] := by
      rw [Value.nodes, Value.nodesOf_eq_flatMap]
      simp [Value.nodes]
    exact htexts
  all_goals cases h

/-- The nodes among the stops are those that the line follows. -/
theorem Node.filterMap_stops (n : Node) : n.stops.filterMap Stop.node? = n.tracedNodes := by
  rw [Node.stops]
  split
  · next hunit => rw [Node.tracedNodes_of_kind_eq_unit hunit, List.filterMap_nil]
  · exact n.body.traced.filterMap_stops

theorem Node.mem_tracedNodes_iff {n m : Node} : m ∈ n.tracedNodes ↔ Stop.node m ∈ n.stops := by
  rw [← n.filterMap_stops, List.mem_filterMap]
  constructor
  · rintro ⟨stop, hstop, hm⟩
    cases stop with
    | node _ =>
      cases hm
      exact hstop
    | deadEnd => cases hm
  · intro hm
    exact ⟨.node m, hm, rfl⟩

/-- Of all kinds but units, a node has a dead end among its stops when the member that it follows
holds one. -/
theorem Node.deadEnd_mem_stops_iff {n : Node} :
    Stop.deadEnd ∈ n.stops ↔ n.kind ≠ .unit ∧ n.body.traced.HoldsDeadEnd := by
  rw [Node.stops]
  split
  · next hunit => simp [hunit]
  · next hunit => rw [Value.deadEnd_mem_stops_iff, and_iff_right hunit]

/-! ## Parts in order -/

/-- The parts stand in the whole one after the other, without overlap. -/
def InOrder {α : Type} : List (List α) → List α → Prop
  | [], _ => True
  | part :: parts, whole =>
    ∃ before after, whole = before ++ part ++ after ∧ InOrder parts after

section InOrder

variable {α : Type} {parts parts' : List (List α)} {whole whole' : List α}

theorem InOrder.append_left (before : List α) (h : InOrder parts whole) :
    InOrder parts (before ++ whole) := by
  cases parts with
  | nil => trivial
  | cons part parts =>
    obtain ⟨start, after, rfl, hafter⟩ := h
    exact ⟨before ++ start, after, by simp only [List.append_assoc], hafter⟩

theorem InOrder.append (h : InOrder parts whole) (h' : InOrder parts' whole') :
    InOrder (parts ++ parts') (whole ++ whole') := by
  induction parts generalizing whole with
  | nil => exact h'.append_left whole
  | cons part parts ih =>
    obtain ⟨before, after, rfl, hafter⟩ := h
    exact ⟨before, after ++ whole', by simp only [List.append_assoc], ih hafter⟩

theorem InOrder.append_right (h : InOrder parts whole) (after : List α) :
    InOrder parts (whole ++ after) := by
  have hparts : InOrder (parts ++ []) (whole ++ after) := h.append trivial
  rwa [List.append_nil] at hparts

theorem inOrder_self (whole : List α) : InOrder [whole] whole :=
  ⟨[], [], by simp, trivial⟩

end InOrder

/-- Texts are joined with at most a space between them. -/
theorem exists_intercalate_append (a b : List String) :
    ∃ gap : String, " ".intercalate (a ++ b) = " ".intercalate a ++ gap ++ " ".intercalate b := by
  cases a with
  | nil => exact ⟨"", by simp⟩
  | cons first a =>
    cases b with
    | nil => exact ⟨"", by simp⟩
    | cons second b =>
      exact ⟨" ", String.intercalate_append_of_ne_nil (List.cons_ne_nil _ _) (List.cons_ne_nil _ _)⟩

/-- Parts that stand in order among segments still do when all are joined. -/
theorem InOrder.intercalate {parts : List (List String)} {segments : List String}
    (h : InOrder parts segments) :
    InOrder (parts.map fun part => (" ".intercalate part).toList)
      (" ".intercalate segments).toList := by
  induction parts generalizing segments with
  | nil => trivial
  | cons part parts ih =>
    obtain ⟨before, after, rfl, hafter⟩ := h
    -- The part is joined to what is before it and then to what is after it.
    obtain ⟨gap, hfirst⟩ := exists_intercalate_append before part
    obtain ⟨gap', hboth⟩ := exists_intercalate_append (before ++ part) after
    refine ⟨(" ".intercalate before ++ gap).toList, gap'.toList ++ (" ".intercalate after).toList,
      ?_, (ih hafter).append_left gap'.toList⟩
    rw [hboth, hfirst]
    simp only [String.toList_append, List.append_assoc]

/-! ## Segments and stops -/

/-- The segments that a stop adds to a line; at a dead end, whose it is. -/
def Stop.segments (owner : Body) : Stop → Except Body (List String)
  | .node n => n.segments.mapError DeadEnd.owner
  | .deadEnd => .error owner

/-- The segments come from the stops: those of each stop stand among them in order, and the first
stop that has none is the reason why there are none. -/
structure ComesFrom (owner : Body) (stops : List Stop) (result : Except DeadEnd (List String)) :
    Prop where
  /-- The segments of the stops, if there are any. -/
  ok : ∀ segments, result = .ok segments →
    ∃ parts, stops.mapM (Stop.segments owner) = .ok parts ∧ InOrder parts segments
  /-- The dead end otherwise. -/
  error : ∀ e, result = .error e → stops.mapM (Stop.segments owner) = .error e.owner

namespace ComesFrom

variable {owner : Body} {stops stops' : List Stop}
  {result result' : Except DeadEnd (List String)}

theorem text (segments : List String) : ComesFrom owner [] (.ok segments) where
  ok _ _ := ⟨[], rfl, trivial⟩
  error _ h := by cases h

theorem deadEnd (member : String) : ComesFrom owner [.deadEnd] (.error ⟨owner, member⟩) where
  ok _ h := by cases h
  error e h := by
    cases h
    rfl

theorem node (n : Node) : ComesFrom owner [.node n] n.segments where
  ok segments h := by
    refine ⟨[segments], ?_, inOrder_self segments⟩
    rw [List.mapM_cons, Stop.segments, h]
    rfl
  error e h := by
    rw [List.mapM_cons, Stop.segments, h]
    rfl

/-- More segments in front and behind. -/
theorem map {f : List String → List String} (h : ComesFrom owner stops result)
    (hf : ∀ segments, ∃ before after, f segments = before ++ segments ++ after) :
    ComesFrom owner stops (f <$> result) where
  ok _ hok := by
    obtain ⟨segments, hresult, rfl⟩ := map_eq_ok_iff.1 hok
    obtain ⟨parts, hparts, horder⟩ := h.ok segments hresult
    obtain ⟨before, after, hsegments⟩ := hf segments
    rw [hsegments]
    exact ⟨parts, hparts, (horder.append_left before).append_right after⟩
  error e herror := by
    cases result with
    | ok _ => cases herror
    | error e' =>
      cases herror
      exact h.error e rfl

theorem cons (segment : String) (h : ComesFrom owner stops result) :
    ComesFrom owner stops ((segment :: ·) <$> result) :=
  h.map fun segments => ⟨[segment], [], by simp⟩

/-- One result after the other. -/
theorem append (h : ComesFrom owner stops result) (h' : ComesFrom owner stops' result') :
    ComesFrom owner (stops ++ stops') (do return (← result) ++ (← result')) where
  ok _ hok := by
    obtain ⟨first, hfirst, hok⟩ := bind_eq_ok_iff.1 hok
    obtain ⟨second, hsecond, hok⟩ := bind_eq_ok_iff.1 hok
    cases hok
    obtain ⟨parts, hparts, horder⟩ := h.ok first hfirst
    obtain ⟨parts', hparts', horder'⟩ := h'.ok second hsecond
    refine ⟨parts ++ parts', ?_, horder.append horder'⟩
    rw [List.mapM_append, hparts, hparts']
    rfl
  error e herror := by
    -- An error of the second result comes up only when the first has segments.
    rw [List.mapM_append]
    rcases bind_eq_error_iff.1 herror with hfirst | ⟨first, hfirst, herror⟩
    · rw [h.error e hfirst]
      rfl
    · obtain ⟨parts, hparts, -⟩ := h.ok first hfirst
      rw [hparts, h'.error e (bind_pure_eq_error_iff.1 herror)]
      rfl

end ComesFrom

open Line

/-- An empty list of values is a dead end; from any other the segments come as from its items. -/
theorem ComesFrom.nonemptyItems {owner : Body} {items : List Value}
    {result : Except DeadEnd (List String)} (h : ComesFrom owner (Value.stopsOf items) result) :
    ComesFrom owner (Value.list items).stops (nonemptyItems owner items result) := by
  rw [Value.stops, Line.nonemptyItems]
  split
  · exact .deadEnd _
  · exact h

mutual

/-- The segments of a loosely typed member come from its stops. -/
theorem Value.comesFrom_segments (owner : Body) (member : String) :
    (v : Value) → ComesFrom owner v.stops (v.segments owner member)
  | .text _ => .text _
  | .number _ => .text _
  | .node n => by
    rw [Value.segments, bind_pure_comp]
    exact (ComesFrom.node n).cons _
  | .list items => (Value.comesFrom_itemSegments owner 0 items).nonemptyItems.cons _
  | .flag _ => .deadEnd _
  | .null => .deadEnd _

/-- The segments of the items of a list come from their stops. -/
theorem Value.comesFrom_itemSegments (owner : Body) (position : Nat) :
    (vs : List Value) → ComesFrom owner (Value.stopsOf vs) (Value.itemSegments owner position vs)
  | [] => .text []
  | v :: vs =>
    (Value.comesFrom_itemSegment owner position v).append
      (Value.comesFrom_itemSegments owner (position + 1) vs)

/-- The segments of one item of a list come from its stops. -/
theorem Value.comesFrom_itemSegment (owner : Body) (position : Nat) :
    (v : Value) → ComesFrom owner v.stops (v.itemSegment owner position)
  | .text _ => .text _
  | .number _ => .text _
  | .node n => by
    rw [Value.itemSegment, bind_pure_comp]
    exact (ComesFrom.node n).cons _
  | .list items => (Value.comesFrom_itemSegments owner 0 items).nonemptyItems.cons _
  | .flag _ => .deadEnd _
  | .null => .deadEnd _

end

/-- The segments of a list of nodes come from these nodes. -/
theorem Node.comesFrom_itemSegments (owner : Body) (position : Nat) (ns : List Node) :
    ComesFrom owner (Value.stopsOf (ns.map .node)) (Node.itemSegments position ns) := by
  induction ns generalizing position with
  | nil => exact .text []
  | cons n ns ih =>
    have hfirst : ComesFrom owner [.node n] (((item position ++ "->") :: ·) <$> n.segments) :=
      (ComesFrom.node n).cons _
    -- The segment in front of the first node is written at the end; it belongs to that node.
    have hboth : Node.itemSegments position (n :: ns) =
        (do return (← ((item position ++ "->") :: ·) <$> n.segments) ++
          (← Node.itemSegments (position + 1) ns)) := by
      rw [Node.itemSegments]
      cases n.segments <;> rfl
    rw [hboth]
    exact hfirst.append (ih (position + 1))

/-- An empty list of nodes is a dead end as well. -/
theorem Node.comesFrom_nonempty (owner : Body) (member : String) (ns : List Node) :
    ComesFrom owner (Value.ofNodes ns).stops
      (nonempty owner member ns (Node.itemSegments 0 ns)) := by
  rw [nonempty, Value.ofNodes, Value.stops, List.isEmpty_map]
  split
  · exact .deadEnd _
  · exact (Node.comesFrom_itemSegments owner 0 ns).cons _

/-- The segments of a node come from its stops. -/
theorem Node.comesFrom_segments (n : Node) : ComesFrom n.body n.stops n.segments := by
  obtain ⟨index, body⟩ := n
  -- One case for each way to follow a member: one node, a list of nodes, a text, any value.
  cases body
  case namespaceValue value keys =>
    -- The keys come behind the segments of the value.
    refine (ComesFrom.node value).map (f := fun segments => _ :: segments ++ _) fun segments => ?_
    exact ⟨[_], _, rfl⟩
  case mixinCall target _ | extend target _ | detachedRuleset target =>
    exact (ComesFrom.node target).cons _
  case selector | ruleset | mixinDefinition | media => exact Node.comesFrom_nonempty _ _ _
  case declaration name _ _ =>
    cases name with
    | text name => exact .text _
    | parts parts => exact Node.comesFrom_nonempty _ _ parts
  case atRule name value rules =>
    cases rules with
    | cons rule rules => exact Node.comesFrom_nonempty _ _ (rule :: rules)
    | nil =>
      cases name with
      | some name => exact .text _
      | none => exact Value.comesFrom_segments _ _ value
  case variableCall | variableUse | call | property | unit => exact .text _
  all_goals exact Value.comesFrom_segments _ _ _

/-- A node has segments exactly when all its stops have. -/
theorem Node.exists_segments_iff {n : Node} :
    (∃ segments, n.segments = .ok segments) ↔
      ∀ stop ∈ n.stops, ∃ part, stop.segments n.body = .ok part := by
  have hfrom := n.comesFrom_segments
  rw [← exists_mapM_eq_ok_iff]
  cases hsegments : n.segments with
  | ok segments =>
    obtain ⟨parts, hparts, -⟩ := hfrom.ok segments hsegments
    exact iff_of_true ⟨segments, rfl⟩ ⟨parts, hparts⟩
  | error e =>
    have hparts := hfrom.error e hsegments
    refine iff_of_false (by simp) ?_
    simp [hparts]

/-! ## Lines -/

theorem Node.line_eq_ok_iff {n : Node} {line : String} :
    n.line = .ok line ↔
      ∃ segments, n.segments = .ok segments ∧ " ".intercalate segments = line := by
  rw [Node.line]
  cases n.segments with
  | ok segments => simp
  | error e => simp

theorem Node.line_eq_error_iff {n : Node} {e : TreeError} :
    n.line = .error e ↔ ∃ d, n.segments = .error d ∧ d.error = e := by
  rw [Node.line]
  cases n.segments with
  | ok segments => simp
  | error d => simp

theorem Node.exists_line_iff_exists_segments {n : Node} :
    (∃ line, n.line = .ok line) ↔ ∃ segments, n.segments = .ok segments := by
  simp only [Node.line_eq_ok_iff]
  constructor
  · rintro ⟨_, segments, hsegments, -⟩
    exact ⟨segments, hsegments⟩
  · rintro ⟨segments, hsegments⟩
    exact ⟨_, segments, hsegments, rfl⟩

/-- A node has a line exactly when all nodes that it follows have one and none of its stops is a
dead end. -/
theorem Node.exists_line_iff {n : Node} :
    (∃ line, n.line = .ok line) ↔
      (∀ m ∈ n.tracedNodes, ∃ line, m.line = .ok line) ∧ Stop.deadEnd ∉ n.stops := by
  simp only [Node.exists_line_iff_exists_segments, Node.mem_tracedNodes_iff]
  rw [Node.exists_segments_iff]
  constructor
  · intro hall
    constructor
    · intro m hm
      obtain ⟨part, hpart⟩ := hall _ hm
      exact ⟨part, mapError_eq_ok_iff.1 hpart⟩
    · intro hdead
      obtain ⟨part, hpart⟩ := hall _ hdead
      cases hpart
  · rintro ⟨hnodes, hdead⟩ stop hstop
    cases stop with
    | node m =>
      obtain ⟨segments, hsegments⟩ := hnodes m hstop
      exact ⟨segments, mapError_eq_ok_iff.2 hsegments⟩
    | deadEnd => exact absurd hstop hdead

/-- The lines of the nodes that a node follows stand in its own line, in order. -/
theorem Node.inOrder_lines {n : Node} {line : String} (h : n.line = .ok line) :
    ∃ lines, n.tracedNodes.mapM Node.line = .ok lines ∧
      InOrder (lines.map String.toList) line.toList := by
  have hdead : Stop.deadEnd ∉ n.stops := (Node.exists_line_iff.1 ⟨line, h⟩).2
  obtain ⟨segments, hsegments, rfl⟩ := Node.line_eq_ok_iff.1 h
  obtain ⟨parts, hparts, horder⟩ := n.comesFrom_segments.ok segments hsegments
  have hstops : n.stops = n.tracedNodes.map .node := by
    rw [← n.filterMap_stops, map_node_filterMap hdead]
  -- All stops are nodes, so that each part is the segments of a node, and joined it is its line.
  rw [hstops, mapM_eq_ok_iff, List.forall₂_map_left_iff] at hparts
  refine ⟨parts.map " ".intercalate, ?_, ?_⟩
  · rw [mapM_eq_ok_iff, List.forall₂_map_right_iff]
    refine hparts.imp fun m part hpart => ?_
    exact Node.line_eq_ok_iff.2 ⟨part, mapError_eq_ok_iff.1 hpart, rfl⟩
  · rw [List.map_map]
    exact horder.intercalate

/-! ## The first dead end -/

/-- The dead end at a place, with the node that it belongs to. A place gives the number of the stop
in each node on the way. -/
inductive Node.DeadEndAt : Node → List Nat → Node → Prop where
  /-- A dead end of the node itself. -/
  | own {n : Node} {i : Nat} (hi : n.stops[i]? = some .deadEnd) : n.DeadEndAt [i] n
  /-- A dead end beyond a node that it follows. -/
  | beyond {n m owner : Node} {i : Nat} {place : List Nat} (hi : n.stops[i]? = some (.node m))
      (hm : m.DeadEndAt place owner) : n.DeadEndAt (i :: place) owner

/-- The first dead end, in the order in which the line follows its stops, belongs to the other
node. -/
def Node.FirstDeadEnd (n owner : Node) : Prop :=
  ∃ place, n.DeadEndAt place owner ∧
    ∀ earlier other, earlier < place → ¬ n.DeadEndAt earlier other

mutual

theorem Value.sizeOf_lt_of_mem_nodes {m : Node} : (v : Value) → m ∈ v.nodes → sizeOf m < sizeOf v
  | .node n, h => by
    cases List.mem_singleton.1 h
    rw [Value.node.sizeOf_spec]
    omega
  | .list items, h => by
    have hlt := Value.sizeOf_lt_of_mem_nodesOf items h
    rw [Value.list.sizeOf_spec]
    omega
  | .text _, h | .number _, h | .flag _, h | .null, h => absurd h List.not_mem_nil

theorem Value.sizeOf_lt_of_mem_nodesOf {m : Node} :
    (vs : List Value) → m ∈ Value.nodesOf vs → sizeOf m < sizeOf vs
  | [], h => absurd h List.not_mem_nil
  | v :: vs, h => by
    rw [List.cons.sizeOf_spec]
    rcases List.mem_append.1 h with h | h
    · have hlt := Value.sizeOf_lt_of_mem_nodes v h
      omega
    · have hlt := Value.sizeOf_lt_of_mem_nodesOf vs h
      omega

end

theorem Value.sizeOf_lt_of_mem_ofNodes {m : Node} {ns : List Node}
    (h : m ∈ (Value.ofNodes ns).nodes) : sizeOf m < sizeOf ns := by
  rw [Value.nodes_ofNodes] at h
  exact List.sizeOf_lt_of_mem h

/-- A node is larger than the nodes that it follows. -/
theorem Node.sizeOf_lt_of_mem_tracedNodes {n m : Node} (h : m ∈ n.tracedNodes) :
    sizeOf m < sizeOf n := by
  obtain ⟨index, body⟩ := n
  cases body
  case variableCall | variableUse | call | property => exact absurd h List.not_mem_nil
  case unit =>
    rw [Node.tracedNodes_of_kind_eq_unit rfl] at h
    exact absurd h List.not_mem_nil
  case selector | ruleset | mixinDefinition | media =>
    have hlt := Value.sizeOf_lt_of_mem_ofNodes h
    simp
    omega
  case declaration name value isVariable =>
    cases name with
    | text name => exact absurd h List.not_mem_nil
    | parts parts =>
      have hlt := Value.sizeOf_lt_of_mem_ofNodes h
      simp
      omega
  case atRule name value rules =>
    cases rules with
    | cons rule rules =>
      have hlt := Value.sizeOf_lt_of_mem_ofNodes h
      simp at hlt ⊢
      omega
    | nil =>
      cases name with
      | some name => exact absurd h List.not_mem_nil
      | none =>
        have hlt := value.sizeOf_lt_of_mem_nodes h
        simp
        omega
  all_goals
    have hlt := Value.sizeOf_lt_of_mem_nodes _ h
    simp [Body.traced] at hlt ⊢
    omega

/-- What holds of a node as soon as it holds of the nodes that it follows holds of every node. -/
@[elab_as_elim]
theorem Node.traced_induction {motive : Node → Prop}
    (node : ∀ n : Node, (∀ m ∈ n.tracedNodes, motive m) → motive n) (n : Node) : motive n := by
  induction hsize : sizeOf n using Nat.strongRecOn generalizing n with
  | ind size ih =>
    refine node n fun m hm => ih (sizeOf m) ?_ m rfl
    rw [← hsize]
    exact Node.sizeOf_lt_of_mem_tracedNodes hm

/-- A node with a dead end has no segments. -/
theorem Node.DeadEndAt.not_ok {n owner : Node} {place : List Nat} (h : n.DeadEndAt place owner) :
    ¬ ∃ segments, n.segments = .ok segments := by
  rw [Node.exists_segments_iff]
  intro hall
  induction h with
  | own hi =>
    obtain ⟨part, hpart⟩ := hall _ (List.mem_of_getElem? hi)
    cases hpart
  | beyond hi _ ih =>
    obtain ⟨part, hpart⟩ := hall _ (List.mem_of_getElem? hi)
    exact ih (Node.exists_segments_iff.1 ⟨part, mapError_eq_ok_iff.1 hpart⟩)

theorem Node.not_deadEndAt_nil {n owner : Node} : ¬ n.DeadEndAt [] owner := by
  intro h
  cases h

/-- A dead end is one of the node itself, or it is beyond a node that it follows. -/
theorem Node.deadEndAt_cons_iff {n owner : Node} {i : Nat} {place : List Nat} :
    n.DeadEndAt (i :: place) owner ↔
      n.stops[i]? = some .deadEnd ∧ place = [] ∧ owner = n ∨
        ∃ m, n.stops[i]? = some (.node m) ∧ m.DeadEndAt place owner := by
  constructor
  · intro h
    cases h with
    | own hi => exact .inl ⟨hi, rfl, rfl⟩
    | beyond hi hm => exact .inr ⟨_, hi, hm⟩
  · rintro (⟨hi, rfl, rfl⟩ | ⟨m, hi, hm⟩)
    · exact .own hi
    · exact .beyond hi hm

/-- A dead end at or beyond a stop is a reason why the stop has no segments. -/
theorem Node.DeadEndAt.exists_error {n owner : Node} {i : Nat} {place : List Nat} {stop : Stop}
    (h : n.DeadEndAt (i :: place) owner) (hi : n.stops[i]? = some stop) :
    ∃ e, stop.segments n.body = .error e := by
  rcases Node.deadEndAt_cons_iff.1 h with ⟨hdead, -, -⟩ | ⟨m, hm, hbeyond⟩
  · cases hi.symm.trans hdead
    exact ⟨n.body, rfl⟩
  · cases hi.symm.trans hm
    obtain ⟨e, he⟩ := exists_eq_error_iff.2 hbeyond.not_ok
    exact ⟨e.owner, by rw [Stop.segments, he]; rfl⟩

/-- Where all stops before another have segments, the dead ends before a place beyond that stop are
beyond it too. -/
theorem Node.DeadEndAt.exists_eq_cons {n owner : Node} {before after : List Stop} {stop : Stop}
    {earlier place : List Nat} (h : n.DeadEndAt earlier owner)
    (hstops : n.stops = before ++ stop :: after)
    (hbefore : ∀ s ∈ before, ∀ e, ¬ s.segments n.body = .error e)
    (hlt : earlier < before.length :: place) :
    ∃ rest, earlier = before.length :: rest ∧ rest < place := by
  cases earlier with
  | nil => exact absurd h Node.not_deadEndAt_nil
  | cons i rest =>
    rcases List.cons_lt_cons_iff.1 hlt with hi | ⟨rfl, hrest⟩
    · -- The dead end would be at or beyond one of the stops that have segments.
      have hstop : n.stops[i]? = some before[i] := by
        rw [hstops, List.getElem?_append_left hi, List.getElem?_eq_getElem hi]
      obtain ⟨e, he⟩ := h.exists_error hstop
      exact absurd he (hbefore _ (List.getElem_mem hi) e)
    · exact ⟨rest, rfl, hrest⟩

/-- A node without segments has a first dead end, and that is the reason. -/
theorem Node.exists_firstDeadEnd {n : Node} {e : DeadEnd} (h : n.segments = .error e) :
    ∃ owner, n.FirstDeadEnd owner ∧ owner.body = e.owner := by
  induction n using Node.traced_induction generalizing e with
  | node n ih =>
    -- The first stop without segments is the dead end, or it is the node beyond which it lies.
    have hfails : n.stops.mapM (Stop.segments n.body) = .error e.owner :=
      n.comesFrom_segments.error e h
    obtain ⟨before, stop, after, hstops, hbefore, hstop⟩ :=
      (mapM_eq_error_iff fun _ _ => Iff.rfl).1 hfails
    have hat : n.stops[before.length]? = some stop := by simp [hstops]
    cases stop with
    | deadEnd =>
      refine ⟨n, ⟨[before.length], .own hat, fun earlier other hlt hdead => ?_⟩,
        Except.error.inj hstop⟩
      obtain ⟨rest, -, hrest⟩ := hdead.exists_eq_cons hstops hbefore hlt
      exact List.not_lt_nil rest hrest
    | node m =>
      have hm : m ∈ n.tracedNodes := Node.mem_tracedNodes_iff.2 (List.mem_of_getElem? hat)
      cases hsegments : m.segments with
      | ok segments => simp [Stop.segments, hsegments, Except.mapError] at hstop
      | error d =>
        have howner : d.owner = e.owner := by
          simpa [Stop.segments, hsegments, Except.mapError] using hstop
        obtain ⟨owner, ⟨place, hdead, hleast⟩, hbody⟩ := ih m hm hsegments
        refine ⟨owner, ⟨before.length :: place, .beyond hat hdead, ?_⟩, hbody.trans howner⟩
        intro earlier other hlt hother
        obtain ⟨rest, rfl, hrest⟩ := hother.exists_eq_cons hstops hbefore hlt
        -- The other dead end is beyond the same node, whose first one is known.
        rcases Node.deadEndAt_cons_iff.1 hother with ⟨hown, -⟩ | ⟨m', hm', hbeyond⟩
        · cases hat.symm.trans hown
        · cases hat.symm.trans hm'
          exact hleast rest other hrest hbeyond

/-- There is at most one dead end at a place. -/
theorem Node.DeadEndAt.owner_unique {n owner other : Node} {place : List Nat}
    (h : n.DeadEndAt place owner) (hother : n.DeadEndAt place other) : other = owner := by
  induction h with
  | own hi =>
    rcases Node.deadEndAt_cons_iff.1 hother with ⟨-, -, hsame⟩ | ⟨m, hm, -⟩
    · exact hsame
    · cases hi.symm.trans hm
  | beyond hi _ ih =>
    rcases Node.deadEndAt_cons_iff.1 hother with ⟨hown, -⟩ | ⟨m, hm, hbeyond⟩
    · cases hi.symm.trans hown
    · cases hi.symm.trans hm
      exact ih hbeyond

/-- The first dead end belongs to one node. -/
theorem Node.FirstDeadEnd.unique {n owner other : Node} (h : n.FirstDeadEnd owner)
    (hother : n.FirstDeadEnd other) : other = owner := by
  obtain ⟨place, hdead, hleast⟩ := h
  obtain ⟨place', hdead', hleast'⟩ := hother
  have hsame : place = place' :=
    List.le_antisymm (fun hlt => hleast place' other hlt hdead')
      fun hlt => hleast' place owner hlt hdead
  subst hsame
  exact hdead.owner_unique hdead'

/-- A node has a line exactly when all nodes that it follows have one and the member that it follows
holds no dead end; only a unit has a line in any case. The lines of the nodes that it follows stand
in the line in order, without overlap. Without a line, the error is about the node to which the
first dead end belongs. -/
theorem Node.line_composes (n : Node) :
    ((∃ line, n.line = .ok line) ↔
        (∀ m ∈ n.tracedNodes, ∃ line, m.line = .ok line) ∧
          (n.kind ≠ .unit → ¬ n.body.traced.HoldsDeadEnd)) ∧
      (∀ line, n.line = .ok line → ∃ lines, n.tracedNodes.mapM Node.line = .ok lines ∧
        InOrder (lines.map String.toList) line.toList) ∧
      ∀ e, n.line = .error e → ∃ owner, (∀ other, n.FirstDeadEnd other ↔ other = owner) ∧
        ∃ reason, e = .malformed owner.kind reason owner.body.debugText := by
  refine ⟨?_, fun line hline => Node.inOrder_lines hline, fun e he => ?_⟩
  · rw [Node.exists_line_iff, Node.deadEnd_mem_stops_iff, not_and]
  · obtain ⟨⟨body, member⟩, hsegments, rfl⟩ := Node.line_eq_error_iff.1 he
    obtain ⟨owner, hfirst, rfl⟩ := Node.exists_firstDeadEnd hsegments
    refine ⟨owner, fun other => ⟨hfirst.unique, ?_⟩, _, rfl⟩
    rintro rfl
    exact hfirst

/-- A value of two items: a list with a mixin call and a text, and a look-up. -/
def branchedValue : Node :=
  .of (.valueList (.list [.list [.node (Build.mixinCall [".m"]), .text "a"],
    .node (Build.namespaceValue "@map" ["key"])]))

/-- The same with an empty block, and then an empty list, in place of the look-up. -/
def blockedValue : Node :=
  .of (.valueList (.list [.list [.node (Build.mixinCall [".m"]), .text "a"],
    .node (Build.detachedRuleset []), .list []]))

/-- The line of a value holds that of the mixin call and that of the look-up. Of an empty block and
an empty list the block is the first dead end. -/
theorem Node.line_composes_branchedValue :
    (∃ line, branchedValue.line = .ok line ∧
      InOrder [
        "MixinCall.selector: -> Selector.elements: -> Array[0] -> Element.value: .m".toList,
        "NamespaceValue.value: -> VariableCall.variable: @map NamespaceValue.lookups.0: key".toList]
        line.toList) ∧
      ∃ owner, blockedValue.FirstDeadEnd owner ∧ owner.kind = .ruleset := by
  obtain ⟨-, horder, -⟩ := branchedValue.line_composes
  obtain ⟨-, -, herror⟩ := blockedValue.line_composes
  have hlines : branchedValue.tracedNodes.mapM Node.line = .ok
      ["MixinCall.selector: -> Selector.elements: -> Array[0] -> Element.value: .m",
        "NamespaceValue.value: -> VariableCall.variable: @map NamespaceValue.lookups.0: key"] :=
    toOption_eq_some_iff.1 (by decide +kernel)
  have hopen : ∃ line, branchedValue.line = .ok line := ⟨_, rfl⟩
  have hblocked :
      blockedValue.line = .error (DeadEnd.error ⟨.ruleset none [] false, "rules"⟩) := rfl
  constructor
  · obtain ⟨line, hline⟩ := hopen
    obtain ⟨lines, hlines', hinOrder⟩ := horder line hline
    cases hlines.symm.trans hlines'
    exact ⟨line, hline, hinOrder⟩
  · obtain ⟨owner, hfirst, reason, hreason⟩ := herror _ hblocked
    have hkind : Kind.ruleset = owner.kind := (TreeError.malformed.inj hreason).1
    exact ⟨owner, (hfirst owner).2 rfl, hkind.symm⟩

/-- A unit without a name, as a plain number has it. -/
def bareUnit : Node :=
  .of (.unit [] [] none)

/-- The texts of a unit may be none at all: what a unit follows is an empty list, and still it has a
line. -/
theorem Node.line_of_bareUnit :
    bareUnit.body.traced.HoldsDeadEnd ∧ bareUnit.line = .ok "Unit.numerator: " ∧
      ¬ ((∃ line, bareUnit.line = .ok line) ↔
        (∀ m ∈ bareUnit.tracedNodes, ∃ line, m.line = .ok line) ∧
          ¬ bareUnit.body.traced.HoldsDeadEnd) := by
  have hdead : bareUnit.body.traced.HoldsDeadEnd := .empty
  have hline : bareUnit.line = .ok "Unit.numerator: " := toOption_eq_some_iff.1 (by decide +kernel)
  refine ⟨hdead, hline, fun hiff => ?_⟩
  exact (hiff.1 ⟨_, hline⟩).2 hdead

end ImportSweep.Tree

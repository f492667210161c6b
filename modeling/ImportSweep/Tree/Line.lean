import ImportSweep.Tree.Debug
import ImportSweep.Tree.Error

/-!
# The line of a node

A node is shown on one line by following, from member to member, the way down to its texts and
numbers: `MixinCall.selector: -> Selector.elements: -> Array[0] -> Element.value: .mixin`. A node
has no line when the way ends at a truth value, at nothing or at an empty list; `DeadEnd` says
where.
-/

namespace ImportSweep.Tree

/-- The layout of numbers in lines: all digits, and a fraction only where there is one. -/
def lineLayout : Decimal.Layout :=
  ⟨none, false, false, .up⟩

/-- The way down from a node ends without a text or number. -/
structure DeadEnd where
  /-- The body whose member is the last one on the way. -/
  owner : Body
  /-- That member. -/
  member : String

/-- The error of a node without a line. -/
def DeadEnd.error (e : DeadEnd) : TreeError :=
  .malformed e.owner.kind ("member \"" ++ e.member ++ "\" has no text or node to follow")
    e.owner.debugText

namespace Line

/-- The beginning of a segment: kind and member. -/
def label (owner : Body) (member : String) : String :=
  owner.kind.name ++ "." ++ member ++ ":"

/-- A segment that ends at a text. -/
def leaf (owner : Body) (member text : String) : String :=
  label owner member ++ " " ++ text

/-- A segment that goes on. -/
def arrow (owner : Body) (member : String) : String :=
  label owner member ++ " ->"

/-- The beginning of a segment for an item of a list. -/
def item (position : Nat) : String :=
  s!"Array[{position}] "

/-- Segments for the keys of a look-up. -/
def lookups (owner : Body) : Nat → List String → List String
  | _, [] => []
  | i, key :: rest => leaf owner s!"lookups.{i}" key :: lookups owner (i + 1) rest

/-- The segments of a list of nodes, which must not be empty. -/
def nonempty (owner : Body) (member : String) (nodes : List Node)
    (segments : Except DeadEnd (List String)) : Except DeadEnd (List String) :=
  if nodes.isEmpty then .error ⟨owner, member⟩ else (arrow owner member :: ·) <$> segments

/-- The segments of the items of a loosely typed list, which must not be empty. -/
def nonemptyItems (owner : Body) (items : List Value) (segments : Except DeadEnd (List String)) :
    Except DeadEnd (List String) :=
  if items.isEmpty then .error ⟨owner, "[]"⟩ else segments

end Line

open Line in
mutual

/-- The segments of a body's line. -/
def Body.segments : Body → Except DeadEnd (List String)
  | b@(.namespaceValue value keys) => do
    return arrow b "value" :: (← value.segments) ++ lookups b 0 keys
  | b@(.selector elements _ _) => nonempty b "elements" elements (Node.itemSegments 0 elements)
  | b@(.mixinCall target _) => do return arrow b "selector" :: (← target.segments)
  | b@(.extend target _) => do return arrow b "selector" :: (← target.segments)
  | b@(.importRule path _ _ _ _) => path.segments b "path"
  | b@(.ruleset _ rules _) => nonempty b "rules" rules (Node.itemSegments 0 rules)
  | b@(.mixinDefinition _ _ _ _ rules _) => nonempty b "rules" rules (Node.itemSegments 0 rules)
  | b@(.media _ rules) => nonempty b "rules" rules (Node.itemSegments 0 rules)
  | b@(.atRule name value rules) =>
    if rules.isEmpty then
      match name with
      | some name => .ok [leaf b "name" name]
      | none => value.segments b "value"
    else nonempty b "rules" rules (Node.itemSegments 0 rules)
  | b@(.variableCall name) => .ok [leaf b "variable" name]
  | b@(.declaration (.text name) _ _) => .ok [leaf b "name" name]
  | b@(.declaration (.parts parts) _ _) => nonempty b "name" parts (Node.itemSegments 0 parts)
  | b@(.variableUse name) => .ok [leaf b "name" name]
  | b@(.call name _) => .ok [leaf b "name" name]
  | b@(.property name) => .ok [leaf b "name" name]
  | b@(.detachedRuleset block) => do return arrow b "ruleset" :: (← block.segments)
  | b@(.unit numerator _ _) => .ok [leaf b "numerator" ("*".intercalate numerator)]
  | b@(.condition _ lvalue _ _) => lvalue.segments b "lvalue"
  | b@(.operation _ operands) =>
    (arrow b "operands" :: ·) <$> nonemptyItems b operands (Value.itemSegments b 0 operands)
  | b@(.attributeSelector key _ _) => key.segments b "key"
  | b@(.javaScript script) => script.segments b "expression"
  | b@(.anonymous value) => value.segments b "value"
  | b@(.assignment _ value) => value.segments b "value"
  | b@(.color value) => value.segments b "value"
  | b@(.combinator value) => value.segments b "value"
  | b@(.comment value _) => value.segments b "value"
  | b@(.dimension value _) => value.segments b "value"
  | b@(.element _ value _) => value.segments b "value"
  | b@(.expression value) => value.segments b "value"
  | b@(.keyword value) => value.segments b "value"
  | b@(.negative value) => value.segments b "value"
  | b@(.paren value) => value.segments b "value"
  | b@(.quoted value _ _) => value.segments b "value"
  | b@(.unicodeDescriptor value) => value.segments b "value"
  | b@(.url value) => value.segments b "value"
  | b@(.valueList value) => value.segments b "value"
termination_by structural body => body

/-- The segments of a node's line. -/
def Node.segments : Node → Except DeadEnd (List String)
  | ⟨_, body⟩ => body.segments
termination_by structural node => node

/-- The segments of a member that is loosely typed. -/
def Value.segments (owner : Body) (member : String) : Value → Except DeadEnd (List String)
  | .text s => .ok [leaf owner member s]
  | .number x => .ok [leaf owner member (Decimal.floatText lineLayout x)]
  | .node n => do return arrow owner member :: (← n.segments)
  | .list items =>
    (arrow owner member :: ·) <$> nonemptyItems owner items (Value.itemSegments owner 0 items)
  | .flag _ | .null => .error ⟨owner, member⟩
termination_by structural value => value

/-- The segments of the items of a list, the first of which has the given position. -/
def Value.itemSegments (owner : Body) (position : Nat) : List Value → Except DeadEnd (List String)
  | [] => .ok []
  | v :: vs => do
    return (← v.itemSegment owner position) ++ (← Value.itemSegments owner (position + 1) vs)
termination_by structural items => items

/-- The segments of one item of a list. -/
def Value.itemSegment (owner : Body) (position : Nat) : Value → Except DeadEnd (List String)
  | .text s => .ok [item position ++ s]
  | .number x => .ok [item position ++ Decimal.floatText lineLayout x]
  | .node n => do return (item position ++ "->") :: (← n.segments)
  | .list items =>
    ((item position ++ "->") :: ·) <$>
      nonemptyItems owner items (Value.itemSegments owner 0 items)
  | .flag _ | .null => .error ⟨owner, "[]"⟩
termination_by structural value => value

/-- The segments of the items of a list of nodes, the first of which has the given position. -/
def Node.itemSegments (position : Nat) : List Node → Except DeadEnd (List String)
  | [] => .ok []
  | n :: ns => do
    return (item position ++ "->") :: (← n.segments) ++ (← Node.itemSegments (position + 1) ns)
termination_by structural nodes => nodes

end

/-- The line of a node. -/
def Node.line (n : Node) : Except TreeError String :=
  match n.segments with
  | .ok segments => .ok (" ".intercalate segments)
  | .error deadEnd => .error deadEnd.error

/-- The error of a node that has not the shape of its kind. -/
def Node.malformed (n : Node) (reason : String) : TreeError :=
  .malformed n.kind reason (n.line.toOption.getD n.body.debugText)

end ImportSweep.Tree

import ImportSweep.Names.Interpolation
import ImportSweep.Names.NameSet
import ImportSweep.Tree.Line
import ImportSweep.Tree.Walk

/-!
# Used names

The names that a stylesheet uses and may need from its imports: variables, calls of variables, the
heads of mixin calls, the targets of extends, and interpolated variables. They count at any depth,
but not inside imports.
-/

namespace ImportSweep.Names

open ImportSweep.Tree

/-- The variables that the use of a variable refers to: a second at sign refers to the variable that
holds the name as well. -/
def variableNames (name : String) : List String :=
  match name.toList with
  | '@' :: '@' :: rest => [String.ofList ('@' :: rest), name]
  | _ => [name]

/-- The head of the selector of a mixin call. -/
def mixinHead (call selector : Node) : Except TreeError String :=
  match selector.body with
  | .selector [] _ _ => .error (call.malformed "mixin call has no selector elements")
  | .selector (first :: _) _ _ =>
    match first.body with
    | .element _ (.text text) _ =>
      if text = "" then .error (call.malformed "mixin call name is not text") else .ok text
    | .element _ _ _ => .error (call.malformed "mixin call name is not text")
    | _ => .error (call.malformed "mixin call selector element is not an Element")
  | _ => .error (call.malformed "mixin call selector is not a Selector")

/-- The text of one target of an extend, if it is plain. -/
def extendTarget (rule element : Node) : Except TreeError (List String) :=
  match element.body with
  | .element _ value _ => .ok value.text?.toList
  | _ => .error (rule.malformed "extend target element is not an Element")

/-- The targets of an extend. -/
def extendTargets (rule selector : Node) : Except TreeError (List String) :=
  match selector.body with
  | .selector elements _ _ => do return (← elements.mapM (extendTarget rule)).flatten
  | _ => .error (rule.malformed "extend target is not a Selector")

/-- The variables interpolated into a value that is a plain text. -/
def spliced : Value → List String
  | .text text => interpolations text
  | _ => []

/-- The names that a node by itself uses. -/
def usedBy (n : Node) : Except TreeError (List String) :=
  match n.body with
  | .variableCall name =>
    if name = "" then .error (n.malformed "variable call has no variable") else .ok [name]
  | .variableUse name =>
    if name = "" then .error (n.malformed "variable has no name") else .ok (variableNames name)
  | .mixinCall selector _ => do return [← mixinHead n selector]
  | .extend selector _ => extendTargets n selector
  | .element _ value _ => .ok (spliced value)
  | .quoted value _ _ => .ok (spliced value)
  | .url value => .ok (spliced value)
  | _ => .ok []

/-- The names that a scope uses, imports apart. -/
def usedNames (scope : Node) : Except TreeError NameSet := do
  let names ← (scope.preorder false).mapM usedBy
  return NameSet.ofList names.flatten

end ImportSweep.Names

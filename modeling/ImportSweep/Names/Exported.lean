import ImportSweep.Names.NameSet
import ImportSweep.Tree.Line

/-!
# Exported names

The names that a stylesheet makes available to the files that import it: variables, mixins, and
blocks with a selector that is a single class or id. Only the top level counts, since what stands
inside a block is reached through the block.
-/

namespace ImportSweep.Names

open ImportSweep.Tree

/-- The text begins like a class or an id. -/
def isClassOrId (text : String) : Bool :=
  match text.toList with
  | '.' :: _ => true
  | '#' :: _ => true
  | _ => false

/-- The name of a selector that is a single class or id. -/
def simpleName (target : Node) : Except TreeError (Option String) :=
  match target.body with
  | .selector [element] _ _ =>
    match element.body with
    | .element _ (.text text) _ => .ok (if isClassOrId text then some text else none)
    | .element _ _ _ => .ok none
    | _ => .error (element.malformed "selector element is not an Element")
  | .selector _ _ _ => .ok none
  | _ => .error (target.malformed "ruleset selector is not a Selector")

/-- The names that a node by itself defines. -/
def definedBy (n : Node) : Except TreeError (List String) :=
  match n.body with
  | .declaration name _ true =>
    match name with
    | .text text =>
      if text = "" then .error (n.malformed "variable declaration has no text name")
      else .ok [text]
    | .parts _ => .error (n.malformed "variable declaration has no text name")
  | .mixinDefinition name _ _ _ _ _ =>
    if name = "" then .error (n.malformed "mixin definition has no name") else .ok [name]
  | .ruleset (some selectors) _ false => do
    return (← selectors.mapM simpleName).filterMap id
  | _ => .ok []

/-- The names that a scope exports: those that it defines itself and those that its children
define. -/
def exportedNames (scope : Node) : Except TreeError NameSet := do
  let names ← (scope :: scope.children).mapM definedBy
  return NameSet.ofList names.flatten

end ImportSweep.Names

import ImportSweep.Decimal.Layout
import ImportSweep.Text.Quoted
import ImportSweep.Tree.Node

/-!
# The full text of a node

`Node.debugText` writes a node with all its members and everything below it on one line. Records are
written `Name { member: value, ... }`, alternatives `Name(value)`, lists in brackets.
-/

namespace ImportSweep.Tree

/-- The layout of numbers in full texts: a fraction is always written, and an exponent below
`0.0001` and from `10 ^ 16` on. Of two equally near decimals the larger one is written. -/
def debugLayout : Decimal.Layout :=
  ⟨some (-3, 16), true, false, .up⟩

namespace Debug

/-- An alternative and what it holds. -/
def variant (name content : String) : String :=
  name ++ "(" ++ content ++ ")"

/-- A record: its name, and the names and texts of its members. -/
def record (name : String) (members : List (String × String)) : String :=
  name ++ " \x7b " ++ ", ".intercalate (members.map fun m => m.1 ++ ": " ++ m.2) ++ " \x7d"

/-- A list of things. -/
def list (items : List String) : String :=
  "[" ++ ", ".intercalate items ++ "]"

/-- A thing that may be absent. -/
def optional : Option String → String
  | none => "None"
  | some content => variant "Some" content

/-- A truth value. -/
def flag : Bool → String
  | true => "true"
  | false => "false"

/-- A text. -/
def text (s : String) : String :=
  Text.quoted s

/-- A text that may be absent. -/
def text? (s : Option String) : String :=
  optional (s.map text)

/-- A list of texts. -/
def texts (items : List String) : String :=
  list (items.map text)

/-- The options of an import. -/
def importOptions (o : ImportOptions) : String :=
  record "ImportOptions" [("reference", flag o.reference), ("inline", flag o.inline),
    ("css", flag o.css), ("less", flag o.less), ("optional", flag o.optional),
    ("multiple", flag o.multiple)]

end Debug

open Debug in
mutual

/-- The full text of a value. -/
def Value.debugText : Value → String
  | .node n => variant "Node" n.debugText
  | .list items => variant "List" (list (Value.debugTexts items))
  | .text s => variant "Text" (text s)
  | .number x => variant "Number" (Decimal.floatText debugLayout x)
  | .flag b => variant "Flag" (flag b)
  | .null => "Null"

/-- The full texts of a list of values. -/
def Value.debugTexts : List Value → List String
  | [] => []
  | v :: vs => v.debugText :: Value.debugTexts vs

/-- The full text of a node. -/
def Node.debugText : Node → String
  | ⟨index, body⟩ =>
    record "Node" [("index", optional (index.map toString)), ("data", body.debugText)]

/-- The full texts of a list of nodes. -/
def Node.debugTexts : List Node → List String
  | [] => []
  | n :: ns => n.debugText :: Node.debugTexts ns

/-- The full text of a node that may be absent. -/
def Node.debugText? : Option Node → String
  | none => optional none
  | some n => optional (some n.debugText)

/-- The full text of a list of nodes that may be absent. -/
def Node.debugTexts? : Option (List Node) → String
  | none => optional none
  | some ns => optional (some (list (Node.debugTexts ns)))

/-- The full text of a declared name. -/
def DeclaredName.debugText : DeclaredName → String
  | .text s => variant "Text" (Debug.text s)
  | .parts ps => variant "Parts" (list (Node.debugTexts ps))

/-- The full texts of arguments. -/
def Argument.debugTexts : List Argument → List String
  | [] => []
  | ⟨name, value⟩ :: rest =>
    record "MixinArgument" [("name", text? name), ("value", value.debugText)] ::
      Argument.debugTexts rest

/-- The full texts of parameters. -/
def Parameter.debugTexts : List Parameter → List String
  | [] => []
  | ⟨name, value, variadic⟩ :: rest =>
    record "MixinParameter"
        [("name", text? name), ("value", value.debugText), ("variadic", flag variadic)] ::
      Parameter.debugTexts rest

/-- The full text of a body. -/
def Body.debugText : Body → String
  | .anonymous value =>
    variant "Anonymous" (record "Anonymous" [("value", value.debugText)])
  | .assignment key value =>
    variant "Assignment"
      (record "Assignment" [("key", key.debugText), ("value", value.debugText)])
  | .atRule name value rules =>
    variant "AtRule" (record "AtRule" [("name", text? name), ("value", value.debugText),
      ("rules", list (Node.debugTexts rules))])
  | .attributeSelector key op value =>
    variant "Attribute" (record "Attribute" [("key", key.debugText), ("op", text? op),
      ("value", value.debugText)])
  | .call name args =>
    variant "Call"
      (record "Call" [("name", text name), ("args", list (Value.debugTexts args))])
  | .color value => variant "Color" (record "Color" [("value", value.debugText)])
  | .combinator value => variant "Combinator" (record "Combinator" [("value", value.debugText)])
  | .comment value isLineComment =>
    variant "Comment" (record "Comment" [("value", value.debugText),
      ("is_line_comment", flag isLineComment)])
  | .condition op lvalue rvalue negate =>
    variant "Condition" (record "Condition" [("op", text? op), ("lvalue", lvalue.debugText),
      ("rvalue", rvalue.debugText), ("negate", flag negate)])
  | .declaration name value isVariable =>
    variant "Declaration" (record "Declaration" [("name", name.debugText),
      ("value", value.debugText), ("variable", flag isVariable)])
  | .detachedRuleset block =>
    variant "DetachedRuleset" (record "DetachedRuleset" [("ruleset", block.debugText)])
  | .dimension value measure =>
    variant "Dimension" (record "Dimension" [("value", value.debugText),
      ("unit", Node.debugText? measure)])
  | .element join value isVariable =>
    variant "Element" (record "Element" [("combinator", Node.debugText? join),
      ("value", value.debugText), ("is_variable", flag isVariable)])
  | .expression value => variant "Expression" (record "Expression" [("value", value.debugText)])
  | .extend target option =>
    variant "Extend" (record "Extend" [("selector", target.debugText), ("option", text? option)])
  | .importRule path features options root importedFilename =>
    variant "Import" (record "Import" [("path", path.debugText), ("features", features.debugText),
      ("options", importOptions options), ("root", Node.debugText? root),
      ("imported_filename", text? importedFilename)])
  | .javaScript script =>
    variant "JavaScript" (record "JavaScript" [("expression", script.debugText)])
  | .keyword value => variant "Keyword" (record "Keyword" [("value", value.debugText)])
  | .media features rules =>
    variant "Media" (record "Media" [("features", features.debugText),
      ("rules", list (Node.debugTexts rules))])
  | .mixinCall target arguments =>
    variant "MixinCall" (record "MixinCall" [("selector", target.debugText),
      ("arguments", list (Argument.debugTexts arguments))])
  | .mixinDefinition name selectors params guard rules variadic =>
    variant "MixinDefinition" (record "MixinDefinition" [("name", text name),
      ("selectors", list (Node.debugTexts selectors)),
      ("params", list (Parameter.debugTexts params)), ("condition", Node.debugText? guard),
      ("rules", list (Node.debugTexts rules)), ("variadic", flag variadic)])
  | .namespaceValue value lookups =>
    variant "NamespaceValue" (record "NamespaceValue" [("value", value.debugText),
      ("lookups", texts lookups)])
  | .negative value => variant "Negative" (record "Negative" [("value", value.debugText)])
  | .operation op operands =>
    variant "Operation" (record "Operation" [("op", text? op),
      ("operands", list (Value.debugTexts operands))])
  | .paren value => variant "Paren" (record "Paren" [("value", value.debugText)])
  | .property name => variant "Property" (record "Property" [("name", text name)])
  | .quoted value quote escaped =>
    variant "Quoted" (record "Quoted" [("value", value.debugText), ("quote", text? quote),
      ("escaped", flag escaped)])
  | .ruleset selectors rules isRoot =>
    variant "Ruleset" (record "Ruleset" [("selectors", Node.debugTexts? selectors),
      ("rules", list (Node.debugTexts rules)), ("root", flag isRoot)])
  | .selector elements extendList guard =>
    variant "Selector" (record "Selector" [("elements", list (Node.debugTexts elements)),
      ("extend_list", list (Node.debugTexts extendList)), ("condition", guard.debugText)])
  | .unicodeDescriptor value =>
    variant "UnicodeDescriptor" (record "UnicodeDescriptor" [("value", value.debugText)])
  | .unit numerator denominator backupUnit =>
    variant "Unit" (record "Unit" [("numerator", texts numerator),
      ("denominator", texts denominator), ("backup_unit", text? backupUnit)])
  | .url value => variant "Url" (record "Url" [("value", value.debugText)])
  | .valueList value => variant "Value" (record "ValueList" [("value", value.debugText)])
  | .variableUse name => variant "Variable" (record "Variable" [("name", text name)])
  | .variableCall name => variant "VariableCall" (record "VariableCall" [("variable", text name)])

end

end ImportSweep.Tree

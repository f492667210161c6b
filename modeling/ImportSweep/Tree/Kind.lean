/-!
# Kinds of nodes

The closed set of kinds that a syntax tree of a LESS stylesheet is made of, with the names by which
trees and reports call them.
-/

namespace ImportSweep.Tree

/-- The kind of a node. -/
inductive Kind where
  /-- Text that was not analysed further. -/
  | anonymous
  /-- A `key=value` pair inside a function call. -/
  | assignment
  /-- An at-rule other than `@import` and `@media`. -/
  | atRule
  /-- An attribute selector. -/
  | attributeSelector
  /-- A function call. -/
  | call
  /-- A colour. -/
  | color
  /-- What joins two elements of a selector. -/
  | combinator
  /-- A comment. -/
  | comment
  /-- A guard. -/
  | condition
  /-- A property or the definition of a variable. -/
  | declaration
  /-- A block bound to a variable. -/
  | detachedRuleset
  /-- A number with a unit. -/
  | dimension
  /-- One compound part of a selector. -/
  | element
  /-- Values side by side. -/
  | expression
  /-- An `:extend(...)`. -/
  | extend
  /-- An `@import`. -/
  | importRule
  /-- An inline script. -/
  | javaScript
  /-- A keyword. -/
  | keyword
  /-- A `@media` block. -/
  | media
  /-- The use of a mixin. -/
  | mixinCall
  /-- The definition of a mixin. -/
  | mixinDefinition
  /-- A look-up in a map or namespace. -/
  | namespaceValue
  /-- A value with a minus sign. -/
  | negative
  /-- An arithmetic operation. -/
  | operation
  /-- A value in parentheses. -/
  | paren
  /-- The use of a property as a value. -/
  | property
  /-- A quoted text. -/
  | quoted
  /-- A block of rules; the file itself is one. -/
  | ruleset
  /-- A selector. -/
  | selector
  /-- A range of code points. -/
  | unicodeDescriptor
  /-- A unit of measure. -/
  | unit
  /-- A `url(...)`. -/
  | url
  /-- Expressions separated by commas. -/
  | valueList
  /-- The use of a variable. -/
  | variableUse
  /-- The call of a detached block or map. -/
  | variableCall
  deriving DecidableEq, Repr

namespace Kind

/-- All kinds, in the order of their names. -/
def all : List Kind :=
  [.anonymous, .assignment, .atRule, .attributeSelector, .call, .color, .combinator, .comment,
   .condition, .declaration, .detachedRuleset, .dimension, .element, .expression, .extend,
   .importRule, .javaScript, .keyword, .media, .mixinCall, .mixinDefinition, .namespaceValue,
   .negative, .operation, .paren, .property, .quoted, .ruleset, .selector, .unicodeDescriptor,
   .unit, .url, .valueList, .variableUse, .variableCall]

/-- The name of a kind. -/
def name : Kind → String
  | anonymous => "Anonymous"
  | assignment => "Assignment"
  | atRule => "AtRule"
  | attributeSelector => "Attribute"
  | call => "Call"
  | color => "Color"
  | combinator => "Combinator"
  | comment => "Comment"
  | condition => "Condition"
  | declaration => "Declaration"
  | detachedRuleset => "DetachedRuleset"
  | dimension => "Dimension"
  | element => "Element"
  | expression => "Expression"
  | extend => "Extend"
  | importRule => "Import"
  | javaScript => "JavaScript"
  | keyword => "Keyword"
  | media => "Media"
  | mixinCall => "MixinCall"
  | mixinDefinition => "MixinDefinition"
  | namespaceValue => "NamespaceValue"
  | negative => "Negative"
  | operation => "Operation"
  | paren => "Paren"
  | property => "Property"
  | quoted => "Quoted"
  | ruleset => "Ruleset"
  | selector => "Selector"
  | unicodeDescriptor => "UnicodeDescriptor"
  | unit => "Unit"
  | url => "Url"
  | valueList => "Value"
  | variableUse => "Variable"
  | variableCall => "VariableCall"

/-- The kind of that name. -/
def ofName? (text : String) : Option Kind :=
  all.find? fun kind => kind.name = text

/-- The place of a kind among all kinds. -/
def position (kind : Kind) : Nat :=
  all.idxOf kind

end Kind

end ImportSweep.Tree

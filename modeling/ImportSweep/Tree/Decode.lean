import ImportSweep.Tree.DecodeError
import ImportSweep.Tree.Node

/-!
# Decoding syntax trees

A JSON value is first annotated (`Reading`): every object in it carries what it is as a node. What a
member holds is then read off the annotated value, so that no object is decoded twice.

The members of an object may stand in any order and unknown ones are passed over. When several are
faulty, the one that stands first in the text is reported; `Placed` keeps errors with their places
for that.
-/

namespace ImportSweep.Tree

open ImportSweep.Json (Draft Key Fault)

/-- A JSON value in which every object carries what it is as a node. -/
inductive Reading where
  /-- The value `null`. -/
  | null
  /-- A truth value. -/
  | flag (value : Bool)
  /-- A number. -/
  | number (value : Json.Number)
  /-- A text. -/
  | text (value : String)
  /-- An array. -/
  | array (items : List Reading)
  /-- An object, with the node that it is. -/
  | object (members : List (String × Reading)) (node : Except DecodeError Node)

/-- A result, or an error with its place among the members of an object. -/
structure Placed (α : Type) where
  /-- The result or the placed error. -/
  run : Except (Nat × DecodeError) α

namespace Placed

/-- Applies a result to a result. Of two errors the one that stands first is kept. -/
def seq {α β : Type} (f : Placed (α → β)) (x : Unit → Placed α) : Placed β :=
  match f.run, (x ()).run with
  | .ok f, .ok a => ⟨.ok (f a)⟩
  | .error e, .ok _ => ⟨.error e⟩
  | .ok _, .error e => ⟨.error e⟩
  | .error e, .error e' => ⟨.error (if e'.1 < e.1 then e' else e)⟩

instance : Applicative Placed where
  pure a := ⟨.ok a⟩
  seq := Placed.seq

/-- The result, or the error without its place. -/
def result {α : Type} (x : Placed α) : Except DecodeError α :=
  x.run.mapError Prod.snd

/-- Puts an error at a place. -/
def put {α : Type} (place : Nat) (x : Except DecodeError α) : Placed α :=
  ⟨x.mapError fun e => (place, e)⟩

end Placed

namespace Reading

/-- What an annotated value is found to be. -/
def found : Reading → Found
  | null => .null
  | flag b => .flag b
  | number n => .number n
  | text s => .text s
  | array _ => .array
  | object _ _ => .object

/-- The value has not the type that is due. -/
def wrongType {α : Type} (r : Reading) (expected : Expected) : Except DecodeError α :=
  .error (.wrongType r.found expected)

/-- Reads a node. -/
def node : Reading → Except DecodeError Node
  | object _ node => node
  | r => r.wrongType .node

/-- Reads a text. -/
def plainText : Reading → Except DecodeError String
  | text s => .ok s
  | r => r.wrongType .text

/-- Reads a truth value. -/
def truth : Reading → Except DecodeError Bool
  | flag b => .ok b
  | r => r.wrongType .flag

/-- Reads an array with a reader for its items. -/
def listOf {α : Type} (item : Reading → Except DecodeError α) :
    Reading → Except DecodeError (List α)
  | array items => items.mapM item
  | r => r.wrongType .list

/-- Reads something that may be absent; `null` stands for that. -/
def optional {α : Type} (reader : Reading → Except DecodeError α) :
    Reading → Except DecodeError (Option α)
  | null => .ok none
  | r => some <$> reader r

/-- Reads something that has a default; `null` stands for that. -/
def orElse {α : Type} (default : α) (reader : Reading → Except DecodeError α) (r : Reading) :
    Except DecodeError α := do
  return (← optional reader r).getD default

mutual

/-- A loosely typed value, unless an object in it is no node. -/
def value? : Reading → Option Value
  | null => some .null
  | flag b => some (.flag b)
  | number n => some (.number n.toFloat)
  | text s => some (.text s)
  | array items => (values? items).map .list
  | object _ node => node.toOption.map .node

/-- Loosely typed values, unless an object in one of them is no node. -/
def values? : List Reading → Option (List Value)
  | [] => some []
  | r :: rest => do return (← r.value?) :: (← values? rest)

end

/-- Reads a loosely typed value. -/
def value (r : Reading) : Except DecodeError Value :=
  match r.value? with
  | some v => .ok v
  | none => .error (.unreadable .value)

/-- Reads the name of a declaration. -/
def declaredName (r : Reading) : Except DecodeError DeclaredName :=
  let name? := match r with
    | text s => some (.text s)
    | array items => (items.mapM fun item : Reading => (node item).toOption).map .parts
    | _ => none
  match name? with
  | some name => .ok name
  | none => .error (.unreadable .declaredName)

/-- Reads an offset, a line or a column. -/
def offset : Reading → Except DecodeError Nat
  | number (.natural n) => .ok n
  | number (.negative n) => .error (.wrongValue (.number (.negative n)) .offset)
  | r => r.wrongType .offset

/-- Reads a kind, given by its name or by its position among all kinds. -/
def kind : Reading → Except DecodeError Kind
  | text s =>
    match Kind.ofName? s with
    | some kind => .ok kind
    | none => .error (.unknownKind s)
  | number (.natural n) =>
    match Kind.all[n]? with
    | some kind => .ok kind
    | none => .error (.wrongValue (.number (.natural n)) .kindPosition)
  | r => r.wrongType .kind

end Reading

/-- Where the fields of a record come from: the members of an object, by name, or the items of an
array, by position. -/
inductive Fields where
  /-- Members of an object. -/
  | members (members : List (String × Reading))
  /-- Items of an array. -/
  | items (items : List Reading)

namespace Fields

/-- The values of all members of a name, with their places; counting begins at `place`. -/
def occurrences (name : String) : Nat → List (String × Reading) → List (Nat × Reading)
  | _, [] => []
  | place, (key, r) :: rest =>
    if key = name then (place, r) :: occurrences name (place + 1) rest
    else occurrences name (place + 1) rest

/-- Reads the member of a name. A second one is an error, and `absent` is used when there is none.
-/
def member {α : Type} (members : List (String × Reading)) (name : String)
    (absent : Except DecodeError α) (reader : Reading → Except DecodeError α) : Placed α :=
  match occurrences name 0 members with
  | [] => .put members.length absent
  | [(place, r)] => .put place (reader r)
  | (place, r) :: (again, _) :: _ =>
    match reader r with
    | .error e => .put place (.error e)
    | .ok _ => .put again (.error (.duplicate name))

/-- Reads a field that has a default. -/
def get {α : Type} (fields : Fields) (position : Nat) (name : String) (default : α)
    (reader : Reading → Except DecodeError α) : Placed α :=
  match fields with
  | members ms => member ms name (.ok default) reader
  | items rs =>
    match rs[position]? with
    | some r => .put position (reader r)
    | none => pure default

/-- An array has no more items than there are fields. -/
def atMost (fields : Fields) (count : Nat) : Placed Unit :=
  match fields with
  | members _ => pure ()
  | items rs =>
    if rs.length ≤ count then pure ()
    else .put count (.error (.wrongLength rs.length (.items count)))

/-- Reads the fields of an object or array. -/
def read {α : Type} (expected : Expected) (record : Fields → Placed α) :
    Reading → Except DecodeError α
  | .object ms _ => (record (members ms)).result
  | .array rs => (record (items rs)).result
  | r => r.wrongType expected

/-- The options of an import. -/
def importOptions (fields : Fields) : Placed ImportOptions :=
  let flag position name := fields.get position name false (Reading.orElse false Reading.truth)
  ImportOptions.mk <$> flag 0 "reference" <*> flag 1 "inline" <*> flag 2 "css" <*> flag 3 "less" <*>
    flag 4 "optional" <*> flag 5 "multiple" <* fields.atMost 6

/-- An argument of a mixin call. -/
def argument (fields : Fields) : Placed Argument :=
  Argument.mk <$> fields.get 0 "name" none (Reading.optional Reading.plainText) <*>
    fields.get 1 "value" .null Reading.value <* fields.atMost 2

/-- A parameter of a mixin definition. -/
def parameter (fields : Fields) : Placed Parameter :=
  Parameter.mk <$> fields.get 0 "name" none (Reading.optional Reading.plainText) <*>
    fields.get 1 "value" .null Reading.value <*>
    fields.get 2 "variadic" false (Reading.orElse false Reading.truth) <* fields.atMost 3

end Fields

/-- The members of a node's object, with a reader for each type of member. -/
structure NodeMembers where
  /-- The members, in the order of the text. -/
  members : List (String × Reading)

namespace NodeMembers

/-- A member with a default. -/
def get {α : Type} (m : NodeMembers) (name : String) (default : α)
    (reader : Reading → Except DecodeError α) : Placed α :=
  Fields.member m.members name (.ok default) reader

/-- A loosely typed member. -/
def value (m : NodeMembers) (name : String) : Placed Value :=
  m.get name .null Reading.value

/-- A list of loosely typed things. -/
def values (m : NodeMembers) (name : String) : Placed (List Value) :=
  m.get name [] (Reading.orElse [] (Reading.listOf Reading.value))

/-- A text, which may be absent but not `null`. -/
def text (m : NodeMembers) (name : String) : Placed String :=
  m.get name "" Reading.plainText

/-- A text that may be absent. -/
def text? (m : NodeMembers) (name : String) : Placed (Option String) :=
  m.get name none (Reading.optional Reading.plainText)

/-- A list of texts. -/
def texts (m : NodeMembers) (name : String) : Placed (List String) :=
  m.get name [] (Reading.orElse [] (Reading.listOf Reading.plainText))

/-- A truth value. -/
def flag (m : NodeMembers) (name : String) : Placed Bool :=
  m.get name false (Reading.orElse false Reading.truth)

/-- A node that must be there. -/
def node (m : NodeMembers) (name : String) : Placed Node :=
  Fields.member m.members name (.error (.missing name)) Reading.node

/-- A node that may be absent. -/
def node? (m : NodeMembers) (name : String) : Placed (Option Node) :=
  m.get name none (Reading.optional Reading.node)

/-- A list of nodes. -/
def nodes (m : NodeMembers) (name : String) : Placed (List Node) :=
  m.get name [] (Reading.orElse [] (Reading.listOf Reading.node))

/-- A list of nodes that may be absent. -/
def nodes? (m : NodeMembers) (name : String) : Placed (Option (List Node)) :=
  m.get name none (Reading.optional (Reading.listOf Reading.node))

/-- A list of records. -/
def records {α : Type} (m : NodeMembers) (name : String) (expected : Expected)
    (record : Fields → Placed α) : Placed (List α) :=
  m.get name [] (Reading.orElse [] (Reading.listOf (Fields.read expected record)))

/-- The body of a node of the given kind. -/
def body (m : NodeMembers) : Kind → Placed Body
  | .anonymous => .anonymous <$> m.value "value"
  | .assignment => .assignment <$> m.value "key" <*> m.value "value"
  | .atRule => .atRule <$> m.text? "name" <*> m.value "value" <*> m.nodes "rules"
  | .attributeSelector =>
    .attributeSelector <$> m.value "key" <*> m.text? "op" <*> m.value "value"
  | .call => .call <$> m.text "name" <*> m.values "args"
  | .color => .color <$> m.value "value"
  | .combinator => .combinator <$> m.value "value"
  | .comment => .comment <$> m.value "value" <*> m.flag "isLineComment"
  | .condition =>
    .condition <$> m.text? "op" <*> m.value "lvalue" <*> m.value "rvalue" <*> m.flag "negate"
  | .declaration =>
    .declaration <$> m.get "name" (.text "") Reading.declaredName <*> m.value "value" <*>
      m.flag "variable"
  | .detachedRuleset => .detachedRuleset <$> m.node "ruleset"
  | .dimension => .dimension <$> m.value "value" <*> m.node? "unit"
  | .element => .element <$> m.node? "combinator" <*> m.value "value" <*> m.flag "isVariable"
  | .expression => .expression <$> m.value "value"
  | .extend => .extend <$> m.node "selector" <*> m.text? "option"
  | .importRule =>
    .importRule <$> m.value "path" <*> m.value "features" <*>
      m.get "options" {} (Reading.orElse {} (Fields.read .importOptions Fields.importOptions)) <*>
      m.node? "root" <*> m.text? "importedFilename"
  | .javaScript => .javaScript <$> m.value "expression"
  | .keyword => .keyword <$> m.value "value"
  | .media => .media <$> m.value "features" <*> m.nodes "rules"
  | .mixinCall =>
    .mixinCall <$> m.node "selector" <*> m.records "arguments" .argument Fields.argument
  | .mixinDefinition =>
    .mixinDefinition <$> m.text "name" <*> m.nodes "selectors" <*>
      m.records "params" .parameter Fields.parameter <*> m.node? "condition" <*> m.nodes "rules" <*>
      m.flag "variadic"
  | .namespaceValue => .namespaceValue <$> m.node "value" <*> m.texts "lookups"
  | .negative => .negative <$> m.value "value"
  | .operation => .operation <$> m.text? "op" <*> m.values "operands"
  | .paren => .paren <$> m.value "value"
  | .property => .property <$> m.text "name"
  | .quoted => .quoted <$> m.value "value" <*> m.text? "quote" <*> m.flag "escaped"
  | .ruleset => .ruleset <$> m.nodes? "selectors" <*> m.nodes "rules" <*> m.flag "root"
  | .selector =>
    .selector <$> m.nodes "elements" <*> m.nodes "extendList" <*> m.value "condition"
  | .unicodeDescriptor => .unicodeDescriptor <$> m.value "value"
  | .unit => .unit <$> m.texts "numerator" <*> m.texts "denominator" <*> m.text? "backupUnit"
  | .url => .url <$> m.value "value"
  | .valueList => .valueList <$> m.value "value"
  | .variableUse => .variableUse <$> m.text "name"
  | .variableCall => .variableCall <$> m.text "variable"

/-- The node that an object is: its offset is looked at first, then its kind, then the members of
that kind. -/
def decode (m : NodeMembers) : Except DecodeError Node := do
  let index ← (m.get "index" none (Reading.optional Reading.offset)).result
  let kind ← (Fields.member m.members "type" (.error (.missing "type")) Reading.kind).result
  let body ← (m.body kind).result
  return ⟨index, body⟩

end NodeMembers

mutual

/-- Annotates a value. -/
def Reading.ofJson : Json → Reading
  | .null => .null
  | .flag b => .flag b
  | .number n => .number n
  | .text s => .text s
  | .array items => .array (Reading.ofItems items)
  | .object members =>
    let annotated := Reading.ofMembers members
    .object annotated (NodeMembers.decode ⟨annotated⟩)

/-- Annotates the items of an array. -/
def Reading.ofItems : List Json → List Reading
  | [] => []
  | j :: js => Reading.ofJson j :: Reading.ofItems js

/-- Annotates the members of an object. -/
def Reading.ofMembers : List (String × Json) → List (String × Reading)
  | [] => []
  | (name, j) :: rest => (name, Reading.ofJson j) :: Reading.ofMembers rest

end

/-- The node that a JSON value is. -/
def Node.ofJson (j : Json) : Except DecodeError Node :=
  (Reading.ofJson j).node

/-- A fault of the text as a decoding error. -/
def orMalformed {α : Type} (x : Except Fault α) : Except DecodeError α :=
  x.mapError .malformed

/-- Reads an offset off a draft, as soon as it is met. -/
def offsetOfDraft (draft : Draft) : Except DecodeError (Option Nat) := do
  match ← orMalformed (Found.ofDraft draft) with
  | .null => return none
  | .number (.natural n) => return some n
  | .number (.negative n) => .error (.wrongValue (.number (.negative n)) .offset)
  | found => .error (.wrongType found .offset)

/-- Reads the members of a node's object in turn. The offset is checked as it is met, and all else
has only to be JSON; `indexSeen` tells whether there was an offset before. -/
def readMembers (levels : Nat) (indexSeen : Bool) :
    List (Key × Draft) → Except DecodeError (List (String × Json))
  | [] => .ok []
  | (key, draft) :: rest => do
    let name ← orMalformed key
    if name = "index" then
      if indexSeen then .error (.duplicate "index")
      else
        let _ ← offsetOfDraft draft
        let value ← orMalformed (draft.settle levels)
        return (name, value) :: (← readMembers levels true rest)
    else
      let value ← orMalformed (draft.settle levels)
      return (name, value) :: (← readMembers levels indexSeen rest)

/-- The node that a draft is; `levels` is how many arrays and objects may stand inside one
another. -/
def Node.ofDraft (levels : Nat) : Draft → Except DecodeError Node
  | .object members ending =>
    match levels with
    | 0 => .error (.malformed .tooDeep)
    | levels + 1 => do
      let members ← readMembers levels false members
      match ending with
      | some why => .error (.malformed why.reading)
      | none => NodeMembers.decode ⟨Reading.ofMembers members⟩
  | draft => do
    let found ← orMalformed (Found.ofDraft draft)
    .error (.wrongType found .node)

/-- Reads a text that holds one node. -/
def Node.parse (text : String) : Except DecodeError Node := do
  let (draft, trailing) := Draft.read (Json.symbolsOfText text)
  let node ← Node.ofDraft Json.nestingLimit draft
  if trailing then .error (.malformed .trailingCharacters) else return node

end ImportSweep.Tree

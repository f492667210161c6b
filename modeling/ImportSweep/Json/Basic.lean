import ImportSweep.Json.Draft

/-!
# JSON values

A JSON value keeps the order of its members and members of one name. `Draft.settle` takes the value
out of a draft that has no fault, and `Json.parse` reads a whole text.
-/

namespace ImportSweep

open ImportSweep.Json in
/-- A JSON value. -/
inductive Json where
  /-- The value `null`. -/
  | null
  /-- A truth value. -/
  | flag (value : Bool)
  /-- A number. -/
  | number (value : Number)
  /-- A text. -/
  | text (value : String)
  /-- An array. -/
  | array (items : List Json)
  /-- An object, its members in the order of the text. -/
  | object (members : List (String × Json))

namespace Json

/-- The most arrays and objects that may stand inside one another. -/
def nestingLimit : Nat := 127

mutual

/-- The value of a draft, or the first fault that a reader of it meets; `levels` is how many more
arrays and objects may stand inside one another. -/
def Draft.settle (levels : Nat) : Draft → Except Fault Json
  | .null => .ok .null
  | .flag b => .ok (.flag b)
  | .number n => n.map .number
  | .text t => t.map .text
  | .broken why => .error why.reading
  | .array items ending =>
    match levels with
    | 0 => .error .tooDeep
    | levels + 1 => do
      let values ← Draft.settleItems levels items
      match ending with
      | some why => .error why.reading
      | none => .ok (.array values)
  | .object members ending =>
    match levels with
    | 0 => .error .tooDeep
    | levels + 1 => do
      let values ← Draft.settleMembers levels members
      match ending with
      | some why => .error why.reading
      | none => .ok (.object values)

/-- The values of the items of an array. -/
def Draft.settleItems (levels : Nat) : List Draft → Except Fault (List Json)
  | [] => .ok []
  | item :: rest => do
    let value ← item.settle levels
    return value :: (← Draft.settleItems levels rest)

/-- The members of an object. -/
def Draft.settleMembers (levels : Nat) : List (Key × Draft) → Except Fault (List (String × Json))
  | [] => .ok []
  | (key, draft) :: rest => do
    let name ← key
    let value ← draft.settle levels
    return (name, value) :: (← Draft.settleMembers levels rest)

end

mutual

/-- Passes over a draft: only what hides the end of the value is a fault. -/
def Draft.pass : Draft → Except Fault Unit
  | .null | .flag _ | .number _ | .text _ => .ok ()
  | .broken why => .error why.passing
  | .array items ending => do
    Draft.passItems items
    ending.elim (.ok ()) fun why => .error why.passing
  | .object members ending => do
    Draft.passMembers members
    ending.elim (.ok ()) fun why => .error why.passing

/-- Passes over the items of an array. -/
def Draft.passItems : List Draft → Except Fault Unit
  | [] => .ok ()
  | item :: rest => do
    item.pass
    Draft.passItems rest

/-- Passes over the members of an object. -/
def Draft.passMembers : List (Key × Draft) → Except Fault Unit
  | [] => .ok ()
  | (_, draft) :: rest => do
    draft.pass
    Draft.passMembers rest

end

/-- The symbols of a text. -/
def symbolsOfText (text : String) : List Symbol :=
  text.toList.map some

/-- Reads a text that holds one JSON value, nested at most `levels` deep. -/
def parse (levels : Nat) (text : String) : Except Fault Json :=
  let (draft, trailing) := Draft.read (symbolsOfText text)
  match draft.settle levels with
  | .error fault => .error fault
  | .ok value => if trailing then .error .trailingCharacters else .ok value

end Json

end ImportSweep

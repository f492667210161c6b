import ImportSweep.Json.Token

/-!
# JSON text read as far as it goes

A `Draft` is a JSON value in which faults keep their places: a text that is not JSON still has a
draft, which breaks off where the text does. What counts as the first fault depends on how a value
is used, so this is left to those who use the draft.

The draft is assembled token by token. `Assembly.feed` says what one more token does, and
`Draft.read` runs it over a whole text.
-/

namespace ImportSweep.Json

/-- The name of a member as read from text, or the fault of its characters. -/
abbrev Key := Except Fault String

/-- A JSON value with its faults in place. -/
inductive Draft where
  /-- The value `null`. -/
  | null
  /-- A truth value. -/
  | flag (value : Bool)
  /-- A number, or the fault of its size. -/
  | number (value : Except Fault Number)
  /-- A text, or the fault of its characters. -/
  | text (value : Except Fault String)
  /-- An array, and why it breaks off after its last item, if it does. -/
  | array (items : List Draft) (ending : Option Break)
  /-- An object, and why it breaks off after its last member, if it does. -/
  | object (members : List (Key × Draft)) (ending : Option Break)
  /-- No value could be read. -/
  | broken (why : Break)

/-- The place of an unfinished value in the array or object around it, whose finished parts stand
last first. -/
inductive Slot where
  /-- An item of an array. -/
  | item (before : List Draft)
  /-- The value of an object's member. -/
  | member (before : List (Key × Draft)) (key : Key)

/-- What the assembly of a draft waits for. Each state holds the finished parts of the innermost
array or object, last first, and the places of the values around it. -/
inductive Assembly where
  /-- A value. -/
  | value (stack : List Slot)
  /-- An item of an array, after the opening bracket or a comma. -/
  | item (before : List Draft) (stack : List Slot)
  /-- A comma or the closing bracket. -/
  | afterItem (items : List Draft) (stack : List Slot)
  /-- A member of an object, after the opening brace or a comma. -/
  | member (before : List (Key × Draft)) (stack : List Slot)
  /-- The colon after a member's name. -/
  | colon (before : List (Key × Draft)) (key : Key) (stack : List Slot)
  /-- A comma or the closing brace. -/
  | afterMember (members : List (Key × Draft)) (stack : List Slot)
  /-- Nothing: the draft is complete, and `trailing` tells whether something follows it. -/
  | finished (draft : Draft) (trailing : Bool)

namespace Assembly

/-- Puts a finished value into its place. -/
def place (draft : Draft) : List Slot → Assembly
  | [] => finished draft false
  | .item before :: stack => afterItem (draft :: before) stack
  | .member before key :: stack => afterMember ((key, draft) :: before) stack

/-- Ends all arrays and objects around a broken value. -/
def unwind (why : Break) : Draft → List Slot → Assembly
  | draft, [] => finished draft false
  | draft, .item before :: stack =>
    unwind why (.array (draft :: before).reverse (some why)) stack
  | draft, .member before key :: stack =>
    unwind why (.object ((key, draft) :: before).reverse (some why)) stack

/-- Breaks off where a value is due. -/
def noValue (why : Break) (stack : List Slot) : Assembly :=
  unwind why (.broken why) stack

/-- Breaks off inside an array, after its last item. -/
def breakArray (why : Break) (items : List Draft) (stack : List Slot) : Assembly :=
  unwind why (.array items.reverse (some why)) stack

/-- Breaks off inside an object, after its last member. -/
def breakObject (why : Break) (members : List (Key × Draft)) (stack : List Slot) : Assembly :=
  unwind why (.object members.reverse (some why)) stack

/-- Takes a token where a value is due. -/
def begin (token : Token) (stack : List Slot) : Assembly :=
  match token with
  | .openArray => item [] stack
  | .openObject => member [] stack
  | .null => place .null stack
  | .flag b => place (.flag b) stack
  | .number n => place (.number n) stack
  | .text t => place (.text t) stack
  | .brokenText why => noValue why stack
  | .broken why => noValue why stack
  | .closeArray | .closeObject | .colon | .comma => noValue (.both .expectedValue) stack

/-- What one more token does. -/
def feed : Assembly → Token → Assembly
  | value stack, token => begin token stack
  | item [] stack, .closeArray => place (.array [] none) stack
  | item before stack, .closeArray => breakArray ⟨.trailingComma, .expectedValue⟩ before stack
  | item before stack, token => begin token (.item before :: stack)
  | afterItem items stack, .comma => item items stack
  | afterItem items stack, .closeArray => place (.array items.reverse none) stack
  | afterItem items stack, _ => breakArray (.both .expectedArrayEnd) items stack
  | member [] stack, .closeObject => place (.object [] none) stack
  | member before stack, .closeObject => breakObject ⟨.trailingComma, .keyNotText⟩ before stack
  | member before stack, .text key => colon before key stack
  | member before stack, .brokenText why => breakObject why before stack
  | member before stack, _ => breakObject (.both .keyNotText) before stack
  | colon before key stack, .colon => value (.member before key :: stack)
  | colon before key stack, _ => noValue (.both .expectedColon) (.member before key :: stack)
  | afterMember members stack, .comma => member members stack
  | afterMember members stack, .closeObject => place (.object members.reverse none) stack
  | afterMember members stack, _ => breakObject (.both .expectedObjectEnd) members stack
  | finished draft _, _ => finished draft true

/-- What the end of the text does to an unfinished draft. -/
def close : Assembly → Assembly
  | value stack => noValue (.both .endInValue) stack
  | item [] stack => breakArray (.both .endInArray) [] stack
  | item before stack => breakArray (.both .endInValue) before stack
  | afterItem items stack => breakArray (.both .endInArray) items stack
  | member [] stack => breakObject (.both .endInObject) [] stack
  | member before stack => breakObject ⟨.endInValue, .endInObject⟩ before stack
  | colon before key stack => noValue (.both .endInObject) (.member before key :: stack)
  | afterMember members stack => breakObject (.both .endInObject) members stack
  | finished draft trailing => finished draft trailing

/-- The finished draft. -/
def result : Assembly → Draft × Bool
  | finished draft trailing => (draft, trailing)
  | _ => (.broken (.both .endInValue), false)

end Assembly

/-- The draft of a text, and whether something stands after its value. -/
def Draft.read (symbols : List Symbol) : Draft × Bool :=
  ((tokens symbols).foldl Assembly.feed (.value [])).close.result

end ImportSweep.Json

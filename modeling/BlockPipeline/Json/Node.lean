import BlockPipeline.Json.Value

set_option autoImplicit false

/-! # What a JSON text holds

A text is laid out as a tree of nodes before anything is wanted of it. A text that breaks off or goes
wrong still has such a tree, in which the fault stands where it was met. Whoever decodes the tree
visits it in the order of the text, so of several errors, be they faults of the text or values of the
wrong shape, the first one is reported.

A part of a text that nobody asks for is skipped. That takes less than reading it: a number may then
be too great, and a string may hold half a surrogate pair. -/

namespace BlockPipeline.Json

/-- Why a text is not JSON. -/
inductive Fault where
  /-- Something else than wanted stands there. -/
  | malformed
  /-- The text ends too early. -/
  | truncated
  deriving DecidableEq

/-- How an array or an object ends. -/
inductive Ending where
  /-- With its closing bracket. -/
  | closed
  /-- The text ends where a comma or the bracket is due. -/
  | cut
  /-- The text ends after a comma. -/
  | cutAfterComma
  /-- Something else stands where an item, a comma or the bracket is due. -/
  | malformed
  /-- With a field name that is no string. -/
  | brokenName (whenRead whenSkipped : Fault)
  deriving DecidableEq

/-- A value of the text, or what stands in its place. The name of a field is missing if it cannot be
    read but only skipped. -/
inductive Node where
  | null
  | bool (value : Bool)
  | number (value : Number)
  | string (value : String)
  | array (items : List Node) (ending : Ending)
  | object (fields : List (Option String × Node)) (ending : Ending)
  /-- Well formed, but not readable: too great a number, half a surrogate pair, too deep a nesting. -/
  | barred (form : Node)
  | fault (whenRead whenSkipped : Fault)
  deriving Inhabited

/-- The fault of an ending, when the contents are read. -/
def Ending.whenRead : Ending → Except Fault Unit
  | .closed => .ok ()
  | .cut | .cutAfterComma => .error .truncated
  | .malformed => .error .malformed
  | .brokenName fault _ => .error fault

/-- The fault of an ending, when the contents are skipped. -/
def Ending.whenSkipped : Ending → Except Fault Unit
  | .brokenName _ fault => .error fault
  | ending => ending.whenRead

/-- The fault of an ending, when no further item is wanted: then a comma is out of place too. -/
def Ending.whenFull : Ending → Except Fault Unit
  | .closed => .ok ()
  | .cut => .error .truncated
  | _ => .error .malformed

namespace Node

mutual

/-- Passes over a node. -/
def skip : Node → Except Fault Unit
  | .fault _ whenSkipped => .error whenSkipped
  | .barred form => form.skip
  | .array items ending => do skipItems items; ending.whenSkipped
  | .object fields ending => do skipFields fields; ending.whenSkipped
  | _ => .ok ()

/-- Passes over the items of an array. -/
def skipItems : List Node → Except Fault Unit
  | [] => .ok ()
  | item :: items => do item.skip; skipItems items

/-- Passes over the fields of an object. -/
def skipFields : List (Option String × Node) → Except Fault Unit
  | [] => .ok ()
  | (_, value) :: fields => do value.skip; skipFields fields

end

mutual

/-- The value of a node, with the fields of objects as they stand in the text. -/
def read : Node → Except Fault Json
  | .null => .ok .null
  | .bool b => .ok (.bool b)
  | .number n => .ok (.number n)
  | .string s => .ok (.string s)
  | .array items ending => do
    let values ← readItems items
    ending.whenRead
    return .array values
  | .object fields ending => do
    let values ← readFields fields
    ending.whenRead
    return .object values
  | .barred _ => .error .malformed
  | .fault whenRead _ => .error whenRead

/-- The values of the items of an array. -/
def readItems : List Node → Except Fault (List Json)
  | [] => .ok []
  | item :: items => do
    let value ← item.read
    let values ← readItems items
    return value :: values

/-- The values of the fields of an object. -/
def readFields : List (Option String × Node) → Except Fault (List (String × Json))
  | [] => .ok []
  | (none, _) :: _ => .error .malformed
  | (some name, node) :: fields => do
    let value ← node.read
    let values ← readFields fields
    return (name, value) :: values

end

mutual

/-- The tree of a value. -/
def ofJson : Json → Node
  | .null => .null
  | .bool b => .bool b
  | .number n => .number n
  | .string s => .string s
  | .array items => .array (ofItems items) .closed
  | .object fields => .object (ofFields fields) .closed

/-- The trees of the items of an array. -/
def ofItems : List Json → List Node
  | [] => []
  | item :: items => ofJson item :: ofItems items

/-- The trees of the fields of an object. -/
def ofFields : List (String × Json) → List (Option String × Node)
  | [] => []
  | (name, value) :: fields => (some name, ofJson value) :: ofFields fields

end

mutual

/-- The tree of a value is read as that value. -/
@[simp] theorem read_ofJson : ∀ value : Json, (ofJson value).read = .ok value
  | .null => rfl
  | .bool _ => rfl
  | .number _ => rfl
  | .string _ => rfl
  | .array items => by
    simp [ofJson, read, readItems_ofItems items, Ending.whenRead, bind, Except.bind, pure,
      Except.pure]
  | .object fields => by
    simp [ofJson, read, readFields_ofFields fields, Ending.whenRead, bind, Except.bind, pure,
      Except.pure]

theorem readItems_ofItems : ∀ items : List Json, readItems (ofItems items) = .ok items
  | [] => rfl
  | item :: items => by
    simp [ofItems, readItems, read_ofJson item, readItems_ofItems items, bind, Except.bind, pure,
      Except.pure]

theorem readFields_ofFields : ∀ fields : List (String × Json),
    readFields (ofFields fields) = .ok fields
  | [] => rfl
  | (name, value) :: fields => by
    simp [ofFields, readFields, read_ofJson value, readFields_ofFields fields, bind, Except.bind,
      pure, Except.pure]

end

end Node

end BlockPipeline.Json

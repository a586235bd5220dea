import BlockPipeline.Assoc
import BlockPipeline.Json.Decode

set_option autoImplicit false

/-! # Values with their fields in key order

Values that nobody gives a shape to, such as those in table rows, are kept with the fields of all
objects in key order, the last of equal names winning. -/

namespace BlockPipeline.Json

mutual

/-- The value with the fields of all its objects in key order. -/
def sorted : Json → Json
  | .array items => .array (sortedItems items)
  | .object fields => .object (Assoc.ofList (sortedFields fields))
  | value => value

/-- The items, each sorted. -/
def sortedItems : List Json → List Json
  | [] => []
  | item :: items => sorted item :: sortedItems items

/-- The fields in their order, each value sorted. -/
def sortedFields : List (String × Json) → List (String × Json)
  | [] => []
  | (name, value) :: fields => (name, sorted value) :: sortedFields fields

end

/-- The row that a value is, if it is an object. -/
def row? (value : Json) : Option Row :=
  match value with
  | .object fields => some (Assoc.ofList (sortedFields fields))
  | _ => none

/-- A row. -/
def Node.asRow : Node → Decoded Row
  | .object fields ending => do
    let values ← faulting (Node.readFields fields)
    faulting ending.whenRead
    return Assoc.ofList (sortedFields values)
  | .barred (.object _ _) => .error (.fault .malformed)
  | node => node.wrongType "a map"

end BlockPipeline.Json

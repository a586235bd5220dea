import BlockPipeline.Json.Reader
import BlockPipeline.Lookup
import BlockPipeline.Text.Literal

set_option autoImplicit false

/-! # Decoding

A decoder takes a node and gives a value of the wanted type or the first error in the order of the
text. Records are decoded by `record`: a record is an object with its fields in any order, or an array
with the fields in their declared order. -/

namespace BlockPipeline.Json

/-- How a JSON value differs from what is wanted. -/
inductive Mismatch where
  | type (found expected : String)
  | value (found expected : String)
  | length (count : Nat) (expected : String)
  | unknownVariant (name : String) (known : List String)
  | duplicateField (name : String)
  | missingField (name : String)
  | noAlternative (name : String)
  | identifierText
  deriving DecidableEq

/-- Why decoding fails. -/
inductive DecodeError where
  | fault (fault : Fault)
  | mismatch (mismatch : Mismatch)
  deriving DecidableEq

/-- The result of a decoder. -/
abbrev Decoded := Except DecodeError

/-- A name as it is shown in messages. -/
def ticked (name : String) : String := "`" ++ name ++ "`"

/-- The list of known names in a message. -/
def oneOf : List String → String
  | [] => "there are no variants"
  | [a] => "expected " ++ ticked a
  | [a, b] => "expected " ++ ticked a ++ " or " ++ ticked b
  | names => "expected one of " ++ ", ".intercalate (names.map ticked)

/-- The text of a mismatch. -/
def Mismatch.message : Mismatch → String
  | .type found expected => "invalid type: " ++ found ++ ", expected " ++ expected
  | .value found expected => "invalid value: " ++ found ++ ", expected " ++ expected
  | .length count expected =>
    "invalid length " ++ Text.naturalText count ++ ", expected " ++ expected
  | .unknownVariant name known => "unknown variant " ++ ticked name ++ ", " ++ oneOf known
  | .duplicateField name => "duplicate field " ++ ticked name
  | .missingField name => "missing field " ++ ticked name
  | .noAlternative name => "data did not match any variant of untagged enum " ++ name
  | .identifierText => "UUID parsing failed"

/-- The text of an error. -/
def DecodeError.message : DecodeError → String
  | .fault .malformed => "malformed text"
  | .fault .truncated => "truncated text"
  | .mismatch m => m.message

/-- Fails with a mismatch. -/
def mismatch {α : Type} (m : Mismatch) : Decoded α := .error (.mismatch m)

/-- A step that can only meet faults of the text. -/
def faulting {α : Type} : Except Fault α → Decoded α
  | .ok value => .ok value
  | .error fault => .error (.fault fault)

namespace Node

/-- What a node is called in a message. Of arrays and objects only the opening bracket is looked at. -/
def describe : Node → Decoded String
  | .null => .ok "null"
  | .bool b => .ok ("boolean " ++ ticked (if b then "true" else "false"))
  | .number (.integer n) => .ok ("integer " ++ ticked (Text.integerText n))
  | .number x => .ok ("floating point " ++ ticked x.text)
  | .string s => .ok ("string " ++ Text.literal s)
  | .array _ _ | .barred (.array _ _) => .ok "sequence"
  | .object _ _ | .barred (.object _ _) => .ok "map"
  | .barred _ => .error (.fault .malformed)
  | .fault whenRead _ => .error (.fault whenRead)

/-- Fails because another kind of value is expected. -/
def wrongType {α : Type} (node : Node) (expected : String) : Decoded α := do
  mismatch (.type (← node.describe) expected)

/-- A string, which a message calls `expected`. -/
def stringAs (expected : String) : Node → Decoded String
  | .string s => .ok s
  | node => node.wrongType expected

/-- A string. -/
def asString : Node → Decoded String := stringAs "a string"

/-- A truth value. -/
def asBool : Node → Decoded Bool
  | .bool b => .ok b
  | node => node.wrongType "a boolean"

/-- A natural below `2 ^ 64`. -/
def asNatural (expected : String) : Node → Decoded Nat
  | .number (.integer n) =>
    if 0 ≤ n then .ok n.toNat
    else mismatch (.value ("integer " ++ ticked (Text.integerText n)) expected)
  | node => node.wrongType expected

/-- A value that may also be null. -/
def asOption {α : Type} (decode : Node → Decoded α) : Node → Decoded (Option α)
  | .null => .ok none
  | node => some <$> decode node

/-- The items of a list, in order. -/
def decodeItems {α : Type} (decode : Node → Decoded α) : List Node → Decoded (List α)
  | [] => .ok []
  | item :: items => do
    let value ← decode item
    let values ← decodeItems decode items
    return value :: values

/-- A list. -/
def asList {α : Type} (decode : Node → Decoded α) : Node → Decoded (List α)
  | .array items ending => do
    let values ← decodeItems decode items
    faulting ending.whenRead
    return values
  | .barred (.array _ _) => .error (.fault .malformed)
  | node => node.wrongType "a sequence"

/-! ## Names -/

/-- The member that a name stands for. -/
def variant {α : Type} [Named α] (name : String) : Decoded α :=
  match Named.ofName? name with
  | some a => .ok a
  | none => mismatch (.unknownVariant name (Named.names α))

/-- The null behind the name of a member that carries nothing. -/
def asUnit : Node → Decoded Unit
  | .null => .ok ()
  | node => node.wrongType "unit"

/-- A member by its name, or as an object whose one field has its name and is null. -/
def asNamed {α : Type} [Named α] : Node → Decoded α
  | .string s => variant s
  | .object [] ending => do
    faulting ending.whenRead
    .error (.fault .malformed)
  | .object ((none, _) :: _) _ => .error (.fault .malformed)
  | .object ((some name, value) :: more) ending => do
    let a ← variant name
    value.asUnit
    if more.isEmpty then
      faulting ending.whenFull
      return a
    else .error (.fault .malformed)
  | .fault whenRead _ => .error (.fault whenRead)
  | _ => .error (.fault .malformed)

/-- `asNamed` for a value that has been read before it is known to be wanted: then other kinds of
    values differ in type instead of making the text malformed. -/
def asNamedValue {α : Type} [Named α] : Node → Decoded α
  | .string s => variant s
  | .object [(some name, value)] _ => do
    let a ← variant name
    match value with
    | .object [] _ => return a
    | value =>
      value.asUnit
      return a
  | .object _ _ => mismatch (.value "map" "map with a single key")
  | node => node.wrongType "string or map"

end Node

/-! ## Records -/

/-- When a field may be absent. -/
inductive Absence where
  | never
  /-- Only in the form of an object. -/
  | inObject
  | anywhere
  deriving DecidableEq

/-- A field of a record of type `σ`: its decoder says how the record changes. -/
structure Field (σ : Type) where
  name : String
  absence : Absence
  store : Node → Decoded (σ → σ)

/-- A field that must be there. -/
def Field.required {σ α : Type} (name : String) (decode : Node → Decoded α) (set : α → σ → σ) :
    Field σ :=
  ⟨name, .never, fun node => set <$> decode node⟩

/-- A field that keeps its initial value when it is absent. -/
def Field.optional {σ α : Type} (name : String) (decode : Node → Decoded α) (set : α → σ → σ) :
    Field σ :=
  ⟨name, .anywhere, fun node => set <$> decode node⟩

/-- A field that may be null, and absent from an object but not from an array. -/
def Field.nullable {σ α : Type} (name : String) (decode : Node → Decoded α)
    (set : Option α → σ → σ) : Field σ :=
  ⟨name, .inObject, fun node => set <$> node.asOption decode⟩

/-- A kind of record: its name in messages, its fields, and the record before any field is known. -/
structure Record (σ : Type) where
  name : String
  fields : List (Field σ)
  initial : σ

namespace Record

variable {σ : Type}

/-- The number of elements in a message. -/
def elements (n : Nat) : String :=
  Text.naturalText n ++ (if n = 1 then " element" else " elements")

/-- How a message calls the record. -/
def expected (r : Record σ) : String := "struct " ++ r.name

/-- Stores the fields of an object one by one. Fields that the record lacks are passed over. -/
def storeFields (r : Record σ) :
    List (Option String × Node) → List String → σ → Decoded (List String × σ)
  | [], seen, value => .ok (seen, value)
  | (none, _) :: _, _, _ => .error (.fault .malformed)
  | (some name, node) :: rest, seen, value =>
    match r.fields.find? (·.name == name) with
    | none => do
      faulting node.skip
      r.storeFields rest seen value
    | some field =>
      if name ∈ seen then mismatch (.duplicateField name)
      else do
        let change ← field.store node
        r.storeFields rest (name :: seen) (change value)

/-- A record from an object. Of the absent fields the first one declared is reported. -/
def ofFields (r : Record σ) (fields : List (Option String × Node)) (ending : Ending) : Decoded σ := do
  let (seen, value) ← r.storeFields fields [] r.initial
  faulting ending.whenRead
  match r.fields.find? fun field => field.absence == .never && !seen.contains field.name with
  | some field => mismatch (.missingField field.name)
  | none => return value

/-- Stores the items of an array in the declared order, and gives back those that are left. -/
def storeItems (r : Record σ) (ending : Ending) :
    List (Field σ) → List Node → σ → Decoded (List Node × σ)
  | [], items, value => .ok (items, value)
  | field :: fields, [], value => do
    faulting ending.whenRead
    if field.absence == .anywhere then r.storeItems ending fields [] value
    else
      mismatch (.length (r.fields.length - fields.length - 1)
        (r.expected ++ " with " ++ elements r.fields.length))
  | field :: fields, item :: items, value => do
    let change ← field.store item
    r.storeItems ending fields items (change value)

/-- A record from an array that is read while it is decoded. Surplus items are out of place. -/
def ofItems (r : Record σ) (items : List Node) (ending : Ending) : Decoded σ := do
  let (surplus, value) ← r.storeItems ending r.fields items r.initial
  if surplus.isEmpty then
    faulting ending.whenFull
    return value
  else .error (.fault .malformed)

/-- A record from an array whose items have been read before. Surplus items make its length wrong,
    which `wanted` describes. -/
def ofReadItems (r : Record σ) (wanted : String) (items : List Node) : Decoded σ := do
  let (surplus, value) ← r.storeItems .closed r.fields items r.initial
  if surplus.isEmpty then return value else mismatch (.length items.length wanted)

/-- A record. -/
def decode (r : Record σ) : Node → Decoded σ
  | .object fields ending => r.ofFields fields ending
  | .array items ending => r.ofItems items ending
  | .barred (.object _ _) | .barred (.array _ _) => .error (.fault .malformed)
  | node => node.wrongType r.expected

/-- A record that has been read before it is decoded. -/
def decodeRead (r : Record σ) : Node → Decoded σ
  | .object fields ending => r.ofFields fields ending
  | .array items _ => r.ofReadItems (elements r.fields.length ++ " in sequence") items
  | node => node.wrongType r.expected

/-- A record from a value. -/
def decodeJson (r : Record σ) : Json → Decoded σ
  | .array items => r.ofReadItems "fewer elements in array" (Node.ofItems items)
  | value => r.decodeRead (.ofJson value)

end Record

/-! ## Whole texts -/

/-- Decodes a text. What follows the value comes last. -/
def decodeText {α : Type} (decode : Node → Decoded α) (text : String) : Decoded α := do
  let document := Document.ofText text
  let value ← decode document.root
  if document.hasMore then .error (.fault .malformed) else return value

end BlockPipeline.Json

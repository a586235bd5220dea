import BlockPipeline.Block.Basic
import BlockPipeline.Block.ConfigJson

set_option autoImplicit false

/-! # Blocks as JSON

A status is an object whose field `state` names it; the message of an error stands in the field
`message`. It may also be an array of the two. -/

namespace BlockPipeline

open Json

/-! ## Identifiers and table names -/

/-- An identifier as JSON. -/
def Uuid.toJson (id : Uuid) : Json := .string id.text

/-- An identifier from its text. -/
def Uuid.decode (node : Node) : Decoded Uuid := do
  match Uuid.ofText? (← node.stringAs "a formatted UUID string") with
  | some id => return id
  | none => mismatch .identifierText

/-- A table name as JSON. -/
def TableName.toJson (name : TableName) : Json := .string name.text

/-- A table name. -/
def TableName.decode (node : Node) : Decoded TableName := TableName.mk <$> node.asString

/-! ## Statuses -/

namespace BlockStatus

/-- The states that a status can have. -/
inductive State where
  | idle
  | running
  | success
  | error
  deriving DecidableEq, Repr

instance : Named State where
  all := [.idle, .running, .success, .error]
  name
    | .idle => "idle"
    | .running => "running"
    | .success => "success"
    | .error => "error"

/-- The status as JSON. -/
def toJson : BlockStatus → Json
  | .idle => .object [("state", .string "idle")]
  | .running => .object [("state", .string "running")]
  | .success => .object [("state", .string "success")]
  | .error message => .object [("state", .string "error"), ("message", .string message)]

/-- How a status is called in messages. -/
def expected : String := "adjacently tagged enum BlockStatus"

/-- A state that carries no message. -/
def decodePlain (name : String) (status : BlockStatus) : Node → Decoded BlockStatus
  | .null => .ok status
  | node => node.wrongType ("unit variant BlockStatus::" ++ name)

/-- A status of a known state, from its message. -/
def ofMessage (state : State) (node : Node) : Decoded BlockStatus :=
  match state with
  | .idle => decodePlain "Idle" .idle node
  | .running => decodePlain "Running" .running node
  | .success => decodePlain "Success" .success node
  | .error => BlockStatus.error <$> node.asString

/-- A status of a known state without a message. -/
def ofState : State → Decoded BlockStatus
  | .idle => .ok .idle
  | .running => .ok .running
  | .success => .ok .success
  | .error => mismatch (.missingField "message")

/-- Passes over fields that a status lacks, up to its next field or the end. -/
def nextField (ending : Ending) : List (Option String × Node) →
    Decoded (Option (String × Node × List (Option String × Node)))
  | [] => do
    faulting ending.whenRead
    return none
  | (none, _) :: _ => .error (.fault .malformed)
  | (some name, node) :: rest =>
    if name = "state" ∨ name = "message" then .ok (some (name, node, rest))
    else do
      faulting node.skip
      nextField ending rest

/-- Nothing but unknown fields is left. -/
def noMore (ending : Ending) (fields : List (Option String × Node)) : Decoded Unit := do
  match ← nextField ending fields with
  | some (name, _, _) => mismatch (.duplicateField name)
  | none => return ()

/-- A status from an object. A message that stands first is kept until the state is known. -/
def ofFields (fields : List (Option String × Node)) (ending : Ending) : Decoded BlockStatus := do
  match ← nextField ending fields with
  | none => mismatch (.missingField "state")
  | some ("state", node, rest) =>
    let state ← node.asNamed
    match ← nextField ending rest with
    | none => ofState state
    | some ("message", node, rest) =>
      let status ← ofMessage state node
      noMore ending rest
      return status
    | some (name, _, _) => mismatch (.duplicateField name)
  | some (_, node, rest) =>
    let message ← faulting node.read
    match ← nextField ending rest with
    | none => mismatch (.missingField "state")
    | some ("state", node, rest) =>
      let state ← node.asNamed
      let status ← ofMessage state (.ofJson message)
      noMore ending rest
      return status
    | some (name, _, _) => mismatch (.duplicateField name)

/-- A status from an array of state and message. -/
def ofItems (items : List Node) (ending : Ending) : Decoded BlockStatus :=
  match items with
  | [] => do
    faulting ending.whenRead
    mismatch (.length 0 expected)
  | [state] => do
    let _ ← (state.asNamed : Decoded State)
    faulting ending.whenRead
    mismatch (.length 1 expected)
  | state :: message :: surplus => do
    let status ← ofMessage (← state.asNamed) message
    if surplus.isEmpty then
      faulting ending.whenFull
      return status
    else .error (.fault .malformed)

/-- A status. -/
def decode : Node → Decoded BlockStatus
  | .object fields ending => ofFields fields ending
  | .array items ending => ofItems items ending
  | node => node.wrongType expected

end BlockStatus

/-! ## Blocks -/

namespace Block

/-- The fields of a block as JSON. -/
def fields (block : Block) : List (String × Json) :=
  [("id", block.id.toJson), ("label", .string block.label), ("config", block.config.toJson),
    ("status", block.status.toJson)]
    ++ optionalField "output_table" (block.outputTable.map TableName.toJson)
    ++ [("is_stale", .bool block.isStale)]

/-- The block as JSON. -/
def toJson (block : Block) : Json := .object block.fields

/-- The fields of a block. -/
def record : Record Block where
  name := "Block"
  initial := ofConfig .nil (.load {})
  fields := [
    .required "id" Uuid.decode fun id b => { b with id },
    .required "label" Node.asString fun label b => { b with label },
    .required "config" BlockConfig.decode fun config b => { b with config },
    .required "status" BlockStatus.decode fun status b => { b with status },
    .nullable "output_table" TableName.decode fun outputTable b => { b with outputTable },
    .required "is_stale" Node.asBool fun isStale b => { b with isStale }]

/-- A block. -/
def decode : Node → Decoded Block := record.decode

end Block

end BlockPipeline

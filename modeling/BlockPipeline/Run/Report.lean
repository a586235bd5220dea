import BlockPipeline.Block.BlockJson
import BlockPipeline.Run.Visit
import BlockPipeline.Temporal.Duration

set_option autoImplicit false

/-! # Reports

A report says of a run when it took place, what it was started on, and what it did to each block. -/

namespace BlockPipeline

open Json Temporal

/-- The record of a run. A run of the whole pipeline has no trigger. -/
structure Report where
  runId : Uuid
  trigger : Option BlockId
  startedAt : Timestamp
  finishedAt : Timestamp
  visits : Visits
  deriving DecidableEq

/-- How long the run took. -/
def Report.duration (report : Report) : Duration := .between report.startedAt report.finishedAt

/-! ## Writing -/

/-- The fields of an outcome. -/
def Outcome.fields : Outcome → List (String × Json)
  | .succeeded => [("outcome", .string "succeeded")]
  | .failed message => [("outcome", .string "failed"), ("message", .string message)]
  | .skipped => [("outcome", .string "skipped")]

/-- The outcome as JSON. -/
def Outcome.toJson (outcome : Outcome) : Json := .object outcome.fields

/-- The visit as JSON: the block and the fields of the outcome. -/
def Visit.toJson (visit : Visit) : Json :=
  .object (("block_id", visit.block.toJson) :: visit.outcome.fields)

/-- The instant as JSON. -/
def Temporal.Timestamp.toJson (t : Timestamp) : Json := .string t.text

/-- The report as JSON. -/
def Report.toJson (report : Report) : Json :=
  .object ([("run_id", report.runId.toJson)]
    ++ optionalField "trigger" (report.trigger.map Uuid.toJson)
    ++ [("started_at", report.startedAt.toJson), ("finished_at", report.finishedAt.toJson),
      ("blocks", .array (report.visits.map Visit.toJson))])

/-! ## Reading -/

namespace Outcome

/-- The forms that an outcome can have. -/
inductive Form where
  | succeeded
  | failed
  | skipped
  deriving DecidableEq, Repr

instance : Named Form where
  all := [.succeeded, .failed, .skipped]
  name
    | .succeeded => "succeeded"
    | .failed => "failed"
    | .skipped => "skipped"

/-- The values of all fields of a name. -/
def valuesOf (name : String) (fields : List (String × Json)) : List Json :=
  (fields.filter (·.1 == name)).map Prod.snd

/-- An outcome from the fields of a visit, all of which have been read. Only a failure has a
    message. -/
def ofFields (fields : List (String × Json)) : Decoded Outcome := do
  match valuesOf "outcome" fields, valuesOf "message" fields with
  | [], _ => mismatch (.missingField "outcome")
  | _ :: _ :: _, _ => mismatch (.duplicateField "outcome")
  | _, _ :: _ :: _ => mismatch (.duplicateField "message")
  | [name], message =>
    let form : Form ← Node.asNamedValue (.ofJson name)
    match form, message with
    | .failed, [] => mismatch (.missingField "message")
    | .failed, text :: _ => failed <$> Node.asString (.ofJson text)
    | .succeeded, [] | .succeeded, [.null] => return succeeded
    | .skipped, [] | .skipped, [.null] => return skipped
    | .succeeded, other :: _ =>
      Node.wrongType (.ofJson other) "unit variant BlockOutcome::Succeeded"
    | .skipped, other :: _ => Node.wrongType (.ofJson other) "unit variant BlockOutcome::Skipped"

end Outcome

/-- Reads the fields of a visit and picks out the block. -/
def Visit.splitFields : List (Option String × Node) → Option BlockId →
    Decoded (Option BlockId × List (String × Json))
  | [], block => .ok (block, [])
  | (none, _) :: _, _ => .error (.fault .malformed)
  | (some "block_id", node) :: rest, block =>
    if block.isSome then mismatch (.duplicateField "block_id")
    else do
      let id ← Uuid.decode node
      splitFields rest (some id)
  | (some name, node) :: rest, block => do
    let value ← faulting node.read
    let (block, fields) ← splitFields rest block
    return (block, (name, value) :: fields)

/-- A visit, which is an object. -/
def Visit.decode : Node → Decoded Visit
  | .object fields ending => do
    let (block, rest) ← splitFields fields none
    faulting ending.whenRead
    match block with
    | none => mismatch (.missingField "block_id")
    | some block => return ⟨block, ← Outcome.ofFields rest⟩
  | node => node.wrongType "struct BlockRun"

/-- An instant from its text. -/
def Temporal.Timestamp.decode (node : Node) : Decoded Timestamp := do
  let expected := "a string representing a timestamp"
  let text ← node.stringAs expected
  match Timestamp.ofText? text with
  | some t => return t
  | none => mismatch (.value ("string " ++ Text.literal text) expected)

/-- The fields of a report. -/
def Report.record : Record Report where
  name := "ExecutionReport"
  initial := ⟨.nil, none, default, default, []⟩
  fields := [
    .required "run_id" Uuid.decode fun runId r => { r with runId },
    .nullable "trigger" Uuid.decode fun trigger r => { r with trigger },
    .required "started_at" Timestamp.decode fun startedAt r => { r with startedAt },
    .required "finished_at" Timestamp.decode fun finishedAt r => { r with finishedAt },
    .required "blocks" (Node.asList Visit.decode) fun visits r => { r with visits }]

/-- A report from its text. -/
def Report.ofText (text : String) : Decoded Report := decodeText Report.record.decode text

end BlockPipeline

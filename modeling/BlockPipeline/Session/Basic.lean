import BlockPipeline.Pipeline.Plan
import BlockPipeline.Session.Result
import BlockPipeline.Session.Staleness

set_option autoImplicit false

/-! # Sessions

A session is a pipeline that is being edited and run: its graph, the results of its blocks and its
staleness policy. An edit that fails changes nothing. -/

namespace BlockPipeline

open Json

/-- A pipeline at work. -/
structure Session where
  metadata : Metadata := {}
  graph : Graph := .empty
  results : ResultStore := []
  policy : StalenessPolicy := .position
  deriving DecidableEq, Inhabited

namespace Session

/-- The session without blocks. -/
def empty : Session := {}

/-- A session on a stored pipeline, in which nothing has run. -/
def ofDefinition (definition : Definition) : Except PipelineError Session := do
  let graph ← definition.toGraph
  return { metadata := definition.metadata, graph }

/-- The pipeline of the session, to be stored. -/
def definition (s : Session) : Definition := .ofGraph s.graph s.metadata

/-- The plan of the whole pipeline. -/
def plan (s : Session) : Plan := .ofGraph s.graph

/-- The session with an edited graph. -/
def withGraph (s : Session) (graph : Graph) : Session := { s with graph }

/-! ## Edits -/

/-- Adds a block of the kind under a new identifier. -/
def add (s : Session) (id : BlockId) (kind : BlockKind) : Session :=
  s.withGraph (s.graph.add (.ofKind id kind))

/-- Adds a block of the configuration under a new identifier. -/
def addConfig (s : Session) (id : BlockId) (config : BlockConfig) : Session :=
  s.withGraph (s.graph.add (.ofConfig id config))

/-- Connects two blocks and returns the input that gave way. -/
def connect (s : Session) (source target : BlockId) :
    Except PipelineError (Session × Option BlockId) := do
  let (graph, replaced) ← s.graph.connect source target
  return (s.withGraph graph, replaced)

/-- Takes away the input of a block and returns it. -/
def disconnect (s : Session) (target : BlockId) : Session × Option BlockId :=
  let (graph, previous) := s.graph.disconnect target
  (s.withGraph graph, previous)

/-- Removes a block with its connections and its result, and returns it. Its table stays. -/
def remove (s : Session) (id : BlockId) : Except PipelineError (Session × Block) := do
  match s.graph.remove id with
  | (_, none) => throw (.blockNotFound id)
  | (graph, some block) => return ({ s with graph, results := s.results.remove id }, block)

/-- Gives a block another label. -/
def rename (s : Session) (id : BlockId) (label : String) : Except PipelineError Session :=
  s.withGraph <$> s.graph.rename id label

/-- Copies a block under a new identifier. -/
def duplicate (s : Session) (id copyId : BlockId) : Except PipelineError Session :=
  s.withGraph <$> s.graph.duplicate id copyId

/-- Moves a block in pipeline order. -/
def move (s : Session) (id : BlockId) (place : Nat) : Except PipelineError Session :=
  s.withGraph <$> s.graph.move id place

/-! ## Changes of configuration -/

/-- Replaces a configuration and marks the blocks that depend on it, which are returned. -/
def replaceConfig (s : Session) (id : BlockId) (config : BlockConfig) : Session × List BlockId :=
  let graph := s.graph.modify id fun block => { block with config }
  let affected := s.policy.affected graph id
  (s.withGraph (graph.markStale affected), affected)

/-- Gives a block another configuration of the same kind. -/
def setConfig (s : Session) (id : BlockId) (config : BlockConfig) :
    Except PipelineError (Session × List BlockId) := do
  let block ← s.graph.get id
  if config.kind = block.kind then return s.replaceConfig id config
  else throw (.invalidConfig id block.kind (.otherKind config.kind.name))

/-- Lays the fields of a patch over those of a configuration. The fields are in key order then. -/
def patched (config : BlockConfig) (patch : List (String × Json)) : Json :=
  let fields := ("type", Json.string config.kind.name) :: config.fields
  .object (patch.foldl (fun table field => Assoc.insert field.1 field.2 table) (Assoc.ofList fields))

/-- The kind that a patch asks for, in text, if it is not the given one. -/
def otherKind? (kind : BlockKind) (patch : List (String × Json)) : Option String :=
  (patch.find? fun field => field.1 = "type" ∧ field.2 ≠ .string kind.name).map (·.2.compact)

/-- The configuration that a patch makes of another one. -/
def patchedConfig (config : BlockConfig) (patch : Json) : Except ConfigFault BlockConfig :=
  match patch with
  | .object fields =>
    match otherKind? config.kind fields with
    | some other => .error (.otherKind other)
    | none => (BlockConfig.ofJson (patched config fields)).mapError .undecodable
  | _ => .error .patchIsNoObject

/-- Replaces some fields of the configuration of a block. -/
def updateConfig (s : Session) (id : BlockId) (patch : Json) :
    Except PipelineError (Session × List BlockId) := do
  let block ← s.graph.get id
  let config ← (patchedConfig block.config patch).mapError (.invalidConfig id block.kind)
  return s.replaceConfig id config

end Session

end BlockPipeline

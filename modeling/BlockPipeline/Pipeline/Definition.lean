import BlockPipeline.Block.BlockJson
import BlockPipeline.Json.Printer
import BlockPipeline.Pipeline.Graph

set_option autoImplicit false

/-! # Definitions

A definition is a pipeline as it is stored: its blocks with their labels and configurations, and
their connections. How runs went is not stored. -/

namespace BlockPipeline

open Json

/-- What a pipeline is called. -/
structure Metadata where
  name : Option String := none
  description : Option String := none
  deriving DecidableEq, Inhabited

/-- A block as it is stored. Without a label it has the default one of its kind. -/
structure BlockDefinition where
  id : BlockId
  label : Option String
  config : BlockConfig
  deriving DecidableEq

/-- A pipeline as it is stored, the blocks in pipeline order. -/
structure Definition where
  metadata : Metadata := {}
  blocks : List BlockDefinition := []
  connections : List Connection := []
  deriving DecidableEq, Inhabited

/-! ## Graphs -/

namespace Definition

/-- Adds a stored block to a graph. -/
def addBlock (g : Graph) (block : BlockDefinition) : Except PipelineError Graph := do
  let g ← g.addConfig block.id block.config
  match block.label with
  | some label => g.rename block.id label
  | none => return g

/-- The graph of a definition. Connections are made in their order, so the last one into a block
    holds. -/
def toGraph (definition : Definition) : Except PipelineError Graph := do
  let g ← definition.blocks.foldlM addBlock .empty
  definition.connections.foldlM (fun g link => Prod.fst <$> g.connect link.source link.target) g

/-- The definition of a graph. -/
def ofGraph (g : Graph) (metadata : Metadata) : Definition where
  metadata := metadata
  blocks := g.blocks.map fun block => ⟨block.id, some block.label, block.config⟩
  connections := g.connections

end Definition

/-! ## JSON -/

/-- The metadata as JSON. -/
def Metadata.toJson (metadata : Metadata) : Json :=
  .object (optionalField "name" (metadata.name.map .string)
    ++ optionalField "description" (metadata.description.map .string))

/-- The stored block as JSON. -/
def BlockDefinition.toJson (block : BlockDefinition) : Json :=
  .object ([("id", block.id.toJson)] ++ optionalField "label" (block.label.map .string)
    ++ [("config", block.config.toJson)])

/-- The connection as JSON. -/
def Connection.toJson (link : Connection) : Json :=
  .object [("source", link.source.toJson), ("target", link.target.toJson)]

/-- The definition as JSON. -/
def Definition.toJson (definition : Definition) : Json :=
  .object [("metadata", definition.metadata.toJson),
    ("blocks", .array (definition.blocks.map BlockDefinition.toJson)),
    ("connections", .array (definition.connections.map Connection.toJson))]

/-- The fields of metadata. -/
def Metadata.record : Record Metadata where
  name := "PipelineMetadata"
  initial := {}
  fields := [
    .optional "name" (Node.asOption Node.asString) fun name m => { m with name },
    .optional "description" (Node.asOption Node.asString) fun description m =>
      { m with description }]

/-- Metadata from a value. -/
def Metadata.ofJson (value : Json) : Decoded Metadata := Metadata.record.decodeJson value

/-- The fields of a stored block. -/
def BlockDefinition.record : Record BlockDefinition where
  name := "BlockDefinition"
  initial := ⟨.nil, none, .load {}⟩
  fields := [
    .required "id" Uuid.decode fun id b => { b with id },
    .optional "label" (Node.asOption Node.asString) fun label b => { b with label },
    .required "config" BlockConfig.decode fun config b => { b with config }]

/-- The fields of a connection. -/
def Connection.record : Record Connection where
  name := "Connection"
  initial := ⟨.nil, .nil⟩
  fields := [
    .required "source" Uuid.decode fun source link => { link with source },
    .required "target" Uuid.decode fun target link => { link with target }]

/-- The fields of a definition. -/
def Definition.record : Record Definition where
  name := "PipelineDefinition"
  initial := {}
  fields := [
    .optional "metadata" Metadata.record.decode fun metadata d => { d with metadata },
    .optional "blocks" (Node.asList BlockDefinition.record.decode) fun blocks d =>
      { d with blocks },
    .optional "connections" (Node.asList Connection.record.decode) fun connections d =>
      { d with connections }]

/-- A definition from its text. -/
def Definition.ofText (text : String) : Decoded Definition :=
  decodeText Definition.record.decode text

/-- The text of a definition. -/
def Definition.text (definition : Definition) : String := definition.toJson.pretty

end BlockPipeline

import BlockPipeline.Block.Validation
import BlockPipeline.Json.Decode

set_option autoImplicit false

/-! # What can go wrong

The errors of editing and running a pipeline, each with its text. -/

namespace BlockPipeline

/-- Why two blocks cannot be connected. -/
inductive ConnectionFault where
  | ownInput
  | intoSource
  | cycle
  deriving DecidableEq

/-- The text of the reason. -/
def ConnectionFault.message : ConnectionFault → String
  | .ownInput => "a block cannot be its own input"
  | .intoSource => "load blocks do not accept an input"
  | .cycle => "connection would create a cycle"

/-- Why a block cannot have a configuration. -/
inductive ConfigFault where
  | identifierTaken
  | patchIsNoObject
  /-- The block would change its kind to what is given in text. -/
  | otherKind (kind : String)
  | undecodable (error : Json.DecodeError)
  deriving DecidableEq

/-- The text of the reason. -/
def ConfigFault.message : ConfigFault → String
  | .identifierTaken => "a block with this id already exists"
  | .patchIsNoObject => "config patch must be a JSON object"
  | .otherKind kind => "cannot change block type to " ++ kind
  | .undecodable error => error.message

/-- A fault that the database reports, in its own words. -/
structure EngineError where
  message : String
  deriving DecidableEq

/-- What can go wrong with a pipeline. -/
inductive PipelineError where
  | blockNotFound (id : BlockId)
  | invalidConnection (source target : BlockId) (fault : ConnectionFault)
  | invalidConfig (id : BlockId) (kind : BlockKind) (fault : ConfigFault)
  | validation (error : ValidationError)
  /-- A block that needs an input table has none to read. -/
  | missingInput
  | engine (error : EngineError)
  | undecodable (error : Json.DecodeError)
  deriving DecidableEq

/-- The text of an error. -/
def PipelineError.message : PipelineError → String
  | .blockNotFound id => "block " ++ id.text ++ " not found"
  | .invalidConnection source target fault =>
    "invalid connection from " ++ source.text ++ " to " ++ target.text ++ ": " ++ fault.message
  | .invalidConfig id kind fault =>
    "invalid config for " ++ kind.name ++ " block " ++ id.text ++ ": " ++ fault.message
  | .validation error => error.message
  | .missingInput => "No input connected"
  | .engine error => error.message
  | .undecodable error => "serialization error: " ++ error.message

end BlockPipeline

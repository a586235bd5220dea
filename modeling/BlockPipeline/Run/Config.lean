import BlockPipeline.Json.Decode

set_option autoImplicit false

/-! # How pipelines are run -/

namespace BlockPipeline

open Json

/-- How many rows a result keeps, and whether the table of a removed block is removed too. -/
structure RunConfig where
  previewLimit : Nat := 100
  dropOnRemove : Bool := true
  deriving DecidableEq, Inhabited

/-- A result has to keep one row at least. -/
inductive RunConfigError where
  | noPreview
  deriving DecidableEq

/-- The text of an error. -/
def RunConfigError.message : RunConfigError → String
  | .noPreview => "preview_limit must be at least 1"

namespace RunConfig

/-- The configuration of the given values, or of the usual ones where none is given. -/
def build (previewLimit : Option Nat) (dropOnRemove : Option Bool) :
    Except RunConfigError RunConfig :=
  let usual : RunConfig := {}
  if previewLimit = some 0 then .error .noPreview
  else .ok ⟨previewLimit.getD usual.previewLimit, dropOnRemove.getD usual.dropOnRemove⟩

/-- The configuration as JSON. -/
def toJson (config : RunConfig) : Json :=
  .object [("preview_limit", .ofNat config.previewLimit),
    ("drop_on_remove", .bool config.dropOnRemove)]

/-- The fields of a configuration. -/
def record : Record RunConfig where
  name := "OrchestratorConfig"
  initial := {}
  fields := [
    .required "preview_limit" (Node.asNatural "usize") fun previewLimit c =>
      { c with previewLimit },
    .required "drop_on_remove" Node.asBool fun dropOnRemove c => { c with dropOnRemove }]

/-- A configuration from its text. -/
def ofText (text : String) : Decoded RunConfig := decodeText record.decode text

end RunConfig

end BlockPipeline

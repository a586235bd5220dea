import BlockPipeline.CommandLine.Options
import BlockPipeline.Engine.Memory
import BlockPipeline.Rendering.Basic
import BlockPipeline.Rendering.Results
import BlockPipeline.Run.Cascade

set_option autoImplicit false

/-! # Carrying out commands

A command reads files, works on an engine in memory, and prints. What it needs from outside is given
to it: how to read a file, and what to write into the report of a run. -/

namespace BlockPipeline.CommandLine

/-- What a command leaves: the text it prints, and why it fails, if it does. The reasons go from the
    outermost inward; an error of the pipeline is the innermost one. -/
structure Failure where
  reasons : List String
  cause : Option PipelineError

/-- What stands in the report of a run besides the visits. -/
structure Stamp where
  runId : Uuid
  startedAt : Temporal.Timestamp
  finishedAt : Temporal.Timestamp

/-- How a file is read: its content, or why it cannot be read. -/
abbrev FileContent := String → Except String String

/-- Why a file that is not there cannot be read. -/
def noSuchFile : String := "No such file or directory (os error 2)"

/-- Fails for a reason. -/
def failFor {α : Type} (reasons : List String) (cause : Option PipelineError) : Except Failure α :=
  .error ⟨reasons, cause⟩

/-- The configuration of runs, out of the settings. -/
def Settings.runConfig (settings : Settings) : Except Failure RunConfig :=
  match RunConfig.build (some settings.previewLimit) (some (!settings.keepRemoved)) with
  | .ok config => .ok config
  | .error error =>
    failFor ["invalid configuration", "invalid engine configuration",
      "failed to build orchestrator configuration", error.message] none

/-- The session on the pipeline of a file. -/
def loadSession (contentOf : FileContent) (settings : Settings) (path : String) :
    Except Failure Session :=
  match contentOf path with
  | .error reason => failFor ["failed to read pipeline " ++ path, reason] none
  | .ok text =>
    match Definition.ofText text with
    | .error error => failFor ["failed to parse pipeline " ++ path] (some (.undecodable error))
    | .ok definition =>
      match Session.ofDefinition definition with
      | .error error => failFor ["invalid pipeline " ++ path] (some error)
      | .ok session => .ok { session with policy := settings.staleness }

/-- Makes source tables of files, in order, and returns their schemas. -/
def ingestSources (contentOf : FileContent) : List SourceArgument → Memory.Database →
    Except Failure (List Schema × Memory.Database)
  | [], db => .ok ([], db)
  | source :: rest, db =>
    match contentOf source.path with
    | .error reason => failFor ["failed to read source file " ++ source.path, reason] none
    | .ok content =>
      match Memory.engine.ingest source.name content db with
      | (.error error, _) =>
        failFor ["failed to ingest " ++ source.path] (some (.engine error))
      | (.ok columns, db) => do
        let (schemas, db) ← ingestSources contentOf rest db
        return (⟨source.name, columns⟩ :: schemas, db)

/-- What a run prints, and its failure if blocks have failed or were skipped. There is nothing if a
    result cannot be shown. -/
def runResult (session : Session) (report : Report) (output : OutputFormat) :
    Option (String × Option Failure) := do
  let text ← session.renderRun? report output
  return (text,
    if report.visits.allSucceeded then none
    else
      some ⟨[Text.naturalText report.visits.failed.length ++ " block(s) failed"], none⟩)

/-- Carries out a command on an empty database. -/
def Command.perform (contentOf : FileContent) (stamp : Stamp) (settings : Settings)
    (config : RunConfig) : Command → Except Failure (Option (String × Option Failure))
  | .compile pipeline output => do
    let session ← loadSession contentOf settings pipeline
    return some (session.renderPlan session.plan output, none)
  | .run pipeline sources output => do
    let session ← loadSession contentOf settings pipeline
    let (_, db) ← ingestSources contentOf sources .empty
    let progress := Memory.engine.runAll config session db
    let report : Report :=
      ⟨stamp.runId, none, stamp.startedAt, stamp.finishedAt, progress.visits⟩
    return runResult progress.session report output
  | .inspect sources output => do
    let (schemas, _) ← ingestSources contentOf sources .empty
    return some (Schema.render schemas output, none)

/-- Carries out a command line: what it prints, and why it fails if it does. There is nothing if a
    result cannot be shown. -/
def Invocation.perform (contentOf : FileContent) (stamp : Stamp) (invocation : Invocation) :
    Option (String × Option Failure) :=
  let settings := invocation.settings
  let result := do
    let config ← settings.runConfig
    invocation.command.perform contentOf stamp settings config
  match result with
  | .ok result => result
  | .error failure => some ("", some failure)

end BlockPipeline.CommandLine

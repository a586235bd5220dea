import BlockPipeline.CommandLine.Usage
import BlockPipeline.Rendering.Basic
import BlockPipeline.Session.Staleness
import BlockPipeline.Text.Parts

set_option autoImplicit false

/-! # The command line

A command line has options of the program, a command, and options of the command. Options of the
program that are not given are looked for in the environment. -/

namespace BlockPipeline.CommandLine

/-! ## Sources -/

/-- A file that is to become a source table. -/
structure SourceArgument where
  name : TableName
  path : String
  deriving DecidableEq

/-- Why a text names no source. -/
inductive SourceError where
  | missingSeparator (text : String)
  | invalidName (name : String)
  | emptyPath
  deriving DecidableEq

/-- The text of an error. -/
def SourceError.message : SourceError → String
  | .missingSeparator text => "expected `name=path`, got `" ++ text ++ "`"
  | .invalidName name => "source table name `" ++ name ++ "` must be a plain identifier"
  | .emptyPath => "source path is empty"

/-- A table name and a path with an equals sign between them. White space around the name is left
    out; it has to be a plain identifier. -/
def SourceArgument.ofText (text : String) : Except SourceError SourceArgument :=
  let chars := text.toList
  match chars.dropWhile (· ≠ '=') with
  | [] => .error (.missingSeparator text)
  | _ :: path =>
    let name : TableName := ⟨String.ofList (Text.trim (chars.takeWhile (· ≠ '=')))⟩
    if !name.isPlain then .error (.invalidName name.text)
    else if path.isEmpty then .error .emptyPath
    else .ok ⟨name, String.ofList path⟩

/-! ## Options -/

/-- What is to be done. -/
inductive Command where
  | compile (pipeline : String) (output : OutputFormat)
  | run (pipeline : String) (sources : List SourceArgument) (output : OutputFormat)
  | inspect (sources : List SourceArgument) (output : OutputFormat)
  deriving DecidableEq

/-- Options of the program. -/
structure Settings where
  database : Option String
  previewLimit : Nat
  staleness : StalenessPolicy
  keepRemoved : Bool
  logFormat : OutputFormat
  deriving DecidableEq

/-- A whole command line. -/
structure Invocation where
  settings : Settings
  command : Command
  deriving DecidableEq

/-- Options of the program as far as they are known. -/
structure SettingsDraft where
  database : Option String := none
  previewLimit : Option Nat := none
  staleness : Option StalenessPolicy := none
  keepRemoved : Option Bool := none
  logFormat : Option OutputFormat := none

/-- The settings, with the usual values for what is not known. -/
def SettingsDraft.settings (draft : SettingsDraft) : Settings where
  database := draft.database
  previewLimit := draft.previewLimit.getD 100
  staleness := draft.staleness.getD .position
  keepRemoved := draft.keepRemoved.getD false
  logFormat := draft.logFormat.getD .text

/-- Options of a command as far as they are known. -/
structure CommandDraft where
  pipeline : Option String := none
  sources : List SourceArgument := []
  output : Option OutputFormat := none

/-! ## Values -/

/-- A path is not empty. -/
def readPath (text : String) : Except UsageError String :=
  if text.isEmpty then .error .impossibleValue else .ok text

/-- A natural number. -/
def readNatural (text : String) : Except UsageError Nat :=
  match Text.natural? 64 text with
  | some n => .ok n
  | none => .error .unreadableValue

/-- A value that is read from text. -/
def readNamed {α : Type} [Named α] (text : String) : Except UsageError α :=
  match Named.ofName? text with
  | some a => .ok a
  | none => .error .unreadableValue

/-- One of a few possible values. -/
def readPossible {α : Type} [Named α] (text : String) : Except UsageError α :=
  match Named.ofName? text with
  | some a => .ok a
  | none => .error .impossibleValue

/-- A truth value. -/
def readBool (text : String) : Except UsageError Bool :=
  if text = "true" then .ok true else if text = "false" then .ok false
  else .error .impossibleValue

/-- A source. -/
def readSource (text : String) : Except UsageError SourceArgument :=
  (SourceArgument.ofText text).mapError fun _ => .unreadableValue

/-! ## The options of the program -/

namespace SettingsDraft

/-- Where the database is. -/
def storeDatabase (text : String) (draft : SettingsDraft) : Except UsageError SettingsDraft :=
  return { draft with database := some (← readPath text) }

/-- How many rows a result keeps. -/
def storePreviewLimit (text : String) (draft : SettingsDraft) : Except UsageError SettingsDraft :=
  return { draft with previewLimit := some (← readNatural text) }

/-- Which blocks an edit makes stale. -/
def storeStaleness (text : String) (draft : SettingsDraft) : Except UsageError SettingsDraft :=
  return { draft with staleness := some (← readNamed text) }

/-- Whether the tables of removed blocks stay. -/
def storeKeepRemoved (text : String) (draft : SettingsDraft) : Except UsageError SettingsDraft :=
  return { draft with keepRemoved := some (← readBool text) }

/-- How log lines are written. -/
def storeLogFormat (text : String) (draft : SettingsDraft) : Except UsageError SettingsDraft :=
  return { draft with logFormat := some (← readPossible text) }

/-- The options. -/
def choices : List (Choice SettingsDraft) := [
  ⟨"database", none, .value false storeDatabase⟩,
  ⟨"preview-limit", none, .value false storePreviewLimit⟩,
  ⟨"staleness", none, .value false storeStaleness⟩,
  ⟨"keep-removed", none, .switch fun draft => { draft with keepRemoved := some true }⟩,
  ⟨"log-format", none, .value false storeLogFormat⟩,
  ⟨"help", some 'h', .help⟩,
  ⟨"version", some 'V', .version⟩]

/-- The variables of the environment, each with the option it stands in for. -/
def environmentOptions :
    List (String × String × (String → SettingsDraft → Except UsageError SettingsDraft)) :=
  [("BLOCKFLOW_DATABASE", "database", storeDatabase),
    ("BLOCKFLOW_PREVIEW_LIMIT", "preview-limit", storePreviewLimit),
    ("BLOCKFLOW_STALENESS", "staleness", storeStaleness),
    ("BLOCKFLOW_KEEP_REMOVED", "keep-removed", storeKeepRemoved),
    ("BLOCKFLOW_LOG_FORMAT", "log-format", storeLogFormat)]

/-- Takes up the variables of those options that are not given. -/
def addEnvironment (environment : String → Option String) (taken : Taken SettingsDraft) :
    Except UsageError (Taken SettingsDraft) :=
  environmentOptions.foldlM (fun taken (name, option, store) =>
    if option ∈ taken.seen then return taken
    else match environment name with
      | none => return taken
      | some text =>
        return { taken with record := ← store text taken.record, seen := option :: taken.seen })
    taken

end SettingsDraft

/-! ## The options of the commands -/

namespace CommandDraft

/-- The file of the pipeline. -/
def pipelineChoice : Choice CommandDraft :=
  ⟨"pipeline", some 'p', .value false fun text draft =>
    return { draft with pipeline := some (← readPath text) }⟩

/-- A source. It may be given again and again. -/
def sourceChoice : Choice CommandDraft :=
  ⟨"source", some 's', .value true fun text draft =>
    return { draft with sources := draft.sources ++ [← readSource text] }⟩

/-- How results are shown. -/
def outputChoice : Choice CommandDraft :=
  ⟨"output", some 'o', .value false fun text draft =>
    return { draft with output := some (← readPossible text) }⟩

/-- Help. -/
def helpChoice : Choice CommandDraft := ⟨"help", some 'h', .help⟩

end CommandDraft

/-- The names of the commands. -/
inductive CommandName where
  | compile
  | run
  | inspect
  deriving DecidableEq, Repr

instance : Named CommandName where
  all := [.compile, .run, .inspect]
  name
    | .compile => "compile"
    | .run => "run"
    | .inspect => "inspect"

namespace CommandName

/-- The options of a command. -/
def choices : CommandName → List (Choice CommandDraft)
  | .compile =>
    [CommandDraft.pipelineChoice, CommandDraft.outputChoice, CommandDraft.helpChoice]
  | .run =>
    [CommandDraft.pipelineChoice, CommandDraft.sourceChoice, CommandDraft.outputChoice,
      CommandDraft.helpChoice]
  | .inspect => [CommandDraft.sourceChoice, CommandDraft.outputChoice, CommandDraft.helpChoice]

/-- The command, if all that it needs is given. -/
def complete (name : CommandName) (draft : CommandDraft) : Except UsageError Command :=
  let output := draft.output.getD .text
  match name, draft.pipeline with
  | .compile, some pipeline => .ok (.compile pipeline output)
  | .run, some pipeline => .ok (.run pipeline draft.sources output)
  | .inspect, _ =>
    if draft.sources.isEmpty then .error .missingArgument else .ok (.inspect draft.sources output)
  | _, none => .error .missingArgument

/-- Reads the words behind the name of a command. -/
def read (name : CommandName) (words : List String) : Except UsageError Command := do
  match ← scan name.choices ⟨{}, [], none⟩ words with
  | .word .. => .error .unknownArgument
  | .finished taken => name.complete (← taken.settle).record

end CommandName

namespace Invocation

/-- Help on a command, or on none. It may be asked for on help too. -/
def readHelp : List String → UsageError
  | [] => .help
  | [name] =>
    if name = "help" ∨ (Named.ofName? name : Option CommandName).isSome then .help
    else .unknownCommand
  | _ => .unknownCommand

/-- What is wrong with a command line without a command. -/
def withoutCommand (taken : Taken SettingsDraft) : UsageError :=
  if taken.seen.isEmpty then .nothing else .missingCommand

/-- Reads a command line. What is wrong with a command comes before what is wrong with the last value
    in front of it, and that before what is wrong in the environment. -/
def ofArguments (environment : String → Option String) (arguments : List String) :
    Except UsageError Invocation := do
  match ← scan SettingsDraft.choices ⟨{}, [], none⟩ arguments with
  | .finished taken =>
    .error (withoutCommand (← SettingsDraft.addEnvironment environment (← taken.settle)))
  | .word word behindDash rest taken =>
    match (Named.ofName? word : Option CommandName) with
    | some name =>
      if behindDash then .error .unknownArgument
      else do
        let command ← name.read rest
        let taken ← SettingsDraft.addEnvironment environment (← taken.settle)
        return ⟨taken.record.settings, command⟩
    | none =>
      if word = "help" then .error (if behindDash then .unknownArgument else readHelp rest)
      else .error .unknownCommand

end Invocation

end BlockPipeline.CommandLine

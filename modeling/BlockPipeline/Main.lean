import BlockPipeline.CommandLine.Command
import Std.Time.DateTime.Timestamp

set_option autoImplicit false

/-! # The program

Reads the files that a command line names, carries the command out, and prints. -/

namespace BlockPipeline.CommandLine

/-- The files that a command reads. -/
def filesOf : Command → List String
  | .compile pipeline _ => [pipeline]
  | .run pipeline sources _ => pipeline :: sources.map SourceArgument.path
  | .inspect sources _ => sources.map SourceArgument.path

/-- Reads a file, or tells why that fails. -/
def fetchFile (path : String) : IO (String × Except String String) := do
  match ← (IO.FS.readFile path).toBaseIO with
  | .ok content => return (path, .ok content)
  | .error (.noFileOrDirectory ..) => return (path, .error noSuchFile)
  | .error error => return (path, .error (toString error))

/-- The values of the variables that options may be taken from. -/
def fetchEnvironment : IO (List (String × String)) := do
  let values ← SettingsDraft.environmentOptions.mapM fun (name, _, _) => do
    return (← IO.getEnv name).map fun value => (name, value)
  return values.filterMap id

/-- The instant that the clock shows. -/
def now : IO Temporal.Timestamp := do
  return ⟨(← Std.Time.Timestamp.now).toNanosecondsSinceUnixEpoch.val⟩

/-- An identifier that no other run has. -/
def freshId (instant : Temporal.Timestamp) : IO Uuid := do
  let bytes ← IO.getRandomBytes 10
  return .ofInstant instant.milliseconds (bytes.toList.foldl (fun n byte => n * 256 + byte.toNat) 0)

end BlockPipeline.CommandLine

open BlockPipeline CommandLine

/-- Carries out a command line. -/
def main (arguments : List String) : IO UInt32 := do
  let environment ← fetchEnvironment
  match Invocation.ofArguments (Assoc.find? · environment) arguments with
  | .error error =>
    IO.eprintln (repr error)
    return UInt32.ofNat error.exitCode
  | .ok invocation =>
    let start ← now
    let files ← (filesOf invocation.command).mapM fetchFile
    let contentOf (path : String) : Except String String :=
      (Assoc.find? path files).getD (.error "file not read")
    let stamp : Stamp := ⟨← freshId start, start, ← now⟩
    match invocation.perform contentOf stamp with
    | none =>
      IO.eprintln "a column is too wide to be shown"
      return 101
    | some (output, failure) =>
      IO.print output
      match failure with
      | none => return 0
      | some failure =>
        let causes := failure.reasons ++ (failure.cause.map PipelineError.message).toList
        IO.eprintln ("Error: " ++ ": ".intercalate causes)
        return 1

set_option autoImplicit false

/-! # Options on a command line

The options of a command are described by what they store in a record. The words of a command line
are taken up one by one. A value that stands in a word of its own is kept back until the next option
is met or all words are taken up; only then is it looked at. -/

namespace BlockPipeline.CommandLine

/-- Why a command line is not carried out. -/
inductive UsageError where
  /-- Nothing at all was asked for. -/
  | nothing
  | missingCommand
  | unknownCommand
  /-- An option that the command lacks, or a word where none belongs. -/
  | unknownArgument
  | missingArgument
  /-- An option that may be given once is given twice. -/
  | repeated
  /-- A value is not one of the possible ones, or is missing. -/
  | impossibleValue
  /-- A value cannot be read. -/
  | unreadableValue
  /-- A switch is given a value. -/
  | surplusValue
  | help
  | version
  deriving DecidableEq, Repr

/-- Help and the version are asked for; everything else is a mistake. -/
def UsageError.exitCode : UsageError → Nat
  | .help | .version => 0
  | _ => 2

/-- What an option does. -/
inductive Effect (σ : Type) where
  | help
  | version
  | switch (set : σ → σ)
  | value (mayRepeat : Bool) (store : String → σ → Except UsageError σ)

/-- An option, with its long name, and perhaps a letter. -/
structure Choice (σ : Type) where
  long : String
  short : Option Char
  effect : Effect σ

/-- What has been taken up: the record, the names of the options in it, and an option kept back, with
    its value if that has been met. -/
structure Taken (σ : Type) where
  record : σ
  seen : List String
  pending : Option (Choice σ × Option String)

namespace Taken

variable {σ : Type}

/-- Notes that an option is given. -/
def note (taken : Taken σ) (choice : Choice σ) (mayRepeat : Bool) :
    Except UsageError (Taken σ) :=
  if choice.long ∈ taken.seen ∧ !mayRepeat then .error .repeated
  else .ok { taken with seen := choice.long :: taken.seen }

/-- Stores the value of an option. An option without a value of its own needs none. -/
def store (taken : Taken σ) (choice : Choice σ) (text : String) : Except UsageError (Taken σ) :=
  match choice.effect with
  | .value mayRepeat store => do
    let taken ← taken.note choice mayRepeat
    return { taken with record := ← store text taken.record }
  | _ => .ok taken

/-- Stores the option that was kept back. -/
def settle (taken : Taken σ) : Except UsageError (Taken σ) :=
  match taken.pending with
  | none => .ok taken
  | some (_, none) => .error .impossibleValue
  | some (choice, some text) => { taken with pending := none }.store choice text

/-- Takes up an option, with the value that is attached to it. -/
def choose (taken : Taken σ) (choice : Choice σ) (attached : Option String) :
    Except UsageError (Taken σ) :=
  match choice.effect, attached with
  | .value _ _, some text => do (← taken.settle).store choice text
  | .value _ _, none => do
    let taken ← taken.settle
    return { taken with pending := some (choice, none) }
  | _, some _ => .error .surplusValue
  | .switch set, none => do
    let taken ← (← taken.settle).note choice false
    return { taken with record := set taken.record }
  | .help, none => do
    let _ ← taken.settle
    .error .help
  | .version, none => do
    let _ ← taken.settle
    .error .version

/-- Takes up a word with a long name, which may have a value behind an equals sign. -/
def chooseLong (choices : List (Choice σ)) (taken : Taken σ) (word : List Char) :
    Except UsageError (Taken σ) :=
  let name := String.ofList (word.takeWhile (· ≠ '='))
  let attached := match word.dropWhile (· ≠ '=') with
    | [] => none
    | _ :: value => some (String.ofList value)
  match choices.find? (·.long == name) with
  | some choice => taken.choose choice attached
  | none => .error .unknownArgument

/-- Takes up a word of letters. The value of an option may follow its letter directly or behind an
    equals sign. -/
def chooseShort (choices : List (Choice σ)) : Taken σ → List Char → Except UsageError (Taken σ)
  | taken, [] => .ok taken
  | taken, letter :: rest =>
    match choices.find? (·.short == some letter) with
    | none => .error .unknownArgument
    | some choice =>
      match choice.effect, rest with
      | .value _ _, [] => taken.choose choice none
      | .value _ _, '=' :: value => taken.choose choice (some (String.ofList value))
      | .value _ _, value => taken.choose choice (some (String.ofList value))
      | _, rest => do chooseShort choices (← taken.choose choice none) rest

end Taken

/-- How taking up words ends. -/
inductive Scan (σ : Type) where
  | finished (taken : Taken σ)
  /-- At a word that is no option, perhaps behind a double dash. -/
  | word (text : String) (behindDash : Bool) (rest : List String) (taken : Taken σ)

/-- Takes up words as long as they are options and their values. -/
def scan {σ : Type} (choices : List (Choice σ)) :
    Taken σ → List String → Except UsageError (Scan σ)
  | taken, [] => .ok (.finished taken)
  | taken, word :: rest =>
    match word.toList with
    | ['-', '-'] =>
      match rest with
      | [] => .ok (.finished taken)
      | text :: rest => .ok (.word text true rest taken)
    | '-' :: '-' :: long => do scan choices (← Taken.chooseLong choices taken long) rest
    | '-' :: letter :: letters => do
      scan choices (← Taken.chooseShort choices taken (letter :: letters)) rest
    | _ =>
      match taken.pending with
      | some (choice, none) => scan choices { taken with pending := some (choice, some word) } rest
      | _ => .ok (.word word false rest taken)

end BlockPipeline.CommandLine

import BlockPipeline.Csv.Table
import BlockPipeline.Text.Parts

set_option autoImplicit false

/-! # An engine in memory

The engine keeps tables by name. It knows four forms of statements by their text, and runs every
statement that makes a table as a copy of its input. It can be told to refuse statements. -/

namespace BlockPipeline.Memory

/-! ## Statements by their form -/

/-- A statement that the engine knows, with names as they are written. -/
inductive Form where
  | copy (output input : List Char)
  | preview (table : List Char) (limit : List Char)
  | count (column table : List Char)
  | drop (table : List Char)
  deriving DecidableEq

/-- A character of a name in a statement. -/
def isSolid (c : Char) : Bool := !Text.isSpace c

/-- The characters in front that satisfy the test, if there are any, and the rest. -/
def run? (test : Char → Bool) (text : List Char) : Option (List Char × List Char) :=
  let found := text.takeWhile test
  if found.isEmpty then none else some (found, text.dropWhile test)

/-- What follows the words. -/
def after? (words : String) (text : List Char) : Option (List Char) :=
  Text.afterStart? words.toList text

/-- What follows the kind of object. -/
def afterObject? (text : List Char) : Option (List Char) :=
  after? "TABLE " text <|> after? "VIEW " text

/-- The name behind the last ` FROM ` that has one. -/
def lastSource? : List Char → Option (List Char)
  | [] => none
  | c :: rest =>
    match lastSource? rest with
    | some name => some name
    | none => do
      let (name, _) ← run? isSolid (← after? " FROM " (c :: rest))
      return name

/-- A statement that makes a table or view. -/
def copyForm? (sql : List Char) : Option Form := do
  let text ← afterObject? (← after? "CREATE OR REPLACE " sql)
  let (output, text) ← run? isSolid text
  return .copy output (← lastSource? (← after? " AS SELECT " text))

/-- A statement that reads the first rows. -/
def previewForm? (sql : List Char) : Option Form := do
  let (table, text) ← run? isSolid (← after? "SELECT * FROM " sql)
  let (limit, text) ← run? Text.isDecimalDigit (← after? " LIMIT " text)
  if text.isEmpty then some (.preview table limit) else none

/-- The text without a quote in front. -/
def dropQuote (text : List Char) : List Char :=
  match text with
  | '"' :: rest => rest
  | rest => rest

/-- A statement that counts rows. -/
def countForm? (sql : List Char) : Option Form := do
  let text ← after? "SELECT COUNT(*) AS " sql
  let (column, text) ← run? Text.isWord (dropQuote text)
  let (table, text) ← run? isSolid (← after? " FROM " (dropQuote text))
  if text.isEmpty then some (.count column table) else none

/-- A statement that removes a table or view. -/
def dropForm? (sql : List Char) : Option Form := do
  let text ← afterObject? (← after? "DROP " sql)
  let (table, text) ← run? isSolid (← after? "IF EXISTS " text)
  if text.isEmpty then some (.drop table) else none

/-- The form of a statement. -/
def form? (sql : String) : Option Form :=
  let text := sql.toList
  copyForm? text <|> previewForm? text <|> countForm? text <|> dropForm? text

/-- The table that a written name means: quotes around it are taken off. -/
def tableName (written : List Char) : String :=
  String.ofList ((Text.unquoted? '"' written).getD written)

/-! ## The state -/

/-- A refusal of all statements that hold the pattern. -/
structure Refusal where
  pattern : String
  message : String
  deriving DecidableEq

/-- Tables by name, the statements executed so far, and refusals in the order they were asked for. -/
structure Database where
  tables : List (String × Table)
  statements : List String
  refusals : List Refusal
  deriving DecidableEq, Inhabited

namespace Database

/-- A database without tables. -/
def empty : Database := ⟨[], [], []⟩

/-- The table of a name. -/
def table? (db : Database) (name : String) : Option Table := Assoc.find? name db.tables

/-- Adds a table, in place of any of that name. -/
def insertTable (db : Database) (name : String) (table : Table) : Database :=
  { db with tables := Assoc.insert name table db.tables }

/-- Removes a table, if it is there. -/
def removeTable (db : Database) (name : String) : Database :=
  { db with tables := Assoc.erase name db.tables }

/-- Refuses from now on what holds the pattern. -/
def refuse (db : Database) (pattern message : String) : Database :=
  { db with refusals := db.refusals ++ [⟨pattern, message⟩] }

/-- Refuses nothing any more. -/
def clearRefusals (db : Database) : Database := { db with refusals := [] }

/-- Forgets the statements. -/
def clearStatements (db : Database) : Database := { db with statements := [] }

/-- The statements that hold the pattern. -/
def statementsWith (db : Database) (pattern : String) : List String :=
  db.statements.filter (Text.hasPart · pattern)

/-- The table of a written name, which is missed under that name. -/
def lookUp (db : Database) (written : List Char) : Except EngineError Table :=
  match db.table? (tableName written) with
  | some table => .ok table
  | none =>
    .error ⟨"Catalog Error: Table with name " ++ String.ofList written ++ " does not exist!"⟩

/-- The first refusal that a statement meets. -/
def refusal? (db : Database) (sql : String) : Option Refusal :=
  db.refusals.find? fun refusal => Text.hasPart sql refusal.pattern

/-- Runs a statement of a known form. -/
def runForm (db : Database) : Form → Except EngineError (List Row × Database)
  | .copy output input => do
    let table ← db.lookUp input
    return ([], db.insertTable (tableName output) table)
  | .preview written limit => do
    let table ← db.lookUp written
    let rows := match Text.natural? 64 (String.ofList limit) with
      | some n => table.rows.take n
      | none => table.rows
    return (rows, db)
  | .count column written => do
    let table ← db.lookUp written
    return ([[(String.ofList column, .ofNat table.rows.length)]], db)
  | .drop written => return ([], db.removeTable (tableName written))

/-- Runs a statement, unless it is refused. -/
def runStatement (db : Database) (sql : String) : Except EngineError (List Row × Database) :=
  match db.refusal? sql with
  | some refusal => .error ⟨refusal.message⟩
  | none =>
    match form? sql with
    | some form => db.runForm form
    | none => .error ⟨"Parser Error: unsupported statement: " ++ sql⟩

/-- Notes a statement down and runs it. -/
def execute (sql : String) : Action EngineError Database (List Row) := fun db =>
  let noted := { db with statements := db.statements ++ [sql] }
  match noted.runStatement sql with
  | .ok (rows, after) => (.ok rows, after)
  | .error error => (.error error, noted)

/-- The columns of a table. An unknown table has none. -/
def describe (name : TableName) : Action EngineError Database (List ColumnDescription) := fun db =>
  (.ok (((db.table? name.text).map Table.columns).getD []), db)

/-- Makes a table of CSV text. -/
def register (name : TableName) (content : String) : Action EngineError Database Unit := fun db =>
  match Table.ofCsv content with
  | .ok table => (.ok (), db.insertTable name.text table)
  | .error error => (.error ⟨error.message⟩, db)

end Database

/-- The engine in memory. -/
def engine : Engine Database := ⟨Database.execute, Database.describe, Database.register⟩

end BlockPipeline.Memory

import BlockPipeline.Rendering.Basic
import BlockPipeline.Run.Report
import BlockPipeline.Session.Basic
import BlockPipeline.Text.Parts

set_option autoImplicit false

/-! # Results as text tables

After a run every block is shown with its status and the rows that are kept. Columns are as wide as
their widest cell, counted in characters. There is a limit to that width: a result with a wider column
cannot be shown as a table, and nothing is shown then. -/

namespace BlockPipeline

/-! ## Tables -/

/-- The greatest width that a cell can be filled up to. -/
def widthLimit : Nat := 65535

/-- A cell with blanks up to the width. -/
def padRight (width : Nat) (s : String) : List Char :=
  s.toList ++ List.replicate (width - s.length) ' '

/-- A cell with blanks up to the width, if that is within the limit. -/
def padRight? (width : Nat) (s : String) : Option (List Char) :=
  if width ≤ widthLimit then some (padRight width s) else none

/-- The cells of a line with their separators. -/
def tableLine? (widths : List Nat) (cells : List String) : Option (List Char) := do
  let padded ← (widths.zip cells).mapM fun (width, cell) => padRight? width cell
  return [' ', '|', ' '].intercalate padded

/-- The text of a line of a table, without white space at its end. -/
def tableText? (widths : List Nat) (cells : List String) : Option String := do
  let line ← tableLine? widths cells
  return String.ofList (Text.trimEnd line) ++ "\n"

/-- What stands in the cell of a column. -/
def Row.cell (row : Row) (column : String) : String :=
  match Assoc.find? column row with
  | none | some .null => "NULL"
  | some (.string s) => s
  | some value => value.compact

namespace BlockResult

/-- The names of the columns. -/
def header (result : BlockResult) : List String := result.columns.map ColumnInfo.name

/-- The cells of the kept rows. -/
def cells (result : BlockResult) : List (List String) :=
  result.rows.map fun row => result.header.map (Row.cell row)

/-- The widths, each enough for the name of the column and all its cells. -/
def widths (result : BlockResult) : List Nat :=
  result.cells.foldl (fun widths row => widths.zipWith (fun width cell => max width cell.length) row)
    (result.header.map String.length)

/-- The cells of the line between the names and the rows. -/
def rule (result : BlockResult) : List String :=
  result.widths.map fun width => String.ofList (List.replicate width '-')

/-- What stands behind the rows: if not all of them are kept, a line that says how many there are. -/
def note (result : BlockResult) : List String :=
  if result.isComplete then []
  else
    ["(" ++ Text.naturalText result.rows.length ++ " of " ++ Text.naturalText result.rowCount
      ++ " rows)\n"]

/-- The result as a table. -/
def text? (result : BlockResult) : Option String := do
  let lines ← (result.header :: result.rule :: result.cells).mapM (tableText? result.widths)
  return String.join (lines ++ result.note)

end BlockResult

/-! ## Runs -/

/-- The status of a block as it is shown. -/
def Block.statusText (block : Block) : String :=
  let status := match block.status with
    | .idle => "idle"
    | .running => "running"
    | .success => "success"
    | .error message => "error: " ++ message
  if block.isStale then status ++ ", stale" else status

namespace Session

/-- A block with its status and result. -/
def blockText? (s : Session) (block : Block) : Option String := do
  let table ← (s.results.find? block.id).elim (some "") BlockResult.text?
  return "== " ++ block.label ++ " [" ++ block.statusText ++ "]\n" ++ table ++ "\n"

/-- The last line after a run. -/
def summary (report : Report) : String :=
  Text.naturalText report.visits.succeeded.length ++ " succeeded, "
    ++ Text.naturalText report.visits.failed.length ++ " failed, "
    ++ Text.naturalText report.visits.skipped.length ++ " skipped in "
    ++ report.duration.text ++ "\n"

/-- A block as JSON, with its result if it has one. -/
def blockJson (s : Session) (block : Block) : Json :=
  .object (block.fields
    ++ Json.optionalField "result" ((s.results.find? block.id).map BlockResult.toJson))

/-- What a run left behind, in the wanted format. -/
def renderRun? (s : Session) (report : Report) (format : OutputFormat) : Option String :=
  match format with
  | .text => do
    let blocks ← s.graph.blocks.mapM s.blockText?
    return String.join blocks ++ summary report
  | .json =>
    some (Json.pretty (.object [("report", report.toJson),
      ("blocks", .array (s.graph.blocks.map s.blockJson))]))

end Session

end BlockPipeline

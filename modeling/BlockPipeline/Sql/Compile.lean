import BlockPipeline.Block.Config
import BlockPipeline.Sql.Token

set_option autoImplicit false

/-! # Statements of blocks

A configuration becomes the statement that makes the output table from the input table. Every
configuration has a statement, complete or not; that of a load block is empty. -/

namespace BlockPipeline.Sql

/-- The clause that begins a statement making a table. -/
def createTable (output : TableName) : Clause :=
  keywords ["CREATE", "OR", "REPLACE", "TABLE"] ++ [tableToken output] ++ keywords ["AS", "SELECT"]

/-- The clause that says where rows come from. -/
def fromTable (input : TableName) : Clause := [.word "FROM", tableToken input]

/-- All columns. -/
def everything : Clause := [.symbol "*"]

/-- A value to compare with, as it stands in a statement. -/
def literal : Option FilterValue → Token
  | none => .word "NULL"
  | some (.bool true) => .word "TRUE"
  | some (.bool false) => .word "FALSE"
  | some (.number n) => .number n
  | some (.text s) => .text s

/-- The pattern of all texts that hold the value. -/
def likePattern (value : Option FilterValue) : Token :=
  .text ("%" ++ (value.map FilterValue.plainText).getD "" ++ "%")

/-- The condition of a filter. -/
def condition (config : FilterConfig) : Clause :=
  .name config.column :: match config.operator with
    | .contains => [.word "LIKE", likePattern config.value]
    | .notContains => [.word "NOT", .word "LIKE", likePattern config.value]
    | operator => [.symbol (Named.name operator), literal config.value]

/-- A metric with the name of its column. -/
def metricClause (metric : Metric) : Clause :=
  let call := match metric.function with
    | .count => [.word "COUNT", .symbol "(", .symbol "*", .symbol ")"]
    | .sum => [.word "SUM", .symbol "(", .name metric.column, .symbol ")"]
    | .avg => [.word "AVG", .symbol "(", .name metric.column, .symbol ")"]
    | .min => [.word "MIN", .symbol "(", .name metric.column, .symbol ")"]
    | .max => [.word "MAX", .symbol "(", .name metric.column, .symbol ")"]
  call ++ [.word "AS", .name metric.outputName]

/-- The columns of an aggregation: those it groups by, then its metrics. -/
def aggregateColumns (config : AggregateConfig) : Clause :=
  commaSeparated (config.groupBy.map (fun column => [.name column]) ++
    config.metrics.map metricClause)

/-- The clause that groups rows, if there is anything to group by. -/
def groupClauses (config : AggregateConfig) : List Clause :=
  if config.groupBy.isEmpty then []
  else
    [keywords ["GROUP", "BY"] ++ commaSeparated (config.groupBy.map fun column => [.name column])]

/-- The keyword of a direction. -/
def directionWord : SortDirection → String
  | .ascending => "ASC"
  | .descending => "DESC"

/-- The statement that makes the output of a block from its input. -/
def compile (config : BlockConfig) (input output : TableName) : Statement :=
  match config with
  | .load _ => []
  | .filter config =>
    [createTable output, everything, fromTable input, .word "WHERE" :: condition config]
  | .aggregate config =>
    [createTable output, aggregateColumns config, fromTable input] ++ groupClauses config
  | .sort config =>
    [createTable output, everything, fromTable input,
      keywords ["ORDER", "BY"] ++ [.name config.column, .word (directionWord config.direction)]]
  | .chart _ | .insight _ =>
    [keywords ["CREATE", "OR", "REPLACE", "VIEW"] ++ [tableToken output]
      ++ keywords ["AS", "SELECT"], everything, fromTable input]

/-- The statement that reads the first rows of a table. -/
def preview (table : TableName) (limit : Nat) : Statement :=
  [[.word "SELECT"], everything, fromTable table, [.word "LIMIT", .number (.integer limit)]]

/-- The name of the column that holds a count of rows. -/
def rowCountColumn : String := "row_count"

/-- The statement that counts the rows of a table. -/
def countRows (table : TableName) : Statement :=
  [[.word "SELECT", .word "COUNT", .symbol "(", .symbol "*", .symbol ")", .word "AS",
    .name rowCountColumn], fromTable table]

/-- The statement that removes the output of a block. A source table is not the block's to remove. -/
def drop (kind : BlockKind) (table : TableName) : Statement :=
  if kind.isSource then []
  else
    [keywords ["DROP", if kind.isView then "VIEW" else "TABLE", "IF", "EXISTS"] ++
      [tableToken table]]

end BlockPipeline.Sql

import BlockPipeline.Block.Kind
import BlockPipeline.Json.Value

set_option autoImplicit false

/-! # Configurations

Each kind of block has a configuration of its own. Texts may be empty: whether a configuration is
complete is a question of validation. -/

namespace BlockPipeline

/-- Configuration of a block that reads a source table. -/
structure LoadConfig where
  fileName : Option String := none
  tableName : String := ""
  deriving DecidableEq, Inhabited

/-- How a filter compares. -/
inductive FilterOperator where
  | equal
  | notEqual
  | greater
  | less
  | greaterOrEqual
  | lessOrEqual
  | contains
  | notContains
  deriving DecidableEq, Repr, Inhabited

instance : Named FilterOperator where
  all := [.equal, .notEqual, .greater, .less, .greaterOrEqual, .lessOrEqual, .contains, .notContains]
  name
    | .equal => "="
    | .notEqual => "!="
    | .greater => ">"
    | .less => "<"
    | .greaterOrEqual => ">="
    | .lessOrEqual => "<="
    | .contains => "contains"
    | .notContains => "not contains"

/-- What a filter compares with. -/
inductive FilterValue where
  | bool (value : Bool)
  | number (value : Json.Number)
  | text (value : String)
  deriving DecidableEq, Inhabited

namespace FilterValue

/-- Only an empty text is no value. -/
def isEmpty : FilterValue → Bool
  | .text s => s.isEmpty
  | _ => false

/-- The value as plain text. -/
def plainText : FilterValue → String
  | .bool b => if b then "true" else "false"
  | .number n => n.text
  | .text s => s

end FilterValue

/-- Configuration of a block that keeps the rows meeting a condition. -/
structure FilterConfig where
  column : String := ""
  operator : FilterOperator := .equal
  value : Option FilterValue := none
  deriving DecidableEq, Inhabited

/-- How a metric sums up a column. -/
inductive AggregateFunction where
  | sum
  | avg
  | count
  | min
  | max
  deriving DecidableEq, Repr, Inhabited

instance : Named AggregateFunction where
  all := [.sum, .avg, .count, .min, .max]
  name
    | .sum => "sum"
    | .avg => "avg"
    | .count => "count"
    | .min => "min"
    | .max => "max"

/-- One figure that an aggregation computes. Counting reads no column. -/
structure Metric where
  column : String := ""
  function : AggregateFunction
  givenName : Option String := none
  deriving DecidableEq, Inhabited

/-- The name of the column that the metric makes: the one it is given, unless that is empty, or else
    the function and the column. -/
def Metric.outputName (metric : Metric) : String :=
  let byFunction :=
    if metric.column.isEmpty then Named.name metric.function
    else Named.name metric.function ++ "_" ++ metric.column
  match metric.givenName with
  | some name => if name.isEmpty then byFunction else name
  | none => byFunction

/-- Configuration of a block that groups rows. Without grouping columns, all rows are one group. -/
structure AggregateConfig where
  groupBy : List String := []
  metrics : List Metric := []
  deriving DecidableEq, Inhabited

/-- Which way rows are ordered. -/
inductive SortDirection where
  | ascending
  | descending
  deriving DecidableEq, Repr, Inhabited

instance : Named SortDirection where
  all := [.ascending, .descending]
  name
    | .ascending => "asc"
    | .descending => "desc"

/-- Configuration of a block that orders rows. -/
structure SortConfig where
  column : String := ""
  direction : SortDirection := .ascending
  deriving DecidableEq, Inhabited

/-- How a chart is drawn. -/
inductive ChartType where
  | line
  | bar
  | pie
  | scatter
  deriving DecidableEq, Repr, Inhabited

instance : Named ChartType where
  all := [.line, .bar, .pie, .scatter]
  name
    | .line => "line"
    | .bar => "bar"
    | .pie => "pie"
    | .scatter => "scatter"

/-- Configuration of a chart. -/
structure ChartConfig where
  chartType : ChartType := .line
  xAxis : String := ""
  yAxis : String := ""
  title : Option String := none
  deriving DecidableEq, Inhabited

/-- Configuration of an insight panel. -/
structure InsightConfig where
  context : String := ""
  deriving DecidableEq, Inhabited

/-- The configuration of a block of any kind. -/
inductive BlockConfig where
  | load (config : LoadConfig)
  | filter (config : FilterConfig)
  | aggregate (config : AggregateConfig)
  | sort (config : SortConfig)
  | chart (config : ChartConfig)
  | insight (config : InsightConfig)
  deriving DecidableEq, Inhabited

namespace BlockConfig

/-- The kind of block that a configuration belongs to. -/
def kind : BlockConfig → BlockKind
  | .load _ => .load
  | .filter _ => .filter
  | .aggregate _ => .aggregate
  | .sort _ => .sort
  | .chart _ => .chart
  | .insight _ => .insight

/-- The configuration of a new block. -/
def default : BlockKind → BlockConfig
  | .load => .load {}
  | .filter => .filter {}
  | .aggregate => .aggregate {}
  | .sort => .sort {}
  | .chart => .chart {}
  | .insight => .insight {}

@[simp] theorem kind_default (kind : BlockKind) : (default kind).kind = kind := by
  cases kind <;> rfl

end BlockConfig

end BlockPipeline

import BlockPipeline.Block.Config
import BlockPipeline.Sql.Name

set_option autoImplicit false

/-! # Complete configurations

A configuration is complete when a statement can be made of it. -/

namespace BlockPipeline

/-- What a configuration lacks. -/
inductive ValidationError where
  | missingTableName
  | invalidTableName (name : String)
  | missingColumn
  | missingValue
  | missingMetrics
  | missingMetricColumn (function : AggregateFunction)
  | emptyGroupByColumn
  | missingAxes
  deriving DecidableEq

/-- The text of an error. -/
def ValidationError.message : ValidationError → String
  | .missingTableName => "Table name is required"
  | .invalidTableName name => "Table name '" ++ name ++ "' must be a plain identifier"
  | .missingColumn => "Column is required"
  | .missingValue => "Value is required"
  | .missingMetrics => "At least one metric is required"
  | .missingMetricColumn function => "Column is required for " ++ Named.name function ++ " metric"
  | .emptyGroupByColumn => "Group by column names must not be empty"
  | .missingAxes => "X and Y axis are required"

/-- A table to load is named by a plain identifier. -/
def LoadConfig.validate (config : LoadConfig) : Except ValidationError Unit :=
  if config.tableName.isEmpty then .error .missingTableName
  else if TableName.isPlain ⟨config.tableName⟩ then .ok ()
  else .error (.invalidTableName config.tableName)

/-- A filter has a column and a value. -/
def FilterConfig.validate (config : FilterConfig) : Except ValidationError Unit :=
  if config.column.isEmpty then .error .missingColumn
  else match config.value with
    | some value => if value.isEmpty then .error .missingValue else .ok ()
    | none => .error .missingValue

/-- A metric has a column unless it counts. -/
def Metric.lacksColumn (metric : Metric) : Bool :=
  metric.function != .count && metric.column.isEmpty

/-- An aggregation has metrics, and its columns have names. -/
def AggregateConfig.validate (config : AggregateConfig) : Except ValidationError Unit :=
  if config.metrics.isEmpty then .error .missingMetrics
  else if config.groupBy.any String.isEmpty then .error .emptyGroupByColumn
  else match config.metrics.find? Metric.lacksColumn with
    | some metric => .error (.missingMetricColumn metric.function)
    | none => .ok ()

/-- Rows are ordered by a column. -/
def SortConfig.validate (config : SortConfig) : Except ValidationError Unit :=
  if config.column.isEmpty then .error .missingColumn else .ok ()

/-- A chart has two axes. -/
def ChartConfig.validate (config : ChartConfig) : Except ValidationError Unit :=
  if config.xAxis.isEmpty || config.yAxis.isEmpty then .error .missingAxes else .ok ()

/-- Is the configuration complete? -/
def BlockConfig.validate : BlockConfig → Except ValidationError Unit
  | .load config => config.validate
  | .filter config => config.validate
  | .aggregate config => config.validate
  | .sort config => config.validate
  | .chart config => config.validate
  | .insight _ => .ok ()

end BlockPipeline

import BlockPipeline.Block.Config
import BlockPipeline.Json.Decode

set_option autoImplicit false

/-! # Configurations as JSON

A configuration is an object whose field `type` names the kind; the other fields are those of the
kind. It may also be an array that begins with the name of the kind. Since `type` may stand anywhere,
the other fields are read first and decoded when the kind is known. -/

namespace BlockPipeline

open Json

/-! ## Writing -/

/-- A field that is left out when there is nothing to write. -/
def Json.optionalField (name : String) (value : Option Json) : List (String × Json) :=
  value.toList.map (name, ·)

/-- The value as JSON. -/
def FilterValue.toJson : FilterValue → Json
  | .bool b => .bool b
  | .number n => .number n
  | .text s => .string s

/-- The metric as JSON. -/
def Metric.toJson (metric : Metric) : Json :=
  .object ([("column", .string metric.column), ("func", .string (Named.name metric.function))]
    ++ optionalField "alias" (metric.givenName.map .string))

/-- The fields of a configuration besides `type`. -/
def BlockConfig.fields : BlockConfig → List (String × Json)
  | .load c =>
    optionalField "file_name" (c.fileName.map .string) ++ [("table_name", .string c.tableName)]
  | .filter c =>
    [("column", .string c.column), ("operator", .string (Named.name c.operator))]
      ++ optionalField "value" (c.value.map FilterValue.toJson)
  | .aggregate c =>
    [("group_by", .array (c.groupBy.map .string)), ("metrics", .array (c.metrics.map Metric.toJson))]
  | .sort c => [("column", .string c.column), ("direction", .string (Named.name c.direction))]
  | .chart c =>
    [("chart_type", .string (Named.name c.chartType)), ("x_axis", .string c.xAxis),
      ("y_axis", .string c.yAxis)]
      ++ optionalField "title" (c.title.map .string)
  | .insight c => [("context", .string c.context)]

/-- The configuration as JSON. -/
def BlockConfig.toJson (config : BlockConfig) : Json :=
  .object (("type", .string config.kind.name) :: config.fields)

/-! ## Reading -/

/-- A value to compare with. -/
def FilterValue.decode : Node → Decoded FilterValue
  | .bool b => .ok (.bool b)
  | .number n => .ok (.number n)
  | .string s => .ok (.text s)
  | _ => mismatch (.noAlternative "FilterValue")

/-- The fields of a load configuration. -/
def LoadConfig.record : Record LoadConfig where
  name := "LoadConfig"
  initial := {}
  fields := [
    .optional "file_name" (Node.asOption Node.asString) fun s c => { c with fileName := s },
    .optional "table_name" Node.asString fun s c => { c with tableName := s }]

/-- The fields of a filter configuration. -/
def FilterConfig.record : Record FilterConfig where
  name := "FilterConfig"
  initial := {}
  fields := [
    .optional "column" Node.asString fun s c => { c with column := s },
    .optional "operator" Node.asNamedValue fun o c => { c with operator := o },
    .optional "value" (Node.asOption FilterValue.decode) fun v c => { c with value := v }]

/-- The fields of a metric. -/
def Metric.record : Record Metric where
  name := "Metric"
  initial := { function := .sum }
  fields := [
    .optional "column" Node.asString fun s m => { m with column := s },
    .required "func" Node.asNamedValue fun f m => { m with function := f },
    .optional "alias" (Node.asOption Node.asString) fun givenName m =>
      { m with givenName }]

/-- The fields of an aggregate configuration. -/
def AggregateConfig.record : Record AggregateConfig where
  name := "AggregateConfig"
  initial := {}
  fields := [
    .optional "group_by" (Node.asList Node.asString) fun s c => { c with groupBy := s },
    .optional "metrics" (Node.asList Metric.record.decodeRead) fun m c => { c with metrics := m }]

/-- The fields of a sort configuration. -/
def SortConfig.record : Record SortConfig where
  name := "SortConfig"
  initial := {}
  fields := [
    .optional "column" Node.asString fun s c => { c with column := s },
    .optional "direction" Node.asNamedValue fun d c => { c with direction := d }]

/-- The fields of a chart configuration. -/
def ChartConfig.record : Record ChartConfig where
  name := "ChartConfig"
  initial := {}
  fields := [
    .optional "chart_type" Node.asNamedValue fun t c => { c with chartType := t },
    .optional "x_axis" Node.asString fun s c => { c with xAxis := s },
    .optional "y_axis" Node.asString fun s c => { c with yAxis := s },
    .optional "title" (Node.asOption Node.asString) fun s c => { c with title := s }]

/-- The fields of an insight configuration. -/
def InsightConfig.record : Record InsightConfig where
  name := "InsightConfig"
  initial := {}
  fields := [.optional "context" Node.asString fun s c => { c with context := s }]

namespace BlockConfig

/-- The configuration of a known kind, from what stands beside the name of the kind. -/
def ofContent (kind : BlockKind) (content : Json) : Decoded BlockConfig :=
  let node := Node.ofJson content
  match kind with
  | .load => load <$> LoadConfig.record.decodeRead node
  | .filter => filter <$> FilterConfig.record.decodeRead node
  | .aggregate => aggregate <$> AggregateConfig.record.decodeRead node
  | .sort => sort <$> SortConfig.record.decodeRead node
  | .chart => chart <$> ChartConfig.record.decodeRead node
  | .insight => insight <$> InsightConfig.record.decodeRead node

/-- The name of a kind. -/
def decodeKind (node : Node) : Decoded BlockKind := do
  Node.variant (← node.stringAs "variant identifier")

/-- Reads the fields of an object and picks out the kind. -/
def splitFields : List (Option String × Node) → Option BlockKind →
    Decoded (Option BlockKind × List (String × Json))
  | [], kind => .ok (kind, [])
  | (none, _) :: _, _ => .error (.fault .malformed)
  | (some "type", node) :: rest, kind =>
    if kind.isSome then mismatch (.duplicateField "type")
    else do
      let found ← decodeKind node
      splitFields rest (some found)
  | (some name, node) :: rest, kind => do
    let value ← faulting node.read
    let (kind, fields) ← splitFields rest kind
    return (kind, (name, value) :: fields)

/-- A configuration. -/
def decode : Node → Decoded BlockConfig
  | .object fields ending => do
    let (kind, content) ← splitFields fields none
    faulting ending.whenRead
    match kind with
    | some kind => ofContent kind (.object content)
    | none => mismatch (.missingField "type")
  | .array [] ending => do
    faulting ending.whenRead
    mismatch (.missingField "type")
  | .array (first :: items) ending => do
    let kind ← decodeKind first
    let content ← faulting (Node.readItems items)
    faulting ending.whenRead
    ofContent kind (.array content)
  | node => node.wrongType "internally tagged enum BlockConfig"

/-- The configuration that a value holds. -/
def ofJson (value : Json) : Decoded BlockConfig := decode (.ofJson value)

end BlockConfig

end BlockPipeline

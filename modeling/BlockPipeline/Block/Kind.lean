import BlockPipeline.Lookup

set_option autoImplicit false

/-! # Kinds of blocks -/

namespace BlockPipeline

/-- What a stage of a pipeline does. -/
inductive BlockKind where
  /-- Reads a registered source table. -/
  | load
  /-- Keeps the rows that meet one condition. -/
  | filter
  /-- Groups rows and computes metrics. -/
  | aggregate
  /-- Orders rows by one column. -/
  | sort
  /-- Shows its input to a chart. -/
  | chart
  /-- Shows its input to an insight panel. -/
  | insight
  deriving DecidableEq, Repr, Inhabited

namespace BlockKind

instance : Named BlockKind where
  all := [.load, .filter, .aggregate, .sort, .chart, .insight]
  name
    | .load => "load"
    | .filter => "filter"
    | .aggregate => "aggregate"
    | .sort => "sort"
    | .chart => "chart"
    | .insight => "insight"

/-- The name of the kind. -/
def name (kind : BlockKind) : String := Named.name kind

/-- Blocks of this kind begin a pipeline and take no input. -/
def isSource (kind : BlockKind) : Bool := kind == .load

theorem isSource_iff {kind : BlockKind} : kind.isSource = true ↔ kind = .load := by
  cases kind <;> simp [isSource]

theorem isSource_eq_false_iff {kind : BlockKind} : kind.isSource = false ↔ kind ≠ .load := by
  rw [← Bool.not_eq_true, isSource_iff]

/-- Blocks of this kind show their input as a view and make no table. -/
def isView (kind : BlockKind) : Bool := kind == .chart || kind == .insight

/-- The label of a new block. -/
def defaultLabel (kind : BlockKind) : String := kind.name.capitalize ++ " Block"

end BlockKind

end BlockPipeline

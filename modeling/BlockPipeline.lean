import BlockPipeline.Database.Value
import BlockPipeline.Engine.Scripted
import BlockPipeline.Main
import BlockPipeline.Proofs.Attempt
import BlockPipeline.Proofs.Engine.Action
import BlockPipeline.Proofs.Engine.Transcript
import BlockPipeline.Proofs.Graph.Feeding
import BlockPipeline.Proofs.Graph.Downstream
import BlockPipeline.Proofs.Graph.Editing
import BlockPipeline.Proofs.Graph.Reachable
import BlockPipeline.Proofs.Graph.Outline
import BlockPipeline.Proofs.Graph.Topological
import BlockPipeline.Proofs.Plan.Entries
import BlockPipeline.Proofs.Run.Visits
import BlockPipeline.Proofs.Run.Block
import BlockPipeline.Proofs.Run.Steps
import BlockPipeline.Proofs.Run.Recorded
import BlockPipeline.Proofs.Run.Cascades
import BlockPipeline.Proofs.Run.Record
import BlockPipeline.Proofs.Run.Effect
import BlockPipeline.Proofs.Run.Calls
import BlockPipeline.Proofs.Run.Planned
import BlockPipeline.Proofs.Run.Order
import BlockPipeline.Proofs.Run.Creations
import BlockPipeline.Proofs.Run.InTurn
import BlockPipeline.Proofs.Run.Turns
import BlockPipeline.Proofs.Run.Issued
import BlockPipeline.Proofs.Session.Patch
import BlockPipeline.Proofs.Session.Reachable
import BlockPipeline.Proofs.Sql.Creation
import BlockPipeline.Proofs.Number.Numeral
import BlockPipeline.Proofs.Sql.Pieces
import BlockPipeline.Proofs.Text.Stops
import BlockPipeline.Proofs.Sql.Reading
import BlockPipeline.Proofs.Sql.Template
import BlockPipeline.Proofs.Sql.Names
import BlockPipeline.Proofs.Sql.Targets
import BlockPipeline.Proofs.Sql.Like
import BlockPipeline.Proofs.Engine.Memory
import BlockPipeline.Proofs.Text.Doubled
import BlockPipeline.Proofs.Engine.Source
import BlockPipeline.Proofs.Engine.Copy
import BlockPipeline.Proofs.Rendering.Script
import BlockPipeline.Proofs.Session.Changes
import BlockPipeline.Proofs.Session.Outputs
import BlockPipeline.Proofs.Session.History
import BlockPipeline.Proofs.Session.Restored
import BlockPipeline.Proofs.Session.Performs
import BlockPipeline.Proofs.Session.Course
import BlockPipeline.Proofs.Engine.Replay
import BlockPipeline.Proofs.Session.Leftover
import BlockPipeline.Proofs.Engine.Fetch
import BlockPipeline.Proofs.Run.Extent
import BlockPipeline.Proofs.Run.Trial
import BlockPipeline.Proofs.Run.Forecast
import BlockPipeline.Proofs.Run.Delivery
import BlockPipeline.Proofs.Run.Agreement
import BlockPipeline.Proofs.Run.Reloaded
import BlockPipeline.Proofs.Plan.Execution
import BlockPipeline.Proofs.Run.Isolation
import BlockPipeline.Proofs.Graph.Connecting
import BlockPipeline.Proofs.Ascending
import BlockPipeline.Proofs.Session.Stored
import BlockPipeline.Proofs.Run.Present
import BlockPipeline.Proofs.Run.Repetition
import BlockPipeline.Proofs.Run.Independence
import BlockPipeline.Proofs.Text.Uuid
import BlockPipeline.Proofs.Number.Integer
import BlockPipeline.Proofs.Temporal.Calendar
import BlockPipeline.Proofs.Temporal.Writing
import BlockPipeline.Proofs.Temporal.Rendered
import BlockPipeline.Proofs.Json.Reports
import BlockPipeline.Proofs.Json.Scalars
import BlockPipeline.Proofs.Json.Values
import BlockPipeline.Proofs.Json.Records
import BlockPipeline.Proofs.Json.Configs
import BlockPipeline.Proofs.Json.Definitions
import BlockPipeline.Proofs.Json.Overlay
import BlockPipeline.Proofs.Graph.Levels
import BlockPipeline.Proofs.Graph.Ranking
import BlockPipeline.Proofs.Plan.Selection
import BlockPipeline.Proofs.Session.Updates
import BlockPipeline.Proofs.Graph.Places
import BlockPipeline.Proofs.Graph.Policies
import BlockPipeline.Proofs.Graph.Assembly
import BlockPipeline.Proofs.Json.KeyOrder
import BlockPipeline.Proofs.Session.Successive
import BlockPipeline.Proofs.Session.Removal
import BlockPipeline.Proofs.Separated
import BlockPipeline.Proofs.Plan.Locality
import BlockPipeline.Proofs.Sql.Completeness
import BlockPipeline.Proofs.Csv.Writing
import BlockPipeline.Proofs.Csv.Columns
import BlockPipeline.Proofs.Csv.Sheet
import BlockPipeline.Proofs.Graph.Placing
import BlockPipeline.Proofs.Run.Ingested
import BlockPipeline.Proofs.Engine.Naming
import BlockPipeline.Proofs.Run.Config
import BlockPipeline.Proofs.Database.Integers
import BlockPipeline.Proofs.Rendering.Tables

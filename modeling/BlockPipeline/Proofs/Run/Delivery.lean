import BlockPipeline.Proofs.Run.Forecast

set_option autoImplicit false

/-! # What a block delivers

On the engine in memory every table of a run is a copy of a source table. A block that succeeds has the
table of the load block from which the way to it begins, however long the way is and whatever is refused
elsewhere, and its result shows that table (`runAll_delivers`). -/

namespace BlockPipeline.Memory

/-- After a run a block has a table that holds the content, and its result shows the content: all
    columns, the first rows, and how many rows there are. -/
structure Delivered (config : RunConfig) (content : Table) (p : Progress Database) (id : BlockId) :
    Prop where
  output : ∃ output, (p.session.graph.find? id).bind Block.outputTable = some output ∧
    p.engineState.table? output.text = some content
  result : ∃ result, p.session.results.find? id = some result ∧
    result.columns = content.columns.map ColumnInfo.ofDescription ∧
    result.rows = content.rows.take config.previewLimit ∧
    result.rowCount = content.rows.length ∧
    (result.isComplete = true ↔ content.rows.length ≤ config.previewLimit)

variable {g : Graph} {db : Database} {limit : Nat} {id : BlockId} {fate : Fate} {table : TableName}
  {content : Table} {s : Session} {config : RunConfig}

/-- What a block gives is what the load block at the beginning of the way to it reads. -/
theorem Forecast.source (h : Forecast g db limit id fate)
    (hfate : fate = .ran (.succeeded table content)) :
    ∃ root load, Relation.ReflTransGen g.Feeds root id ∧
      (g.find? root).map Block.config = some (.load load) ∧
      db.table? load.tableName = some content := by
  induction h generalizing table content with
  | @load id block found hload =>
    obtain ⟨-, -, htable⟩ := Trial.ofLoad_eq_succeeded (Fate.ran.inj hfate)
    obtain ⟨load, hconfig⟩ : ∃ load, block.config = .load load := by
      cases hconfig : block.config with
      | load load => exact ⟨load, rfl⟩
      | _ => rw [Block.kind, hconfig] at hload; cases hload
    refine ⟨id, load, .refl, ?_, ?_⟩
    · rw [found, Option.map_some, hconfig]
    · rwa [Block.targetTable, hconfig] at htable
  | copy found feeds above ih =>
    obtain ⟨-, -, rfl⟩ := Trial.ofCopy_eq_succeeded (Fate.ran.inj hfate)
    obtain ⟨root, load, hreached, hload, htable⟩ := ih rfl
    exact ⟨root, load, hreached.tail feeds, hload, htable⟩
  | halted => cases hfate

/-- However a session came about and whatever the engine refuses, every block that succeeds in a run
    delivers the table of the load block from which the way to it begins, as it was before the run. Rows
    are counted in 64 bits, and no memory holds a table with more of them than that. -/
theorem runAll_delivers (h : s.Reachable) (hlegible : s.Legible) (config : RunConfig) (db : Database)
    (hrows : ∀ entry ∈ db.tables, entry.2.rows.length < 2 ^ 64)
    (hsuccess : ⟨id, .succeeded⟩ ∈ (engine.runAll config s db).visits) :
    ∃ root load content, Relation.ReflTransGen s.graph.Feeds root id ∧
      (s.graph.find? root).map Block.config = some (.load load) ∧
      db.table? load.tableName = some content ∧
      Delivered config content (engine.runAll config s db) id := by
  have hwf := h.wellFormed
  have houtcome := (Visits.outcome?_eq_some_iff (Engine.runAll_once hwf engine config db)).2 hsuccess
  obtain ⟨table, content, hfate, hyields⟩ := runAll_yields hwf hlegible houtcome
  obtain ⟨root, load, hreached, hload, htable⟩ := hfate.source rfl
  have houtput := (runAll_borne hwf hlegible db config).table?_given hwf hlegible
    (Option.isSome_of_mem houtcome) hfate
  have hfew := hrows _ (Assoc.mem_of_find? htable)
  exact ⟨root, load, content, hreached, hload, htable, ⟨table, hyields.output, houtput⟩,
    ⟨_, hyields.result, Table.result_of_length hfew config.previewLimit⟩⟩

/-- A table that is called by a reserved word, and a limit below the number of its rows. The engine
    refuses the view of the chart, and the block above it delivers all the same. -/
theorem delivered_beside_refusal :
    let load : BlockId := ⟨1⟩
    let filter : BlockId := ⟨2⟩
    let chart : BlockId := ⟨3⟩
    let s := [Session.Edit.addConfig load (.load { tableName := "order" }),
      .addConfig filter (.filter { column := "paid FROM", value := some (.text "it's") }),
      .addConfig chart (.chart { xAxis := "day", yAxis := "amount" }), .connect load filter,
      .connect filter chart].foldl Session.Edit.apply .empty
    let day : Row := [("day", .string "1")]
    let db : Database := ⟨[("order", ⟨[⟨"day", "DATE"⟩], [day, [], day]⟩)], [], [⟨"VIEW", "no views"⟩]⟩
    let config : RunConfig := { previewLimit := 2 }
    s.Reachable ∧ s.Legible ∧ (∀ entry ∈ db.tables, entry.2.rows.length < 2 ^ 64) ∧
      ⟨filter, .succeeded⟩ ∈ (engine.runAll config s db).visits ∧
      ∃ root load content, Relation.ReflTransGen s.graph.Feeds root filter ∧
        (s.graph.find? root).map Block.config = some (.load load) ∧
        db.table? load.tableName = some content ∧
        Delivered config content (engine.runAll config s db) filter := by
  intro load filter chart s day db config
  have hreach : s.Reachable := .edits .empty (by decide +kernel)
  have hlegible : s.Legible := ⟨by decide +kernel, by decide +kernel⟩
  have hrows : ∀ entry ∈ db.tables, entry.2.rows.length < 2 ^ 64 := by decide +kernel
  have hsuccess : ⟨filter, .succeeded⟩ ∈ (engine.runAll config s db).visits := by decide +kernel
  exact ⟨hreach, hlegible, hrows, hsuccess, runAll_delivers hreach hlegible config db hrows hsuccess⟩

end BlockPipeline.Memory

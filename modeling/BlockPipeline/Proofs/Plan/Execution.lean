import BlockPipeline.Proofs.Run.Creations
import BlockPipeline.Proofs.Run.Forecast

set_option autoImplicit false

/-! # Executing the statements of a plan

A plan lists its statements in topological order. A run issues them as it comes to the blocks, level by
level below one load block after the other, and finds out only then which blocks take part. On the
engine in memory, if it refuses nothing and has the source tables, both come to the same: each planned
block has its table, and no other table has changed (`Realizes`). So none of the statements of the plan
fails, and the tables are those that a run leaves (`executeAll_statements`). -/

namespace BlockPipeline

/-- Executes statements one after the other, up to the first that fails. -/
def Engine.executeAll {σ : Type} (engine : Engine σ) : List String → Action EngineError σ Unit
  | [] => pure ()
  | sql :: rest => do
    let _ ← engine.execute sql
    engine.executeAll rest

variable {plan : Plan} {g : Graph} {id : BlockId} {block : Block} {planned : PlannedBlock}
  {sql : String}

/-! ## Statements and their blocks -/

namespace Plan.Covers

theorem find?_of_entry (hwf : g.WellFormed) (h : plan.Covers g g.ids) (found : g.find? id = some block)
    (hentry : plan.entry g block = .ok planned) : plan.find? id = some planned := by
  obtain rfl := hwf.id_of_find? found
  exact (h.settles block found (hwf.mem_ids_iff.2 ⟨block, found⟩)).of_ok hentry

/-- A planned block that needs no statement is a load block. -/
theorem mem_roots_of_no_statement (hwf : g.WellFormed) (h : plan.Covers g g.ids)
    (hfind : plan.find? id = some planned) (hnone : plan.statementOf? id = none) : id ∈ g.roots := by
  obtain ⟨block, found, hspec⟩ := h.entryOf hwf hfind
  by_contra hroot
  have hsource : block.kind.isSource = false :=
    BlockKind.isSource_eq_false_iff.2 (mt (Graph.mem_roots_iff hwf found).2 hroot)
  obtain ⟨feeder, above, -, -, hsql⟩ := hspec.fed hsource
  have hcreates : Sql.creates planned.sql = true := by
    rw [hsql]
    exact Sql.creates_compile hsource _ _
  rw [statementOf?, hfind, Option.bind_some, if_neg (Sql.not_isEmpty_of_creates hcreates)] at hnone
  cases hnone

end Plan.Covers

namespace Memory

variable {db : Database} {limit : Nat} {input table : TableName} {content : Table} {s : Session}
  {config : RunConfig} {done order : List BlockId} {fate : Fate}

/-! ## What is planned succeeds -/

/-- The engine refuses nothing and has the tables that complete load blocks read. -/
structure Provides (db : Database) (g : Graph) : Prop where
  accepts : db.refusals = []
  sources : ∀ block ∈ g.blocks, block.kind = .load → block.config.validate = .ok () →
    (db.table? block.targetTable.text).isSome

theorem Trial.ofCopy_of_no_refusals (h : db.refusals = []) (hvalid : block.config.validate = .ok ()) :
    ofCopy db limit block input content = succeeded block.targetTable content := by
  have hrefusals : (db.insertTable block.targetTable.text content).refusals = [] := h
  rw [ofCopy, hvalid, Database.accept_of_no_refusals h,
    fetched_of_no_refusals hrefusals (db.table?_insertTable_self _ _)]
  rfl

/-- It is foretold that planned blocks succeed. -/
theorem Provides.foretold (hwf : g.WellFormed) (h : Provides db g) (hcovers : plan.Covers g g.ids)
    (limit : Nat) : ∀ id ∈ g.ids, ∀ planned, plan.find? id = some planned →
      ∃ content, Forecast g db limit id (.ran (.succeeded planned.output content)) := by
  refine hwf.induction fun id ih planned hfind => ?_
  obtain ⟨block, found, hspec⟩ := hcovers.entryOf hwf hfind
  obtain rfl := hwf.id_of_find? found
  rw [hspec.output_eq]
  by_cases hload : block.kind = .load
  · obtain ⟨content, htable⟩ := Option.isSome_iff_exists.1
      (h.sources block (hwf.mem_blocks_iff.2 found) hload hspec.complete)
    have hfate : Forecast g db limit block.id _ := .load found hload
    rw [Trial.ofLoad_of_no_refusals h.accepts hspec.complete htable] at hfate
    exact ⟨content, hfate⟩
  · obtain ⟨feeder, above, hf, habove, -⟩ := hspec.fed (BlockKind.isSource_eq_false_iff.2 hload)
    obtain ⟨content, hfeeder⟩ := ih feeder hf above habove
    have hfate : Forecast g db limit block.id _ := .copy found hf hfeeder
    rw [Trial.ofCopy_of_no_refusals h.accepts hspec.complete] at hfate
    exact ⟨content, hfate⟩

/-- The table that a block gives is not named for another one. -/
theorem Forecast.table_ne (hwf : s.graph.WellFormed) (hlegible : s.Legible)
    (h : Forecast s.graph db limit id (.ran (.succeeded table content))) {other : BlockId}
    (hother : other ∈ s.graph.ids) (hne : id ≠ other) :
    table.text ≠ (TableName.derived other).text := by
  obtain ⟨block, found, -, rfl, -⟩ := h.given hwf rfl
  by_cases load : block.kind = .load
  · exact hlegible.source_ne hwf found load hother
  · rw [Block.targetTable_of_ne_load load, hwf.id_of_find? found]
    exact TableName.derived_text_ne hne

/-- Nothing is made for a block that is not planned. -/
theorem Forecast.content?_of_left_out (hwf : g.WellFormed) (hcovers : plan.Covers g g.ids)
    (h : Forecast g db limit id fate) (hnone : plan.find? id = none) : fate.content? = none := by
  have hleft : ∀ {id block}, g.find? id = some block → plan.find? id = none →
      ∀ planned, plan.entry g block ≠ .ok planned := fun found hnone planned hentry => by
    rw [hcovers.find?_of_entry hwf found hentry] at hnone
    cases hnone
  induction h with
  | @load id block found load =>
    cases hvalid : block.config.validate with
    | ok _ =>
      obtain ⟨planned, hentry⟩ := Plan.entry_of_source hvalid (BlockKind.isSource_iff.2 load)
      exact absurd hentry (hleft found hnone planned)
    | error error =>
      rw [Trial.ofLoad, hvalid]
      rfl
  | @copy id feeder block input content found feeds above ih =>
    cases hvalid : block.config.validate with
    | ok _ =>
      cases hfeeder : plan.find? feeder with
      | none => cases ih hfeeder
      | some planned =>
        obtain rfl := hwf.id_of_find? found
        obtain ⟨planned, hentry⟩ := Plan.entry_of_fed hvalid feeds hfeeder
        exact absurd hentry (hleft found hnone planned)
    | error error =>
      rw [Trial.ofCopy, hvalid]
      rfl
  | halted => rfl

/-! ## What is made -/

/-- Of these blocks the planned ones have their tables, and no other table has changed. -/
structure Realizes (s : Session) (db : Database) (limit : Nat) (done : List BlockId) (q : Database) :
    Prop where
  refusals : q.refusals = db.refusals
  made : ∀ id ∈ done, ∀ table content,
    Forecast s.graph db limit id (.ran (.succeeded table content)) → q.table? table.text = some content
  kept : ∀ name, (∀ id ∈ done, id ∉ s.graph.roots → (s.plan.find? id).isSome →
    name ≠ (TableName.derived id).text) → q.table? name = db.table? name

namespace Realizes

variable {q q' : Database}

theorem start (s : Session) (db : Database) (limit : Nat) : Realizes s db limit [] db :=
  ⟨rfl, fun _ hid => absurd hid List.not_mem_nil, fun _ _ => rfl⟩

theorem of_mem_iff (h : Realizes s db limit done q) (hdone : ∀ id, id ∈ order ↔ id ∈ done) :
    Realizes s db limit order q :=
  ⟨h.refusals, fun id hid => h.made id ((hdone id).1 hid),
    fun name hname => h.kept name fun id hid => hname id ((hdone id).2 hid)⟩

/-- The source table of a load block is left alone. -/
theorem source_eq (hwf : s.graph.WellFormed) (hlegible : s.Legible) (h : Realizes s db limit done q)
    (hdone : done ⊆ s.graph.ids) (found : s.graph.find? id = some block) (load : block.kind = .load) :
    q.table? block.targetTable.text = db.table? block.targetTable.text :=
  h.kept _ fun _ hother _ _ => hlegible.source_ne hwf found load (hdone hother)

/-- A block without a statement needs none: it is not planned, or its table is there. -/
theorem pass (hwf : s.graph.WellFormed) (hlegible : s.Legible) (h : Realizes s db limit done q)
    (hdone : done ⊆ s.graph.ids) (hnone : s.plan.statementOf? id = none) :
    Realizes s db limit (id :: done) q := by
  have hcovers : s.plan.Covers s.graph s.graph.ids := Plan.ofGraph_covers hwf
  refine ⟨h.refusals, ?_, fun name hname => h.kept name fun other hother =>
    hname other (List.mem_cons_of_mem id hother)⟩
  intro other hother table content hfate
  rcases List.mem_cons.1 hother with rfl | hother
  · cases hfind : s.plan.find? other with
    | none => cases hfate.content?_of_left_out hwf hcovers hfind
    | some planned =>
      obtain ⟨block, found, -, rfl, hload⟩ := hfate.given hwf rfl
      have load := (Graph.mem_roots_iff hwf found).1
        (hcovers.mem_roots_of_no_statement hwf hfind hnone)
      rw [h.source_eq hwf hlegible hdone found load, hload load]
  · exact h.made other hother table content hfate

/-- The statement of a block makes its table, if the block that feeds it is done. -/
theorem execute (hwf : s.graph.WellFormed) (hlegible : s.Legible) (hprovides : Provides db s.graph)
    (h : Realizes s db limit done q) (hnew : id ∉ done)
    (hfed : ∀ feeder, s.graph.Feeds feeder id → feeder ∈ done)
    (hsql : s.plan.statementOf? id = some sql) :
    ∃ after, engine.execute sql q = (.ok [], after) ∧ Realizes s db limit (id :: done) after := by
  have hcovers : s.plan.Covers s.graph s.graph.ids := Plan.ofGraph_covers hwf
  obtain ⟨planned, hplanned, -⟩ := Option.bind_eq_some_iff.1 hsql
  obtain ⟨block, feeder, above, found, hload, hvalid, hf, habove, rfl⟩ :=
    hcovers.compiled_of_statementOf? hwf hsql
  obtain rfl := hwf.id_of_find? found
  obtain ⟨content, hfeeder⟩ :=
    hprovides.foretold hwf hcovers limit feeder (hwf.feeder_mem hf) above habove
  have hself : Forecast s.graph db limit block.id _ := .copy found hf hfeeder
  rw [Trial.ofCopy_of_no_refusals hprovides.accepts hvalid] at hself
  have hinput := h.made feeder (hfed feeder hf) above.output content hfeeder
  obtain ⟨first, -, hfirst, habove, -⟩ := hfeeder.given hwf rfl
  have hexecute := execute_making hload (hlegible.unmarked block (hwf.mem_blocks_iff.2 found))
    (habove ▸ isPlain_targetTable hfirst) (isPlain_targetTable hvalid) hinput
  rw [Database.accept_of_no_refusals (h.refusals.trans hprovides.accepts)] at hexecute
  have hroot : block.id ∉ s.graph.roots := mt (Graph.mem_roots_iff hwf found).1 hload
  have htarget : block.targetTable = .derived block.id := Block.targetTable_of_ne_load hload
  refine ⟨_, hexecute, h.refusals, ?_, ?_⟩
  · intro other hother table content' hfate
    rcases List.mem_cons.1 hother with rfl | hother
    · cases hself.unique hwf hfate
      exact q.table?_insertTable_self _ _
    · have hne : other ≠ block.id := fun hsame => hnew (hsame ▸ hother)
      have hapart := hfate.table_ne hwf hlegible (hself.mem_ids hwf) hne
      rw [← htarget] at hapart
      exact (Database.table?_insertTable_of_ne hapart _).trans (h.made other hother table content' hfate)
  · intro name hname
    have hapart := hname block.id List.mem_cons_self hroot (Option.isSome_of_mem hplanned)
    rw [← htarget] at hapart
    exact (Database.table?_insertTable_of_ne hapart _).trans
      (h.kept name fun other hother => hname other (List.mem_cons_of_mem _ hother))

/-- The statements of an order in which feeders come first do not fail. -/
theorem executeAll (hwf : s.graph.WellFormed) (hlegible : s.Legible) (hprovides : Provides db s.graph)
    (h : Realizes s db limit done q) (hdone : done ⊆ s.graph.ids) (hfollows : s.graph.Follows done order)
    (hnodup : order.Nodup) (hnew : ∀ id ∈ order, id ∉ done) (hids : order ⊆ s.graph.ids) :
    ∃ after, engine.executeAll (order.filterMap s.plan.statementOf?) q = (.ok (), after) ∧
      Realizes s db limit (order.reverse ++ done) after := by
  induction order generalizing q done with
  | nil => exact ⟨q, rfl, h⟩
  | cons id rest ih =>
    obtain ⟨hid, hrest⟩ := List.cons_subset.1 hids
    have hnew' := Graph.not_mem_cons_of_new hnodup hnew
    have hdone' : id :: done ⊆ s.graph.ids := List.cons_subset.2 ⟨hid, hdone⟩
    rw [List.reverse_cons, List.append_assoc]
    cases hsql : s.plan.statementOf? id with
    | none =>
      rw [List.filterMap_cons_none hsql]
      exact ih (h.pass hwf hlegible hdone hsql) hdone' hfollows.2 (List.nodup_cons.1 hnodup).2
        hnew' hrest
    | some sql =>
      obtain ⟨middle, hexecute, hnext⟩ :=
        h.execute hwf hlegible hprovides (hnew id List.mem_cons_self) hfollows.1 hsql
      obtain ⟨after, hafter, hall⟩ :=
        ih hnext hdone' hfollows.2 (List.nodup_cons.1 hnodup).2 hnew' hrest
      refine ⟨after, ?_, hall⟩
      rw [List.filterMap_cons_some hsql, Engine.executeAll, Action.bind_run, hexecute]
      exact hafter

/-- What is made of a plan as a whole is known name by name. -/
theorem table?_eq (hwf : s.graph.WellFormed) (hprovides : Provides db s.graph)
    (h : Realizes s db limit s.graph.ids q) (h' : Realizes s db limit s.graph.ids q') (name : String) :
    q.table? name = q'.table? name := by
  have hcovers : s.plan.Covers s.graph s.graph.ids := Plan.ofGraph_covers hwf
  by_cases hmade : ∃ id ∈ s.graph.ids, id ∉ s.graph.roots ∧ (s.plan.find? id).isSome ∧
      name = (TableName.derived id).text
  · obtain ⟨id, hid, hroot, hplanned, rfl⟩ := hmade
    obtain ⟨planned, hfind⟩ := Option.isSome_iff_exists.1 hplanned
    obtain ⟨content, hfate⟩ := hprovides.foretold hwf hcovers limit id hid planned hfind
    obtain ⟨block, found, -, htable, -⟩ := hfate.given hwf rfl
    rw [Block.targetTable_of_ne_load (mt (Graph.mem_roots_iff hwf found).2 hroot),
      hwf.id_of_find? found] at htable
    rw [← htable, h.made id hid _ content hfate, h'.made id hid _ content hfate]
  · have hnot : ∀ id ∈ s.graph.ids, id ∉ s.graph.roots → (s.plan.find? id).isSome →
        name ≠ (TableName.derived id).text := fun id hid hroot hplanned hname =>
      hmade ⟨id, hid, hroot, hplanned, hname⟩
    rw [h.kept name hnot, h'.kept name hnot]

end Realizes

/-! ## Runs and plans -/

/-- A run comes to every planned block, since the load block above it succeeds. -/
theorem Provides.visited (hwf : s.graph.WellFormed) (hlegible : s.Legible) (h : Provides db s.graph)
    (hplanned : s.plan.find? id = some planned) :
    ((engine.runAll config s db).visits.outcome? id).isSome := by
  have hcovers : s.plan.Covers s.graph s.graph.ids := Plan.ofGraph_covers hwf
  obtain ⟨-, hcomplete⟩ := Engine.runAll_steps hwf engine config db
  obtain ⟨block, found, -⟩ := hcovers.entryOf hwf hplanned
  obtain ⟨root, hroot, ⟨above, habove⟩, hr⟩ :=
    hcovers.exists_root hwf id (hwf.mem_ids_iff.2 ⟨block, found⟩) ⟨planned, hplanned⟩
  obtain ⟨hvisited, hbelow⟩ := hcomplete root hroot
  rcases Relation.reflTransGen_iff_eq_or_transGen.1 hr with rfl | hr
  · exact hvisited
  · refine hbelow ?_ id hr
    obtain ⟨outcome, houtcome⟩ := Option.isSome_iff_exists.1 hvisited
    obtain ⟨fate, hfate, rfl⟩ := (runAll_borne hwf hlegible db config).foretold root outcome houtcome
    obtain ⟨content, hsucceeds⟩ := h.foretold hwf hcovers config.previewLimit root
      (hfate.mem_ids hwf) above habove
    rw [houtcome, hfate.unique hwf hsucceeds]
    rfl

theorem runAll_realizes (hwf : s.graph.WellFormed) (hlegible : s.Legible) (h : Provides db s.graph)
    (config : RunConfig) : Realizes s db config.previewLimit s.graph.ids
      (engine.runAll config s db).engineState := by
  have hcovers : s.plan.Covers s.graph s.graph.ids := Plan.ofGraph_covers hwf
  have hborne := runAll_borne hwf hlegible db config
  refine ⟨hborne.refusals, fun id _ table content hfate => ?_, fun name hname => ?_⟩
  · cases hfind : s.plan.find? id with
    | none => cases hfate.content?_of_left_out hwf hcovers hfind
    | some planned => exact hborne.table?_given hwf hlegible (h.visited hwf hlegible hfind) hfate
  · by_cases hmade : ∃ id, ((engine.runAll config s db).visits.outcome? id).isSome ∧
        id ∉ s.graph.roots ∧ name = (TableName.derived id).text
    · -- the run has come to the block without making anything, since it is not planned
      obtain ⟨id, hvisited, hroot, rfl⟩ := hmade
      obtain ⟨outcome, houtcome⟩ := Option.isSome_iff_exists.1 hvisited
      obtain ⟨fate, hfate, -⟩ := hborne.foretold id outcome houtcome
      have hnone : s.plan.find? id = none := Option.not_isSome_iff_eq_none.1 fun hplanned =>
        hname id (hfate.mem_ids hwf) hroot hplanned rfl
      rw [hborne.made id fate hvisited hroot hfate, hfate.content?_of_left_out hwf hcovers hnone,
        Option.none_or]
    · exact hborne.kept name fun id hvisited hroot hsame => hmade ⟨id, hvisited, hroot, hsame⟩

/-- However a session came about: on an engine that refuses nothing and has the tables of the complete
    load blocks, none of the statements of the plan fails when they are executed one after the other,
    and the tables are then those that a run leaves. -/
theorem executeAll_statements (h : s.Reachable) (hlegible : s.Legible) (hprovides : Provides db s.graph)
    (config : RunConfig) : ∃ after, engine.executeAll s.plan.statements db = (.ok (), after) ∧
      ∀ name, after.table? name = (engine.runAll config s db).engineState.table? name := by
  have hwf := h.wellFormed
  have hordered := Graph.topologicalOrder_ordered hwf
  obtain ⟨after, hexecute, hall⟩ := (Realizes.start s db config.previewLimit).executeAll hwf hlegible
    hprovides (List.nil_subset _) hordered.follows hordered.nodup (by simp) hordered.subset
  have hstatements : s.plan.statements = s.graph.topologicalOrder.filterMap s.plan.statementOf? :=
    Plan.statements_eq_of_topologicalOrder hwf
  rw [← hstatements] at hexecute
  have hafter : Realizes s db config.previewLimit s.graph.ids after := hall.of_mem_iff fun id => by
    rw [List.append_nil, List.mem_reverse, Graph.mem_topologicalOrder hwf]
  exact ⟨after, hexecute, hafter.table?_eq hwf hprovides (runAll_realizes hwf hlegible hprovides config)⟩

/-- A filter and a sort read one load block, and another load block is incomplete. The chart below the
    filter stands first in the pipeline, so it is planned before the sort, which a run comes to earlier. -/
theorem executed_in_two_orders :
    let load : BlockId := ⟨1⟩
    let filter : BlockId := ⟨2⟩
    let sort : BlockId := ⟨3⟩
    let chart : BlockId := ⟨4⟩
    let other : BlockId := ⟨5⟩
    let s := [Session.Edit.addConfig load (.load { tableName := "orders" }),
      .addConfig sort (.sort { column := "amount" }),
      .addConfig filter (.filter { column := "amount", value := some (.text "7") }),
      .addConfig chart (.chart { xAxis := "day", yAxis := "amount" }),
      .addConfig other (.load { tableName := "" }), .connect load filter, .connect load sort,
      .connect filter chart, .move chart 0].foldl Session.Edit.apply .empty
    let orders : Table := ⟨[⟨"amount", "INTEGER"⟩], [[("amount", .string "7")]]⟩
    let db : Database := ⟨[("orders", orders)], [], []⟩
    s.Reachable ∧ s.Legible ∧ Provides db s.graph ∧
      s.graph.topologicalOrder = [load, filter, chart, sort, other] ∧
      s.graph.runOrder = [load, sort, filter, chart, other] ∧
      s.plan.skipped.map SkippedBlock.id = [other] ∧
      ∃ after, engine.executeAll s.plan.statements db = (.ok (), after) ∧
        ∀ name, after.table? name = (engine.runAll {} s db).engineState.table? name := by
  intro load filter sort chart other s orders db
  have hreach : s.Reachable := .edits .empty (by decide +kernel)
  have hlegible : s.Legible := ⟨by decide +kernel, by decide +kernel⟩
  have hprovides : Provides db s.graph := ⟨rfl, by decide +kernel⟩
  exact ⟨hreach, hlegible, hprovides, by decide +kernel, by decide +kernel, by decide +kernel,
    executeAll_statements hreach hlegible hprovides {}⟩

end Memory

end BlockPipeline

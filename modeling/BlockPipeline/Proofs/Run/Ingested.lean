import BlockPipeline.Proofs.Csv.Columns
import BlockPipeline.Proofs.Run.Cascades
import BlockPipeline.Proofs.Run.Trial

set_option autoImplicit false

/-! # Tables that are taken in and loaded

A text becomes a table of the engine in memory, or it is refused and nothing changes (`ingest_eq`). The
engine keeps the table under its bare name. A load block asks for it in two queries, in which a name
that is a reserved word stands between quotes, and finds it all the same.

The block that a run begins with is run first, on the session and the engine as they are then, and
nothing that follows touches it (`Engine.run_of_attempt`). So a run of a load block shows the table as
it was taken in, whatever the session has below the block (`Memory.ingest_loaded`). -/

namespace BlockPipeline

/-! ## The block that a run begins with -/

namespace Engine

variable {σ : Type} {engine : Engine σ} {config : RunConfig} {entry : BlockId → Prop}
  {p q : Progress σ} {s : Session} {state after : σ} {id : BlockId} {block : Block}
  {table : TableName} {result : BlockResult}

/-- A block that has been visited stands as it stood then. -/
theorem Step.stands (h : engine.Step config entry p q) (hvisited : (p.visits.outcome? id).isSome) :
    q.session.graph.find? id = p.session.graph.find? id ∧
      q.session.results.find? id = p.session.results.find? id := by
  cases h with
  | @run other block found unvisited ready =>
    have hne : id ≠ other := by
      rintro rfl
      rw [unvisited] at hvisited
      cases hvisited
    rw [visit_eq engine config found]
    exact ⟨Session.find?_conclude_of_ne hne _, Session.results_conclude_of_ne hne _⟩
  | skip => exact ⟨rfl, rfl⟩

theorem Steps.stands (h : engine.Steps config entry p q) (hvisited : (p.visits.outcome? id).isSome) :
    q.session.graph.find? id = p.session.graph.find? id ∧
      q.session.results.find? id = p.session.results.find? id := by
  induction h with
  | refl => exact ⟨rfl, rfl⟩
  | tail hbefore hstep ih =>
    obtain ⟨hfind, hresult⟩ := hstep.stands (Steps.visited hbefore hvisited)
    exact ⟨hfind.trans ih.1, hresult.trans ih.2⟩

/-- Before anything has been visited, only the block with which the run begins can be. -/
theorem Steps.behind_first (h : engine.Steps config (· = id) ⟨s, state, []⟩ p)
    (hvisited : (p.visits.outcome? id).isSome) :
    engine.Steps config (· = id) (engine.visit config ⟨s, state, []⟩ id).1 p := by
  rcases Relation.ReflTransGen.cases_head h with rfl | ⟨q, hfirst, hrest⟩
  · cases hvisited
  · cases hfirst with
    | run found unvisited ready =>
      rcases ready with rfl | ⟨feeder, -, hfeeder⟩
      · exact hrest
      · cases hfeeder
    | skip unvisited fed visited halted => cases visited

/-- If the attempt to run a block succeeds, so does the block in the run that begins with it, and the
    result is the one of the attempt. -/
theorem run_of_attempt (hwf : s.graph.WellFormed) (hfind : s.graph.find? id = some block)
    (hattempt : engine.attempt config s block state = (.ok (table, result), after)) :
    ∃ p, engine.run config s state id = .ok p ∧ p.visits.outcome? id = some .succeeded ∧
      p.session.graph.find? id = some (block.succeed table) ∧
      p.session.results.find? id = some result := by
  obtain ⟨p, hrun, hsteps, hvisited, -⟩ :=
    @run_steps _ engine config s state id hwf (hwf.mem_ids_iff.2 ⟨block, hfind⟩)
  have hbehind := Steps.behind_first hsteps hvisited
  rw [visit_eq engine config hfind, hattempt] at hbehind
  have houtcome : Visits.outcome? [⟨id, .succeeded⟩] id = some .succeeded :=
    @Visits.outcome?_append_self [] id .succeeded rfl
  obtain ⟨hblock, hresult⟩ := Steps.stands hbehind (Option.isSome_of_mem houtcome)
  refine ⟨p, hrun, Steps.outcome?_eq hbehind houtcome, hblock.trans ?_, hresult.trans ?_⟩
  · exact @Graph.find?_modify_self _ _ _ (·.succeed table) hfind
  · exact Assoc.find?_insert_self _ _ _

end Engine

/-! ## The number of records -/

namespace Csv

/-- Every record takes a character at least, its end if nothing else. -/
theorem length_readRecords_le (begun here : Position) (p : Partial) (text : List Char) :
    (readRecords begun here p text).length ≤ text.length + if p.mode = .between then 0 else 1 := by
  induction text generalizing begun here p with
  | nil =>
    rw [readRecords]
    split
    · exact Nat.le_refl _
    · exact Nat.le_refl _
  | cons c rest ih =>
    rw [readRecords, List.length_cons]
    cases p.step c with
    | some next =>
      refine (ih begun (here.after c) next).trans ?_
      split <;> omega
    | none =>
      have hrest : (readRecords (here.after c) (here.after c) .start rest).length ≤ rest.length :=
        ih (here.after c) (here.after c) .start
      simp only [List.length_cons]
      omega

theorem length_records_le (text : String) : (records text).length ≤ text.length := by
  have hall (begun here : Position) (chars : List Char) :
      (readRecords begun here .start chars).length ≤ chars.length :=
    length_readRecords_le begun here .start chars
  rw [records, ← String.length_toList]
  split
  · next rest htext =>
    rw [htext]
    exact (hall _ _ rest).trans (Nat.le_succ _)
  · exact hall _ _ _

end Csv

/-! ## Taking in a table -/

namespace Memory

variable {name : TableName} {content : String} {db db' : Database} {table : Table}
  {columns : List ColumnInfo} {header : List String} {records : List (List String)}
  {s : Session} {config : RunConfig} {id : BlockId}

/-- The text has become the table of the name, with a column for each name in its header and a row for
    each record. No other table has changed. -/
structure Ingested (db : Database) (name : TableName) (content : String) (columns : List ColumnInfo)
    (table : Table) (db' : Database) : Prop where
  read : Table.ofCsv content = .ok table
  self : db'.table? name.text = some table
  others : ∀ other, other ≠ name.text → db'.table? other = db.table? other
  refusals : db'.refusals = db.refusals
  statements : db'.statements = db.statements
  schema : columns = table.columns.map ColumnInfo.ofDescription
  records : ∃ header records, Csv.fieldsOf content = header :: records ∧
    columns.map (·.name) = header ∧ List.Forall₂ (Csv.Holds table.columns) records table.rows

/-- The run of a block has succeeded and shows the table: all columns, the first rows, and how many rows
    there are. -/
structure Shown (limit : Nat) (columns : List ColumnInfo) (table : Table) (p : Progress Database)
    (id : BlockId) : Prop where
  succeeded : p.visits.outcome? id = some .succeeded
  status : (p.session.graph.find? id).map Block.status = some .success
  result : ∃ result, p.session.results.find? id = some result ∧ result.columns = columns ∧
    result.rows = table.rows.take (min limit table.rows.length) ∧
    result.rowCount = table.rows.length ∧
    (result.isComplete = true ↔ table.rows.length ≤ limit)

theorem ingest_eq (name : TableName) (content : String) (db : Database) :
    engine.ingest name content db =
      match Table.ofCsv content with
      | .ok table =>
        (.ok (table.columns.map ColumnInfo.ofDescription), db.insertTable name.text table)
      | .error error => (.error ⟨error.message⟩, db) := by
  have hregister : engine.register name content db =
      match Table.ofCsv content with
      | .ok table => (.ok (), db.insertTable name.text table)
      | .error error => (.error ⟨error.message⟩, db) := rfl
  unfold Engine.ingest
  rw [Action.bind_run, hregister]
  cases Table.ofCsv content with
  | error error => rfl
  | ok table =>
    have hdescribe : engine.describe name (db.insertTable name.text table) =
        (.ok table.columns, db.insertTable name.text table) := by
      show (Except.ok (((_ : Option Table).map Table.columns).getD []), _) = _
      rw [db.table?_insertTable_self]
      rfl
    simp only
    rw [Action.bind_run, hdescribe]
    rfl

/-- A text that is a table is taken in, and no other table is touched. -/
theorem ingested (h : Table.ofCsv content = .ok table) (db : Database) :
    Ingested db name content (table.columns.map ColumnInfo.ofDescription) table
      (db.insertTable name.text table) := by
  obtain ⟨header, records, hfields, -, hlengths, rfl⟩ := Table.ofCsv_eq_ok_iff.1 h
  refine ⟨h, db.table?_insertTable_self _ _, fun other hother => ?_, rfl, rfl, rfl, header, records,
    hfields, ?_, ?_⟩
  · exact Database.table?_insertTable_of_ne hother _
  · rw [List.map_map]
    exact Csv.names_tableOf header records
  · exact List.forall₂_map_right_iff.2
      (List.forall₂_same.2 fun fields hmem => Csv.holds_row hmem (hlengths fields hmem))

theorem Ingested.length_rows_lt (h : Ingested db name content columns table db')
    (hcontent : content.length < 2 ^ 64) : table.rows.length < 2 ^ 64 := by
  obtain ⟨header, records, hfields, -, hrows⟩ := h.records
  have hcount : (Csv.records content).length = records.length + 1 := by
    rw [← List.length_map fun record : Csv.Record => record.fields.map Text.trimmed]
    exact congrArg List.length hfields
  have hle := Csv.length_records_le content
  rw [← hrows.length_eq]
  omega

/-! ## Loading a table -/

/-- A load block whose table is there shows it, whatever there is below the block. -/
theorem exists_shown (hs : s.Reachable) (hplain : name.isPlain = true) (hrefusals : db.refusals = [])
    (htable : db.table? name.text = some table) (hrows : table.rows.length < 2 ^ 64)
    {load : LoadConfig} (hload : (s.graph.find? id).map Block.config = some (.load load))
    (hname : load.tableName = name.text) (config : RunConfig) :
    ∃ p, engine.run config s db id = .ok p ∧
      Shown config.previewLimit (table.columns.map ColumnInfo.ofDescription) table p id := by
  obtain ⟨block, hfind, hconfig⟩ := Option.map_eq_some_iff.1 hload
  have htarget : block.targetTable = name := by
    rw [Block.targetTable, hconfig]
    exact congrArg TableName.mk hname
  have hvalid : block.config.validate = .ok () := by
    rw [hconfig]
    refine Block.validate_of_isPlain ?_
    rwa [hname]
  have htrial : Trial.ofLoad db config.previewLimit block = .succeeded name table := by
    rw [Trial.ofLoad_of_no_refusals hrefusals hvalid (by rwa [htarget]), htarget]
  have hkind : block.kind = .load := by
    rw [Block.kind, hconfig]
    rfl
  obtain ⟨statements, hattempt⟩ := @attempt_load s block hkind config db
  rw [htrial] at hattempt
  obtain ⟨p, hrun, hsucceeded, hblock, hresult⟩ :=
    Engine.run_of_attempt hs.wellFormed hfind hattempt
  obtain ⟨hcolumns, hfirst, hcount, hcomplete⟩ := Table.result_of_length hrows config.previewLimit
  refine ⟨p, hrun, hsucceeded, ?_, _, hresult, hcolumns, ?_, hcount, hcomplete⟩
  · rw [hblock]
    rfl
  · rw [hfirst, List.take_eq_take_min]

/-- Whatever tables there are, a text is taken in as the table of a name just when it is a table.
    Otherwise nothing changes. Once it has been taken in, a load block of the name succeeds in every
    session, and shows the columns that were returned and the rows of the table. Rows are counted in 64
    bits, and no memory holds a text with more of them than that. -/
theorem ingest_loaded (hplain : name.isPlain = true) (hcontent : content.length < 2 ^ 64)
    (hrefusals : db.refusals = []) :
    (∀ error db', engine.ingest name content db = (.error error, db') →
      db' = db ∧ ∀ table, Table.ofCsv content ≠ .ok table) ∧
    ∀ columns db', engine.ingest name content db = (.ok columns, db') →
      ∃ table, Ingested db name content columns table db' ∧
        ∀ (s : Session) (config : RunConfig) (id : BlockId) (load : LoadConfig), s.Reachable →
          (s.graph.find? id).map Block.config = some (.load load) → load.tableName = name.text →
          ∃ p, engine.run config s db' id = .ok p ∧
            Shown config.previewLimit columns table p id := by
  rw [ingest_eq]
  cases hread : Table.ofCsv content with
  | error error =>
    refine ⟨fun _ db' h => ?_, fun columns db' h => ?_⟩
    · obtain ⟨-, rfl⟩ := Prod.mk.inj h
      exact ⟨rfl, fun table htable => by cases htable⟩
    · cases h
  | ok table =>
    refine ⟨fun _ db' h => ?_, fun columns db' h => ?_⟩
    · cases h
    · cases h
      have hingested : Ingested db name content _ table (db.insertTable name.text table) :=
        ingested hread db
      refine ⟨table, hingested, fun s config id load hs hload hname => ?_⟩
      exact exists_shown hs hplain (hingested.refusals.trans hrefusals) hingested.self
        (hingested.length_rows_lt hcontent) hload hname config

/-- A table that is called by a reserved word is to be taken in anew. A text with a short record leaves
    it as it is. Another text takes its place, and a load block that is followed by a filter shows two
    of its three rows. -/
theorem ingested_reserved :
    let name : TableName := ⟨"order"⟩
    let load : BlockId := ⟨1⟩
    let filter : BlockId := ⟨2⟩
    let s := [Session.Edit.addConfig load (.load { tableName := "order" }),
      .addConfig filter (.filter { column := "id", value := some (.text "7") }),
      .connect load filter].foldl Session.Edit.apply .empty
    let db : Database := ⟨[("order", ⟨[⟨"id", "BIGINT"⟩], []⟩), ("sales", ⟨[], []⟩)], [], []⟩
    let content := "id,paid\n1,true\n2,false\n3,true\n"
    name.isPlain = true ∧ content.length < 2 ^ 64 ∧ db.refusals = [] ∧ s.Reachable ∧
      (s.graph.find? load).map Block.config = some (.load { tableName := "order" }) ∧
      (∃ error, engine.ingest name "id,paid\n1\n" db = (.error error, db)) ∧
      ∃ columns table db' p, engine.ingest name content db = (.ok columns, db') ∧
        columns = [⟨"id", .number⟩, ⟨"paid", .boolean⟩] ∧
        Ingested db name content columns table db' ∧
        engine.run { previewLimit := 2 } s db' load = .ok p ∧ Shown 2 columns table p load ∧
        table.rows.length = 3 := by
  intro name load filter s db content
  have hplain : name.isPlain = true := by decide
  have hreach : s.Reachable := .edits .empty (by decide +kernel)
  have hload : (s.graph.find? load).map Block.config = some (.load { tableName := "order" }) := by
    decide +kernel
  obtain ⟨hrefused, -⟩ := @ingest_loaded name "id,paid\n1\n" db hplain (by decide) rfl
  obtain ⟨-, htaken⟩ := @ingest_loaded name content db hplain (by decide) rfl
  have hbad : (engine.ingest name "id,paid\n1\n" db).1.isOk = false := by decide +kernel
  have hgood : (engine.ingest name content db).1.toOption =
      some [⟨"id", .number⟩, ⟨"paid", .boolean⟩] := by decide +kernel
  have hrows : ((engine.ingest name content db).2.table? "order").map (·.rows.length) = some 3 := by
    decide +kernel
  refine ⟨hplain, by decide, rfl, hreach, hload, ?_, ?_⟩
  · cases hingest : engine.ingest name "id,paid\n1\n" db with
    | mk answer db' =>
      cases answer with
      | ok columns =>
        rw [hingest] at hbad
        cases hbad
      | error error => exact ⟨error, by rw [(hrefused error db' hingest).1]⟩
  · cases hingest : engine.ingest name content db with
    | mk answer db' =>
      rw [hingest] at hgood hrows
      obtain rfl := toOption_eq_some_iff.1 hgood
      obtain ⟨table, hingested, hshown⟩ := htaken _ db' hingest
      obtain ⟨p, hrun, hp⟩ := hshown s { previewLimit := 2 } load _ hreach hload rfl
      refine ⟨_, table, db', p, rfl, rfl, hingested, hrun, hp, ?_⟩
      rw [show db'.table? "order" = some table from hingested.self] at hrows
      exact Option.some.inj hrows

end Memory

end BlockPipeline

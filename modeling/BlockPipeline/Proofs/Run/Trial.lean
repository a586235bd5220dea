import BlockPipeline.Proofs.Engine.Fetch
import BlockPipeline.Proofs.Run.Calls
import BlockPipeline.Proofs.Session.Outputs
import BlockPipeline.Proofs.Sql.Creation
import BlockPipeline.Proofs.Sql.Names

set_option autoImplicit false

/-! # Running one block on the engine in memory

What comes of running a block on the engine in memory is a `Trial`: its table with the content, or the
message of a failure, before which the table may have been made. The trial is known from the block,
from the table that it reads, and from the tables and refusals of the engine; `attempt_load` and
`attempt_copy` say that an attempt to run the block comes to it, and what it leaves in the engine. -/

namespace BlockPipeline

namespace Memory

variable {db db' : Database} {limit : Nat} {s : Session} {block : Block} {table input : TableName}
  {content : Table}

/-! ## Tables that may have been made -/

/-- The database with a table, if one has been made. -/
def Database.with? (db : Database) (table : TableName) : Option Table → Database
  | some content => db.insertTable table.text content
  | none => db

namespace Database

theorem refusals_with? (db : Database) (table : TableName) (made : Option Table) :
    (db.with? table made).refusals = db.refusals := by
  cases made <;> rfl

theorem table?_with?_self (db : Database) (table : TableName) (made : Option Table) :
    (db.with? table made).table? table.text = made.or (db.table? table.text) := by
  cases made with
  | none => rfl
  | some content => exact db.table?_insertTable_self table.text content

theorem table?_with?_of_ne {name : String} (h : name ≠ table.text) (db : Database)
    (made : Option Table) : (db.with? table made).table? name = db.table? name := by
  cases made with
  | none => rfl
  | some content => exact table?_insertTable_of_ne h content

end Database

/-! ## Trials -/

/-- What comes of running one block. Its table may have been made before a failure. -/
inductive Trial where
  | failed (message : String) (made : Option Table)
  | succeeded (table : TableName) (content : Table)

namespace Trial

/-- What is recorded of the block. -/
def outcome : Trial → Outcome
  | failed message _ => .failed message
  | succeeded _ _ => .succeeded

/-- The content of the table of the block, if there is one on account of it. -/
def content? : Trial → Option Table
  | failed _ made => made
  | succeeded _ content => some content

/-- The table and its result, or why there are none. -/
def answer (limit : Nat) : Trial → Except String (TableName × BlockResult)
  | failed message _ => .error message
  | succeeded table content => .ok (table, content.result limit)

/-- A table whose result is to be fetched. -/
def ofFetch (table : TableName) (made : Option Table) : Except EngineError Table → Trial
  | .error error => failed error.message made
  | .ok content => succeeded table content

/-- What comes of a load block: its table is there or not. -/
def ofLoad (db : Database) (limit : Nat) (block : Block) : Trial :=
  match block.config.validate with
  | .error error => failed error.message none
  | .ok () => ofFetch block.targetTable none (db.fetched limit block.targetTable)

/-- What comes of a block that reads a table: it makes a copy. -/
def ofCopy (db : Database) (limit : Nat) (block : Block) (input : TableName) (content : Table) :
    Trial :=
  match block.config.validate with
  | .error error => failed error.message none
  | .ok () =>
    match db.accept (Sql.compile block.config input block.targetTable).text with
    | .error error => failed error.message none
    | .ok () => ofFetch block.targetTable (some content)
      ((db.insertTable block.targetTable.text content).fetched limit block.targetTable)

/-- A table that has been made stays, whatever comes of the fetch. -/
theorem content?_ofFetch (h : db.table? table.text = some content) :
    (ofFetch table (some content) (db.fetched limit table)).content? = some content := by
  cases hfetched : db.fetched limit table with
  | error error => rfl
  | ok found => exact (fetched_eq_ok hfetched).symm.trans h

theorem ofLoad_congr (hrefusals : db'.refusals = db.refusals)
    (htable : db'.table? block.targetTable.text = db.table? block.targetTable.text) :
    ofLoad db' limit block = ofLoad db limit block := by
  rw [ofLoad, ofLoad, fetched_congr hrefusals htable]

theorem ofCopy_congr (hrefusals : db'.refusals = db.refusals) :
    ofCopy db' limit block input content = ofCopy db limit block input content := by
  have hfetched : (db'.insertTable block.targetTable.text content).fetched limit block.targetTable =
      (db.insertTable block.targetTable.text content).fetched limit block.targetTable :=
    fetched_congr hrefusals
      ((db'.table?_insertTable_self _ _).trans (db.table?_insertTable_self _ _).symm)
  rw [ofCopy, ofCopy, Database.accept_congr hrefusals, hfetched]

/-- How the block went before does not matter. -/
theorem ofLoad_of_outline {block' : Block} (h : block'.outline = block.outline) :
    ofLoad db limit block' = ofLoad db limit block := by
  obtain ⟨-, -, hconfig⟩ := BlockDefinition.mk.inj h
  rw [ofLoad, ofLoad, hconfig, Block.targetTable_of_outline h]

theorem ofCopy_of_outline {block' : Block} (h : block'.outline = block.outline) :
    ofCopy db limit block' input content = ofCopy db limit block input content := by
  obtain ⟨-, -, hconfig⟩ := BlockDefinition.mk.inj h
  rw [ofCopy, ofCopy, hconfig, Block.targetTable_of_outline h]

theorem ofLoad_eq_succeeded (h : ofLoad db limit block = succeeded table content) :
    block.config.validate = .ok () ∧ table = block.targetTable ∧
      db.table? block.targetTable.text = some content := by
  unfold ofLoad at h
  split at h
  · cases h
  · next hvalid =>
    cases hfetched : db.fetched limit block.targetTable with
    | error error =>
      rw [hfetched] at h
      cases h
    | ok found =>
      rw [hfetched] at h
      cases h
      exact ⟨hvalid, rfl, fetched_eq_ok hfetched⟩

/-- Where nothing is refused, a complete load block succeeds if its table is there. -/
theorem ofLoad_of_no_refusals (h : db.refusals = []) (hvalid : block.config.validate = .ok ())
    (htable : db.table? block.targetTable.text = some content) :
    ofLoad db limit block = succeeded block.targetTable content := by
  rw [ofLoad, hvalid, fetched_of_no_refusals h htable]
  rfl

/-- A copy has what its input has. -/
theorem ofCopy_eq_succeeded {source : Table}
    (h : ofCopy db limit block input source = succeeded table content) :
    block.config.validate = .ok () ∧ table = block.targetTable ∧ content = source := by
  unfold ofCopy at h
  split at h
  · cases h
  · next hvalid =>
    split at h
    · cases h
    · cases hfetched :
        (db.insertTable block.targetTable.text source).fetched limit block.targetTable with
      | error error =>
        rw [hfetched] at h
        cases h
      | ok found =>
        rw [hfetched] at h
        cases h
        have hfound := db.table?_insertTable_self block.targetTable.text source
        exact ⟨hvalid, rfl, Option.some.inj ((fetched_eq_ok hfetched).symm.trans hfound)⟩

end Trial

/-! ## Blocks that are run -/

theorem noting_nil (db : Database) : db.noting [] = db := by
  rw [Database.noting, List.append_nil]

/-- A block whose table has been made comes to what is fetched of it. -/
theorem attempt_of_make {work : Work} {middle : Database} (htask : s.task block = .ok work)
    (hplain : work.output.isPlain = true) (hmake : engine.make work db = (.ok (), middle))
    (config : RunConfig) (made : Option Table) : ∃ statements, engine.attempt config s block db =
      ((Trial.ofFetch work.output made
        (middle.fetched config.previewLimit work.output)).answer config.previewLimit,
        middle.noting statements) := by
  obtain ⟨statements, hfetch⟩ := fetch_eq config hplain middle
  have hperform : engine.perform config work db =
      ((middle.fetched config.previewLimit work.output).map (·.result config.previewLimit),
        middle.noting statements) := by
    rw [Engine.perform_eq, Action.bind_run, hmake]
    exact hfetch
  refine ⟨statements, ?_⟩
  rw [Engine.attempt, htask]
  simp only
  rw [hperform]
  cases middle.fetched config.previewLimit work.output <;> rfl

/-- A block that cannot run changes nothing. -/
theorem attempt_of_invalid {error : ValidationError} (hvalid : block.config.validate = .error error)
    (config : RunConfig) (db : Database) :
    engine.attempt config s block db = (.error error.message, db.noting []) := by
  have htask : s.task block = .error error.message := by rw [Session.task, hvalid]
  rw [Engine.attempt_of_no_task _ htask, noting_nil]

theorem isPlain_targetTable (hvalid : block.config.validate = .ok ()) :
    block.targetTable.isPlain = true := by
  unfold Block.targetTable
  cases hconfig : block.config with
  | load load =>
    rw [hconfig] at hvalid
    exact Block.isPlain_of_validate hvalid
  | _ => exact TableName.isPlain_derived block.id

/-- The attempt to run a load block changes no table. -/
theorem attempt_load (hload : block.kind = .load) (config : RunConfig) (db : Database) :
    ∃ statements, engine.attempt config s block db =
      ((Trial.ofLoad db config.previewLimit block).answer config.previewLimit,
        db.noting statements) := by
  unfold Trial.ofLoad
  cases hvalid : block.config.validate with
  | error error => exact ⟨[], attempt_of_invalid hvalid config db⟩
  | ok _ =>
    have htask : s.task block = .ok ⟨block.targetTable, none⟩ :=
      Session.task_eq_ok_iff.2 ⟨hvalid, Session.work_of_source (BlockKind.isSource_iff.2 hload)⟩
    exact attempt_of_make htask (isPlain_targetTable hvalid) rfl config none

/-- A block that is no load block has a statement to run. -/
theorem statement?_compile (hload : block.kind ≠ .load) (input output : TableName) :
    Work.statement? (Sql.compile block.config input output) =
      some (Sql.compile block.config input output).text := by
  have hcreates := Sql.creates_compile (BlockKind.isSource_eq_false_iff.2 hload) input output
  rw [Work.statement?, ← Sql.Statement.isEmpty_text, if_neg (Sql.not_isEmpty_of_creates hcreates)]

/-- The attempt to run a block that reads a table makes a copy of that table, unless the statement is
    refused. -/
theorem attempt_copy (hload : block.kind ≠ .load)
    (hlate : ∀ text ∈ block.config.lateTexts, ¬ " FROM ".toList <:+: text.toList)
    (hinput : s.inputTable? block.id = some input) (hplain : input.isPlain = true)
    (hcontent : db.table? input.text = some content) (config : RunConfig) :
    ∃ statements, engine.attempt config s block db =
      ((Trial.ofCopy db config.previewLimit block input content).answer config.previewLimit,
        (db.with? block.targetTable
          (Trial.ofCopy db config.previewLimit block input content).content?).noting statements) := by
  unfold Trial.ofCopy
  cases hvalid : block.config.validate with
  | error error => exact ⟨[], attempt_of_invalid hvalid config db⟩
  | ok _ =>
    have hsource : block.kind.isSource = false := BlockKind.isSource_eq_false_iff.2 hload
    have htask : s.task block = .ok ⟨block.targetTable,
        some (Sql.compile block.config input block.targetTable).text⟩ := by
      refine Session.task_eq_ok_iff.2 ⟨hvalid, ?_⟩
      rw [Session.work_of_input (by simp [hsource]) hinput, statement?_compile hload]
    have hexecute :=
      execute_making hload hlate hplain (isPlain_targetTable hvalid) hcontent
    have hrun := Action.bind_run (engine.execute (Sql.compile block.config input block.targetTable).text)
      (fun _ => pure ()) db
    rw [hexecute] at hrun
    cases haccept : db.accept (Sql.compile block.config input block.targetTable).text with
    | error error =>
      rw [haccept] at hrun
      refine ⟨[(Sql.compile block.config input block.targetTable).text], ?_⟩
      rw [Engine.attempt, htask]
      simp only
      rw [Engine.perform_eq, Action.bind_run, Engine.make]
      simp only
      rw [hrun]
      rfl
    | ok _ =>
      rw [haccept] at hrun
      obtain ⟨statements, hattempt⟩ := attempt_of_make htask (isPlain_targetTable hvalid) hrun config
        (some content)
      have hfetched : ∀ more, ((db.insertTable block.targetTable.text content).noting more).fetched
          config.previewLimit block.targetTable =
          (db.insertTable block.targetTable.text content).fetched config.previewLimit
            block.targetTable := fun _ => rfl
      rw [hfetched, Database.noting_noting] at hattempt
      simp only
      rw [Trial.content?_ofFetch (Database.table?_insertTable_self _ _ _)]
      exact ⟨_, hattempt⟩

end Memory

end BlockPipeline

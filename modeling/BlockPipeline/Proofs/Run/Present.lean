import BlockPipeline.Proofs.Run.Trial

set_option autoImplicit false

/-! # What a block would come to now

Any block can be run at any time, also one whose input has not been made or is no longer there. What
comes of it is known from the session and the tables and refusals of the engine (`Trial.now`), and
`attempt_now` says what the attempt leaves in the engine: the table of the block may be there with the
content that the block had before it (`held?`), and all other tables are as they were. -/

namespace BlockPipeline

/-- The table that a block goes by: its own if it is a load block, and else its input. -/
def Session.sourceTable? (s : Session) (block : Block) : Option TableName :=
  if block.kind.isSource then some block.targetTable else s.inputTable? block.id

namespace Memory

variable {db db' : Database} {limit : Nat} {s s' : Session} {block : Block} {table input : TableName}
  {content : Table}

/-- The content of the table that a block goes by. -/
def held? (s : Session) (db : Database) (block : Block) : Option Table :=
  (s.sourceTable? block).bind fun table => db.table? table.text

theorem held?_of_source (h : block.kind.isSource = true) :
    held? s db block = db.table? block.targetTable.text := by
  rw [held?, Session.sourceTable?, if_pos h, Option.bind_some]

theorem held?_of_input (h : ¬ block.kind.isSource = true)
    (hinput : s.inputTable? block.id = some input) : held? s db block = db.table? input.text := by
  rw [held?, Session.sourceTable?, if_neg h, hinput, Option.bind_some]

namespace Trial

/-- What comes of a block whose input has not been made. -/
def ofUnfed (block : Block) : Trial :=
  match block.config.validate with
  | .error error => failed error.message none
  | .ok () => failed PipelineError.missingInput.message none

/-- What comes of a block that reads a table, which may be missing. -/
def ofInput (db : Database) (limit : Nat) (block : Block) (input : TableName) : Trial :=
  match db.table? input.text with
  | some content => ofCopy db limit block input content
  | none =>
    match block.config.validate with
    | .error error => failed error.message none
    | .ok () => ofFetch block.targetTable none (do
      db.accept (Sql.compile block.config input block.targetTable).text
      db.lookUp (Sql.tableToken input).chars)

/-- What would come of a block if it were run now. -/
def now (s : Session) (db : Database) (limit : Nat) (block : Block) : Trial :=
  if block.kind.isSource then ofLoad db limit block
  else match s.inputTable? block.id with
    | none => ofUnfed block
    | some input => ofInput db limit block input

theorem now_of_source (h : block.kind.isSource = true) : now s db limit block = ofLoad db limit block :=
  if_pos h

theorem now_of_unfed (h : ¬ block.kind.isSource = true) (hinput : s.inputTable? block.id = none) :
    now s db limit block = ofUnfed block := by
  rw [now, if_neg h, hinput]

theorem now_of_input (h : ¬ block.kind.isSource = true)
    (hinput : s.inputTable? block.id = some input) :
    now s db limit block = ofInput db limit block input := by
  rw [now, if_neg h, hinput]

theorem ofInput_congr (hrefusals : db'.refusals = db.refusals)
    (htable : db'.table? input.text = db.table? input.text) :
    ofInput db' limit block input = ofInput db limit block input := by
  rw [ofInput, ofInput, htable, Database.accept_congr hrefusals, Database.lookUp, Database.lookUp,
    tableName_tableToken, htable]
  cases db.table? input.text with
  | none => rfl
  | some content => exact ofCopy_congr hrefusals

/-- What comes of a block depends on its input, on what is held by the table that it goes by, and on
    what the engine refuses. -/
theorem now_congr (hrefusals : db'.refusals = db.refusals)
    (hinput : s'.inputTable? block.id = s.inputTable? block.id)
    (hheld : held? s' db' block = held? s db block) :
    now s' db' limit block = now s db limit block := by
  by_cases h : block.kind.isSource = true
  · rw [held?_of_source h, held?_of_source h] at hheld
    rw [now_of_source h, now_of_source h, ofLoad_congr hrefusals hheld]
  · cases hfed : s.inputTable? block.id with
    | none => rw [now_of_unfed h hfed, now_of_unfed h (hinput.trans hfed)]
    | some input =>
      rw [held?_of_input h hfed, held?_of_input h (hinput.trans hfed)] at hheld
      rw [now_of_input h hfed, now_of_input h (hinput.trans hfed), ofInput_congr hrefusals hheld]

/-- How the block went before does not matter. -/
theorem now_of_outline {block' : Block} (h : block'.outline = block.outline) :
    now s db limit block' = now s db limit block := by
  obtain ⟨hid, -, hconfig⟩ := BlockDefinition.mk.inj h
  have hload := @ofLoad_of_outline db limit block block' h
  have hcopy := fun input content => @ofCopy_of_outline db limit block input content block' h
  unfold now ofUnfed ofInput
  simp only [hload, hcopy, Block.kind_of_outline h, hid, hconfig, Block.targetTable_of_outline h]

/-! ## What is made -/

theorem content?_ofFetch_none {fetched : Except EngineError Table}
    (h : (ofFetch table none fetched).content? = some content) : fetched = .ok content := by
  cases fetched with
  | error error => cases h
  | ok found => exact congrArg Except.ok (Option.some.inj h)

theorem content?_ofCopy {source : Table} (h : (ofCopy db limit block input source).content? =
    some content) : content = source := by
  unfold ofCopy at h
  split at h
  · cases h
  · split at h
    · cases h
    · rw [content?_ofFetch (Database.table?_insertTable_self db block.targetTable.text source)] at h
      exact (Option.some.inj h).symm

/-- What the table of a block holds on account of it is what the block went by. -/
theorem content?_now (h : (now s db limit block).content? = some content) :
    held? s db block = some content := by
  by_cases hsource : block.kind.isSource = true
  · rw [now_of_source hsource, ofLoad] at h
    rw [held?_of_source hsource]
    split at h
    · cases h
    · exact fetched_eq_ok (content?_ofFetch_none h)
  · cases hfed : s.inputTable? block.id with
    | none =>
      rw [now_of_unfed hsource hfed, ofUnfed] at h
      split at h <;> cases h
    | some input =>
      rw [now_of_input hsource hfed, ofInput] at h
      rw [held?_of_input hsource hfed]
      split at h
      · next source hsome => rw [hsome, content?_ofCopy h]
      · split at h
        · cases h
        · obtain ⟨_, -, hfound⟩ := bind_eq_ok_iff.1 (content?_ofFetch_none h)
          exact lookUp_eq_ok_iff.1 hfound

/-- A block that succeeds gives its own table. -/
theorem now_eq_succeeded (h : now s db limit block = succeeded table content) :
    table = block.targetTable := by
  have hfetch : ∀ made fetched, ofFetch block.targetTable made fetched = succeeded table content →
      table = block.targetTable := by
    intro made fetched hfetched
    cases fetched with
    | error error => cases hfetched
    | ok found =>
      cases hfetched
      rfl
  by_cases hsource : block.kind.isSource = true
  · rw [now_of_source hsource] at h
    exact (ofLoad_eq_succeeded h).2.1
  · cases hfed : s.inputTable? block.id with
    | none =>
      rw [now_of_unfed hsource hfed, ofUnfed] at h
      split at h <;> cases h
    | some input =>
      rw [now_of_input hsource hfed, ofInput] at h
      split at h
      · exact (ofCopy_eq_succeeded h).2.1
      · split at h
        · cases h
        · exact hfetch _ _ h

end Trial

/-! ## Attempts -/

/-- What an attempt that comes to the trial leaves in the engine. The table of the block may have been
    made, and no other one has changed. -/
structure Leaves (trial : Trial) (table : TableName) (db after : Database) : Prop where
  refusals : after.refusals = db.refusals
  tables : ∀ name, after.table? name =
    if name = table.text then trial.content?.or (db.table? name) else db.table? name

theorem leaves_with? (trial : Trial) (table : TableName) (db : Database) (statements : List String) :
    Leaves trial table db ((db.with? table trial.content?).noting statements) := by
  refine ⟨Database.refusals_with? db table trial.content?, fun name => ?_⟩
  show (db.with? table trial.content?).table? name = _
  split
  · next hname => rw [hname, Database.table?_with?_self]
  · next hname => exact Database.table?_with?_of_ne hname db trial.content?

/-- Where no table is made, what the table of the block holds is there before. -/
theorem leaves_noting {trial : Trial} (h : ∀ content, trial.content? = some content →
    db.table? table.text = some content) (statements : List String) :
    Leaves trial table db (db.noting statements) := by
  refine ⟨rfl, fun name => ?_⟩
  show db.table? name = _
  split
  · next hname =>
    rw [hname]
    cases hmade : trial.content? with
    | none => rfl
    | some content => exact h content hmade
  · rfl

/-- A statement whose input is missing is refused, or fails for that. -/
theorem execute_missing {config : BlockConfig} {output : TableName} (h : config.kind ≠ .load)
    (hlate : ∀ text ∈ config.lateTexts, ¬ " FROM ".toList <:+: text.toList)
    (hinput : input.isPlain = true) (houtput : output.isPlain = true)
    (hmissing : db.table? input.text = none) :
    ∃ error, (do db.accept (Sql.compile config input output).text
                 db.lookUp (Sql.tableToken input).chars) = .error error ∧
      engine.execute (Sql.compile config input output).text db =
        (.error error, db.noting [(Sql.compile config input output).text]) := by
  have hlook : ∃ error, db.lookUp (Sql.tableToken input).chars = .error error := by
    rw [Database.lookUp, tableName_tableToken, hmissing]
    exact ⟨_, rfl⟩
  obtain ⟨error, hlook⟩ := hlook
  have hnoted : (db.noting [(Sql.compile config input output).text]).lookUp
      (Sql.tableToken input).chars = .error error := hlook
  rw [execute_of_form (form?_compile h hlate hinput houtput)]
  simp only [Database.runForm, hnoted, hlook]
  cases db.accept (Sql.compile config input output).text with
  | error refusal => exact ⟨refusal, rfl, rfl⟩
  | ok _ => exact ⟨error, rfl, rfl⟩

/-- The attempt to run a block whose input is missing changes no table. -/
theorem attempt_missing (hload : block.kind ≠ .load)
    (hlate : ∀ text ∈ block.config.lateTexts, ¬ " FROM ".toList <:+: text.toList)
    (hinput : s.inputTable? block.id = some input) (hplain : input.isPlain = true)
    (hmissing : db.table? input.text = none) (config : RunConfig) :
    ∃ message statements, Trial.ofInput db config.previewLimit block input = .failed message none ∧
      engine.attempt config s block db = (.error message, db.noting statements) := by
  unfold Trial.ofInput
  rw [hmissing]
  cases hvalid : block.config.validate with
  | error error => exact ⟨_, [], rfl, attempt_of_invalid hvalid config db⟩
  | ok _ =>
    have hsource : block.kind.isSource = false := BlockKind.isSource_eq_false_iff.2 hload
    obtain ⟨error, herror, hexecute⟩ :=
      execute_missing hload hlate hplain (isPlain_targetTable hvalid) hmissing
    have htask : s.task block = .ok ⟨block.targetTable,
        some (Sql.compile block.config input block.targetTable).text⟩ := by
      refine Session.task_eq_ok_iff.2 ⟨hvalid, ?_⟩
      rw [Session.work_of_input (by simp [hsource]) hinput, statement?_compile hload]
    refine ⟨error.message, [(Sql.compile block.config input block.targetTable).text], ?_, ?_⟩
    · simp only
      rw [herror]
      rfl
    · rw [Engine.attempt, htask]
      simp only
      rw [Engine.perform_eq, Action.bind_run, Engine.make]
      simp only
      rw [Action.bind_run, hexecute]

/-- The attempt to run a block without an input asks nothing of the engine. -/
theorem attempt_unfed (hsource : ¬ block.kind.isSource = true) (hfed : s.inputTable? block.id = none)
    (config : RunConfig) (db : Database) :
    engine.attempt config s block db = ((Trial.ofUnfed block).answer config.previewLimit, db) ∧
      (Trial.ofUnfed block).content? = none := by
  unfold Trial.ofUnfed
  cases hvalid : block.config.validate with
  | error error =>
    have htask : s.task block = .error error.message := by rw [Session.task, hvalid]
    exact ⟨Engine.attempt_of_no_task db htask, rfl⟩
  | ok _ =>
    have htask : s.task block = .error PipelineError.missingInput.message := by
      rw [Session.task, hvalid, Session.work, if_neg hsource, hfed]
    exact ⟨Engine.attempt_of_no_task db htask, rfl⟩

/-- An attempt to run a block comes to what is foreseen, whatever there is to be read. -/
theorem attempt_now
    (hlate : ∀ text ∈ block.config.lateTexts, ¬ " FROM ".toList <:+: text.toList)
    (hplain : ∀ input, s.inputTable? block.id = some input → input.isPlain = true)
    (config : RunConfig) (db : Database) : ∃ after, engine.attempt config s block db =
      ((Trial.now s db config.previewLimit block).answer config.previewLimit, after) ∧
      Leaves (Trial.now s db config.previewLimit block) block.targetTable db after := by
  by_cases hsource : block.kind.isSource = true
  · have hload := BlockKind.isSource_iff.1 hsource
    obtain ⟨statements, hattempt⟩ := @attempt_load s block hload config db
    refine ⟨db.noting statements, ?_, leaves_noting ?_ statements⟩
    · rwa [Trial.now_of_source hsource]
    · intro content hcontent
      rw [← held?_of_source (s := s) hsource]
      exact Trial.content?_now hcontent
  · have hload : block.kind ≠ .load := mt BlockKind.isSource_iff.2 hsource
    cases hfed : s.inputTable? block.id with
    | none =>
      rw [Trial.now_of_unfed hsource hfed]
      obtain ⟨hattempt, hnone⟩ := attempt_unfed hsource hfed config db
      refine ⟨db, hattempt, rfl, fun name => ?_⟩
      rw [hnone, Option.none_or, ite_self]
    | some input =>
      rw [Trial.now_of_input hsource hfed]
      cases hcontent : db.table? input.text with
      | none =>
        obtain ⟨message, statements, htrial, hattempt⟩ :=
          attempt_missing hload hlate hfed (hplain input hfed) hcontent config
        rw [htrial]
        exact ⟨db.noting statements, hattempt, leaves_noting (fun _ hnone => by cases hnone) _⟩
      | some content =>
        have htrial : Trial.ofInput db config.previewLimit block input =
            Trial.ofCopy db config.previewLimit block input content := by
          rw [Trial.ofInput, hcontent]
        obtain ⟨statements, hattempt⟩ :=
          attempt_copy hload hlate hfed (hplain input hfed) hcontent config
        rw [htrial]
        exact ⟨_, hattempt, leaves_with? _ _ db statements⟩

end Memory

end BlockPipeline

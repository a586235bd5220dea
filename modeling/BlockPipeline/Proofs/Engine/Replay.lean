import BlockPipeline.Proofs.Engine.Memory
import BlockPipeline.Proofs.Run.Planned

set_option autoImplicit false

/-! # Replays

What an engine noted can be replayed: it answered each call, in the state that the calls before had
left, as is noted (`Replayed`). On the engine in memory it can be told from the notes which tables
there are. A statement that makes a table and is not refused puts the table there, one that is refused
changes nothing, and only the statement that removes a table takes it away. -/

namespace BlockPipeline

variable {σ : Type} {config : RunConfig} {s : Session} {block : Block} {id other : BlockId}
  {kind : BlockKind} {call : Call} {segment transcript : Transcript} {outcome : Outcome}

namespace Engine

/-- The error by which the engine refuses the call in the state, if it does. -/
def refusalOf (engine : Engine σ) (state : σ) : Call → Option EngineError
  | .execute sql => refusal? (engine.execute sql state).1
  | .describe table => refusal? (engine.describe table state).1
  | .register table content => refusal? (engine.register table content state).1

/-- From the first state on the engine answered the calls as is noted, and came to the last state. -/
inductive Replayed (engine : Engine σ) (start : σ) : Transcript → σ → Prop where
  | nil : Replayed engine start [] start
  | snoc {transcript : Transcript} {state : σ} (past : Replayed engine start transcript state)
    (call : Call) : Replayed engine start (transcript ++ [⟨call, engine.refusalOf state call⟩])
      (engine.respond state call)

/-- What an engine that notes its calls has noted can be replayed. -/
theorem transcribing_keeps_replayed (engine : Engine σ) (start : σ) :
    engine.transcribing.Keeps fun present => engine.Replayed start present.2 present.1 :=
  ⟨fun sql _ h => h.snoc (.execute sql), fun table _ h => h.snoc (.describe table)⟩

end Engine

/-! ## Calls that make or remove tables -/

/-- The call makes the table, and was not refused. -/
structure Exchange.Makes (exchange : Exchange) (table : TableName) : Prop where
  accepted : exchange.refusal = none
  creates : exchange.call.creates = true
  target : exchange.call.target?.map Sql.Target.name = some table

/-- The call removes a table or view. -/
structure Call.Removes (call : Call) : Prop where
  target : call.target?.isSome = true
  not_creates : call.creates = false

theorem Sql.creates_drop (h : kind ≠ .load) (table : TableName) :
    Sql.creates (Sql.drop kind table).text = false := by
  rw [Sql.drop_eq h]
  obtain ⟨rest, htext⟩ := Sql.text_word "DROP"
    (Sql.keywords [kind.object, "IF", "EXISTS"] ++ [Sql.tableToken table]) []
  have hwords : Sql.keywords ["DROP", kind.object, "IF", "EXISTS"] ++ [Sql.tableToken table] =
      .word "DROP" :: (Sql.keywords [kind.object, "IF", "EXISTS"] ++ [Sql.tableToken table]) := rfl
  rw [hwords, Sql.creates, htext]
  rfl

namespace Issued

theorem removes_drop (h : kind ≠ .load) : Call.Removes (.execute (Sql.drop kind (.derived id)).text) :=
  ⟨by rw [Call.target?, Sql.target?_drop h]; rfl, Sql.creates_drop h _⟩

/-- Of the calls for a block the one that makes something is the statement of its configuration. -/
theorem eq_compile (h : Issued id kind call) (hcreates : call.creates = true) :
    ∃ config input, BlockConfig.kind config = kind ∧ kind ≠ .load ∧
      call = .execute (Sql.compile config input (.derived id)).text := by
  cases h with
  | describe table => cases hcreates
  | preview table limit =>
    rw [Call.creates, Sql.creates_preview] at hcreates
    cases hcreates
  | countRows table =>
    rw [Call.creates, Sql.creates_countRows] at hcreates
    cases hcreates
  | @make config input kind_eq derived => exact ⟨config, input, kind_eq, derived, rfl⟩
  | drop derived =>
    rw [Call.creates, Sql.creates_drop derived] at hcreates
    cases hcreates

/-- What is made for a block is the table of that block, and it is no load block. -/
theorem eq_of_makes {exchange : Exchange} (h : Issued id kind exchange.call)
    (hmakes : exchange.Makes (.derived other)) : kind ≠ .load ∧ id = other := by
  obtain ⟨config, input, rfl, hkind, hcall⟩ := h.eq_compile hmakes.creates
  have hname := hmakes.target
  rw [hcall, Call.target?, Sql.target?_compile hkind, Option.map_some, Option.some_inj] at hname
  exact ⟨hkind, TableName.derived_injective hname⟩

end Issued

theorem not_removes_of_mem_fetchCalls {table : TableName} (h : call ∈ fetchCalls config table) :
    ¬ call.Removes := by
  intro hremoves
  have htarget := hremoves.target
  simp only [fetchCalls, List.mem_cons, List.not_mem_nil, or_false] at h
  rcases h with rfl | rfl | rfl
  · cases htarget
  · rw [Call.target?, Sql.target?_of_isQuery (Sql.isQuery_preview table _)] at htarget
    cases htarget
  · rw [Call.target?, Sql.target?_of_isQuery (Sql.isQuery_countRows table)] at htarget
    cases htarget

/-- To run a block removes nothing. -/
theorem Told.not_removes (h : Told config s block outcome segment) :
    ∀ exchange ∈ segment, ¬ exchange.call.Removes := by
  intro exchange hmem
  cases h with
  | incomplete _ => cases hmem
  | unfed _ _ _ => cases hmem
  | load _ _ answers => exact not_removes_of_mem_fetchCalls (answers.call_mem hmem)
  | fed _ kind input_eq answers =>
    rcases List.mem_cons.1 (answers.call_mem hmem) with hmake | hfetch
    · intro hremoves
      have hcreates := hremoves.not_creates
      have hsource : block.config.kind.isSource = false := BlockKind.isSource_eq_false_iff.2 kind
      rw [hmake, Call.creates, Sql.creates_compile hsource] at hcreates
      cases hcreates
    · exact not_removes_of_mem_fetchCalls hfetch

theorem Conducted.not_removes {engine : Engine σ} {entry : BlockId → Prop}
    {start p : Progress (σ × Transcript)} {turns : List (Turn σ)}
    (h : Conducted engine config entry start p turns) :
    ∀ exchange ∈ p.engineState.2, ¬ exchange.call.Removes := by
  intro exchange hmem
  rw [h.transcript] at hmem
  obtain ⟨turn, hturn, hmem⟩ := List.mem_flatMap.1 hmem
  obtain ⟨past, later, hsplit⟩ := List.append_of_mem hturn
  obtain ⟨hfollows, -⟩ := h.follows past turn later hsplit
  by_cases hskip : turn.visit.outcome = .skipped
  · rw [hfollows.skipped hskip] at hmem
    cases hmem
  · obtain ⟨block, -, htold⟩ := hfollows.ran hskip
    exact htold.not_removes exchange hmem

/-! ## Tables in memory -/

namespace Memory

variable {db db' : Database} {sql : String} {form : Form} {text : List Char} {input : TableName}
  {configured : BlockConfig} {table : String}

/-- A statement is refused and changes no table, or it is run by its form. -/
theorem Database.execute_cases (sql : String) (db : Database) :
    (∃ error, execute sql db = (.error error, { db with statements := db.statements ++ [sql] })) ∨
      ∃ form rows after, form? sql = some form ∧
        runForm { db with statements := db.statements ++ [sql] } form = .ok (rows, after) ∧
          execute sql db = (.ok rows, after) := by
  unfold execute
  simp only
  split
  · next rows after hrun =>
    refine .inr ?_
    unfold runStatement at hrun
    split at hrun
    · cases hrun
    · split at hrun
      · next form hform => exact ⟨form, rows, after, hform, hrun, rfl⟩
      · cases hrun
  · next error _ => exact .inl ⟨error, rfl⟩

/-- A statement that is not refused is run by its form. -/
theorem exists_form_of_accepted (haccepted : refusal? (engine.execute sql db).1 = none) :
    ∃ form rows, form? sql = some form ∧
      Database.runForm { db with statements := db.statements ++ [sql] } form =
        .ok (rows, (engine.execute sql db).2) := by
  change refusal? (Database.execute sql db).1 = none at haccepted
  show ∃ form rows, _ ∧ _ = Except.ok (rows, (Database.execute sql db).2)
  rcases Database.execute_cases sql db with ⟨error, hrefused⟩ | ⟨form, rows, after, hform, hrun, hok⟩
  · rw [hrefused] at haccepted
    cases haccepted
  · rw [hok]
    exact ⟨form, rows, hform, hrun⟩

theorem eq_copy_of_copyForm? (h : copyForm? text = some form) :
    ∃ output source, form = .copy output source := by
  obtain ⟨_, -, h⟩ := Option.bind_eq_some_iff.1 h
  obtain ⟨_, -, h⟩ := Option.bind_eq_some_iff.1 h
  obtain ⟨⟨output, _⟩, -, h⟩ := Option.bind_eq_some_iff.1 h
  obtain ⟨_, -, h⟩ := Option.bind_eq_some_iff.1 h
  obtain ⟨source, -, h⟩ := Option.bind_eq_some_iff.1 h
  exact ⟨output, source, (Option.some.inj h).symm⟩

theorem eq_drop_of_dropForm? (h : dropForm? text = some form) : ∃ written, form = .drop written := by
  obtain ⟨_, -, h⟩ := Option.bind_eq_some_iff.1 h
  obtain ⟨_, -, h⟩ := Option.bind_eq_some_iff.1 h
  obtain ⟨_, -, h⟩ := Option.bind_eq_some_iff.1 h
  obtain ⟨⟨written, rest⟩, -, h⟩ := Option.bind_eq_some_iff.1 h
  simp only at h
  split_ifs at h
  exact ⟨written, (Option.some.inj h).symm⟩

/-- The statement of a block puts the table of the block there, or it is refused. -/
theorem table?_execute_compile (h : configured.kind ≠ .load) (input : TableName) (id : BlockId)
    (db : Database)
    (haccepted : refusal? (engine.execute (Sql.compile configured input (.derived id)).text db).1 =
      none) :
    ((engine.execute (Sql.compile configured input (.derived id)).text db).2.table?
      (TableName.derived id).text).isSome = true := by
  obtain ⟨form, rows, hform, hrun⟩ := exists_form_of_accepted haccepted
  have hwritten := written?_compile h input hform
  obtain ⟨rest, htext⟩ := Sql.toList_compile h input id
  obtain ⟨output, source, rfl⟩ : ∃ output source, form = .copy output source := by
    rcases form?_eq_some hform with hcopy | hother
    · exact eq_copy_of_copyForm? hcopy
    · -- the other forms begin with other words
      rw [htext] at hother
      rcases hother with hother | hother | hother <;> cases hother
  have hname : tableName output = (TableName.derived id).text := Option.some.inj hwritten
  obtain ⟨content, -, hmade⟩ := bind_eq_ok_iff.1 hrun
  rw [← (Prod.mk.inj (Except.ok.inj hmade)).2, ← hname]
  exact congrArg Option.isSome (Assoc.find?_insert_self (tableName output) content db.tables)

/-- The statement that removes the table of a block takes it away, or it is refused. -/
theorem table?_execute_drop (h : kind ≠ .load) (id : BlockId) (db : Database)
    (haccepted : refusal? (engine.execute (Sql.drop kind (.derived id)).text db).1 = none) :
    (engine.execute (Sql.drop kind (.derived id)).text db).2.table? (TableName.derived id).text =
      none := by
  obtain ⟨form, rows, hform, hrun⟩ := exists_form_of_accepted haccepted
  have hwritten := written?_drop h hform
  have htext := Sql.toList_drop h id
  obtain ⟨written, rfl⟩ : ∃ written, form = .drop written := by
    have hforms := form?_eq_some hform
    rw [htext] at hforms
    rcases hforms with hother | hother | hother | hdrop
    · cases hother
    · cases hother
    · cases hother
    · exact eq_drop_of_dropForm? hdrop
  have hname : tableName written = (TableName.derived id).text := Option.some.inj hwritten
  rw [← (Prod.mk.inj (Except.ok.inj hrun)).2, ← hname]
  exact Assoc.find?_erase_self _ _

/-- A statement that is refused changes no table. -/
theorem table?_of_refused (haccepted : refusal? (engine.execute sql db).1 ≠ none) (table : String) :
    (engine.execute sql db).2.table? table = db.table? table := by
  change refusal? (Database.execute sql db).1 ≠ none at haccepted
  show (Database.execute sql db).2.table? table = _
  rcases Database.execute_cases sql db with ⟨error, hrefused⟩ | ⟨form, rows, after, -, -, hok⟩
  · rw [hrefused]
    rfl
  · rw [hok] at haccepted
    exact absurd rfl haccepted

/-- After a call that does not remove it, the table of a block is there if it was there before or the
    call has made it. -/
theorem isSome_table?_respond (h : Issued other kind call) (hkept : other = id → ¬ call.Removes)
    (db : Database) : ((engine.respond db call).table? (TableName.derived id).text).isSome = true ↔
      (db.table? (TableName.derived id).text).isSome = true ∨
        (⟨call, engine.refusalOf db call⟩ : Exchange).Makes (.derived id) := by
  by_cases hmakes : (⟨call, engine.refusalOf db call⟩ : Exchange).Makes (.derived id)
  · refine iff_of_true ?_ (.inr hmakes)
    obtain ⟨-, rfl⟩ := Issued.eq_of_makes h hmakes
    obtain ⟨configured, input, rfl, hkind, rfl⟩ := h.eq_compile hmakes.creates
    exact table?_execute_compile hkind input other db hmakes.accepted
  · -- then the call leaves the table alone
    have hsame : (engine.respond db call).table? (TableName.derived id).text =
        db.table? (TableName.derived id).text := by
      by_cases hother : other = id
      · subst hother
        cases h with
        | describe described => rfl
        | preview queried limit =>
          exact Database.table?_execute (fun form hform => by simp [written?_select hform]) db
        | countRows queried =>
          exact Database.table?_execute (fun form hform => by simp [written?_select hform]) db
        | @make configured input kind_eq derived =>
          refine table?_of_refused (fun haccepted => hmakes ⟨haccepted, ?_, ?_⟩) _
          · subst kind_eq
            exact Sql.creates_compile (BlockKind.isSource_eq_false_iff.2 derived) _ _
          · subst kind_eq
            simp only [Call.target?, Sql.target?_compile derived, Option.map_some]
        | drop derived => exact absurd (Issued.removes_drop derived) (hkept rfl)
      · exact table?_respond h (fun hname => hother (TableName.derived_injective
          (congrArg TableName.mk hname)).symm) db
    rw [hsame, or_iff_left hmakes]

/-- After calls that do not remove it, the table of a block is there if it was there before or one of
    them has made it. -/
theorem isSome_table?_of_replayed (h : engine.Replayed db transcript db')
    (hissued : ∀ exchange ∈ transcript, ∃ other kind, Issued other kind exchange.call ∧
      (other = id → ¬ exchange.call.Removes)) :
    (db'.table? (TableName.derived id).text).isSome = true ↔
      (db.table? (TableName.derived id).text).isSome = true ∨
        ∃ exchange ∈ transcript, exchange.Makes (.derived id) := by
  induction h with
  | nil => simp
  | snoc past call ih =>
    rw [List.forall_mem_append, List.forall_mem_singleton] at hissued
    obtain ⟨hpast, other, kind, hcall, hkept⟩ := hissued
    rw [isSome_table?_respond hcall hkept, ih hpast]
    simp only [List.mem_append, List.mem_singleton, or_and_right, exists_or, exists_eq_left, or_assoc]

end Memory

end BlockPipeline

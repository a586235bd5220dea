import BlockPipeline.Proofs.Engine.Source

set_option autoImplicit false

/-! # Statements that make tables are run as copies

The engine in memory finds the names in a statement that makes a table by the words around them: the
output stands behind the kind of object, and the input behind the last ` FROM `. If no text that stands
behind the input holds ` FROM ` itself, it finds both of a compiled statement, and then it runs the
statement as a copy (`execute_compile`). -/

namespace BlockPipeline.Memory

variable {config : BlockConfig} {input output : TableName} {db : Database} {content : Table}

/-! ## Names of tables -/

theorem isSolid_of_isPlainRest {c : Char} (h : TableName.isPlainRest c = true) :
    isSolid c = true := by
  -- letters, digits and the underscore are between `0` and `z`
  have hcode : 48 ≤ c.toNat ∧ c.toNat ≤ 122 := by
    rcases Bool.or_eq_true_iff.1 h with halphanum | hmark
    · rcases Bool.or_eq_true_iff.1 halphanum with halpha | hdigit
      · rcases Bool.or_eq_true_iff.1 halpha with hupper | hlower
        · have hrange := of_decide_eq_true hupper
          have hfirst : 65 ≤ c.toNat := hrange.1
          have hlast : c.toNat ≤ 90 := hrange.2
          omega
        · obtain ⟨hl, hr⟩ := Bool.and_eq_true_iff.1 hlower
          have hfirst : 97 ≤ c.toNat := of_decide_eq_true hl
          have hlast : c.toNat ≤ 122 := of_decide_eq_true hr
          omega
      · obtain ⟨hl, hr⟩ := Bool.and_eq_true_iff.1 hdigit
        have hfirst : 48 ≤ c.toNat := of_decide_eq_true hl
        have hlast : c.toNat ≤ 57 := of_decide_eq_true hr
        omega
    · obtain rfl := beq_iff_eq.1 hmark
      decide
  simp only [isSolid, Text.isSpace, Bool.not_eq_true', Bool.or_eq_false_iff, Bool.and_eq_false_iff,
    decide_eq_false_iff_not, beq_eq_false_iff_ne]
  omega

variable {table : TableName}

theorem isPlainRest_of_mem (h : table.isPlain = true) :
    ∀ c ∈ table.text.toList, TableName.isPlainRest c = true := by
  rw [TableName.isPlain] at h
  cases htext : table.text.toList with
  | nil => simp
  | cons c cs =>
    rw [htext, Bool.and_eq_true, List.all_eq_true] at h
    refine List.forall_mem_cons.2 ⟨?_, h.2⟩
    obtain hc | hc := Bool.or_eq_true_iff.1 h.1
    · exact Bool.or_eq_true_iff.2 (.inl (Bool.or_eq_true_iff.2 (.inl hc)))
    · exact Bool.or_eq_true_iff.2 (.inr hc)

theorem isPlain_of_isBare (h : Sql.isBare table = true) : table.isPlain = true := by
  rw [Sql.isBare, Bool.and_eq_true] at h
  exact h.1

theorem isSolid_tableToken (h : table.isPlain = true) :
    ∀ c ∈ (Sql.tableToken table).chars, isSolid c = true := by
  have hplain := isPlainRest_of_mem h
  intro c hc
  unfold Sql.tableToken at hc
  split at hc
  · exact isSolid_of_isPlainRest (hplain c hc)
  · rcases Text.mem_quoted hc with rfl | hc
    · decide
    · exact isSolid_of_isPlainRest (hplain c hc)

theorem tableToken_chars_ne_nil (table : TableName) : (Sql.tableToken table).chars ≠ [] := by
  unfold Sql.tableToken
  split
  · next hbare =>
    intro hnil
    have hplain := isPlain_of_isBare hbare
    rw [TableName.isPlain, show table.text.toList = [] from hnil] at hplain
    cases hplain
  · simp [Sql.Token.chars, Text.quoted]

/-- A table called by the reserved word stands between quotes. -/
theorem tableToken_chars_ne_from (table : TableName) :
    (Sql.tableToken table).chars ≠ "FROM".toList := by
  unfold Sql.tableToken
  split
  · next hbare =>
    intro hfrom
    have htable : table = ⟨"FROM"⟩ := by
      obtain ⟨text⟩ := table
      exact congrArg TableName.mk (String.toList_inj.1 hfrom)
    rw [htable] at hbare
    exact absurd hbare (by decide +kernel)
  · intro hfrom
    exact absurd (List.cons.inj hfrom).1 (by decide)

/-- The engine reads the name of a table in a statement as it was meant. -/
theorem tableName_tableToken (table : TableName) :
    tableName (Sql.tableToken table).chars = table.text := by
  unfold Sql.tableToken
  split
  · next hbare =>
    have hplain := isPlain_of_isBare hbare
    have hunquoted : Text.unquoted? '"' table.text.toList = none := by
      rw [TableName.isPlain] at hplain
      cases htext : table.text.toList with
      | nil => rfl
      | cons c cs =>
        rw [htext, Bool.and_eq_true] at hplain
        rw [Text.unquoted?, if_neg]
        rintro ⟨rfl, -⟩
        cases hplain.1
    rw [tableName, Sql.Token.chars, hunquoted, Option.getD_none, String.ofList_toList]
  · rw [tableName, Sql.Token.chars, Text.unquoted?_quoted, Option.getD_some, String.ofList_toList]

theorem tableToken_ne_symbol (table : TableName) (mark : String) :
    Sql.tableToken table ≠ .symbol mark := by
  unfold Sql.tableToken
  split
  · intro h
    cases h
  · intro h
    cases h

/-! ## The whole statement -/

theorem statement_chars_cons (clause : Sql.Clause) (clauses : List Sql.Clause) :
    Sql.Statement.chars (clause :: clauses) =
      Sql.Clause.chars clause ++ clauses.flatMap fun next => ' ' :: Sql.Clause.chars next := by
  induction clauses generalizing clause with
  | nil => simp [Sql.Statement.chars]
  | cons next clauses ih =>
    rw [Sql.Statement.chars, ih, List.flatMap_cons, List.cons_append]
    simp

theorem compile_eq_copy (h : config.kind ≠ .load) (input output : TableName) : ∃ columns,
    Sql.compile config input output =
      (Sql.keywords ["CREATE", "OR", "REPLACE", config.kind.object] ++ [Sql.tableToken output] ++
        Sql.keywords ["AS", "SELECT"]) :: columns :: Sql.fromTable input :: config.lateClauses := by
  cases config with
  | load config => exact absurd rfl h
  | _ => exact ⟨_, rfl⟩

theorem toList_compile_copy (h : config.kind ≠ .load) (input output : TableName) : ∃ columns,
    (Sql.compile config input output).text.toList = "CREATE OR REPLACE ".toList ++
      (config.kind.object.toList ++ ' ' :: ((Sql.tableToken output).chars ++
        (" AS SELECT ".toList ++ (columns ++ ' ' :: ("FROM ".toList ++
          ((Sql.tableToken input).chars ++
            config.lateClauses.flatMap fun clause => ' ' :: Sql.Clause.chars clause)))))) := by
  obtain ⟨columns, hcompile⟩ := compile_eq_copy h input output
  refine ⟨Sql.Clause.chars columns, ?_⟩
  rw [hcompile, Sql.Statement.text, String.toList_ofList, statement_chars_cons, List.flatMap_cons,
    List.flatMap_cons]
  simp [Sql.keywords, Sql.fromTable, Sql.Clause.chars, Sql.Token.blankBetween, Sql.Token.chars,
    tableToken_ne_symbol]

/-- A statement of a block is known as a copy of its input, if no late text holds the words in front
    of a source. -/
theorem form?_compile (h : config.kind ≠ .load) (hlate : ∀ text ∈ config.lateTexts, Unmarked text.toList)
    (hinput : input.isPlain = true) (houtput : output.isPlain = true) :
    form? (Sql.compile config input output).text =
      some (.copy (Sql.tableToken output).chars (Sql.tableToken input).chars) := by
  obtain ⟨columns, htext⟩ := toList_compile_copy h input output
  have hstops : Text.Stops isSolid
      (config.lateClauses.flatMap fun clause => ' ' :: Sql.Clause.chars clause) := by
    cases config.lateClauses with
    | nil => intro c hc; cases hc
    | cons clause clauses => exact Text.stops_cons (by decide) _
  have hnone := lastSource?_lateClauses hlate
  have hsource := lastSource?_append (lastSource?_mark (isSolid_tableToken hinput)
    (tableToken_chars_ne_nil input) (tableToken_chars_ne_from input) hstops hnone) columns
  have hblank (text : List Char) : Text.Stops isSolid (" AS SELECT ".toList ++ text) :=
    Text.stops_cons (by decide) _
  have hcopy : copyForm? (Sql.compile config input output).text.toList =
      some (.copy (Sql.tableToken output).chars (Sql.tableToken input).chars) := by
    simp only [htext, copyForm?, after?_append, afterObject?_object,
      run?_append (tableToken_chars_ne_nil output) (isSolid_tableToken houtput) (hblank _), hsource,
      Option.bind_eq_bind, Option.bind_some]
    rfl
  rw [form?, hcopy]
  rfl

/-- A statement that is known as a copy adds its input under the name of its output. -/
theorem execute_copy {sql : String} {written source : List Char}
    (hform : form? sql = some (.copy written source)) (hrefused : db.refusal? sql = none)
    (hinput : db.table? (tableName source) = some content) :
    engine.execute sql db =
      (.ok [], { db.insertTable (tableName written) content with
        statements := db.statements ++ [sql] }) := by
  have hnoted : Database.refusal? { db with statements := db.statements ++ [sql] } sql = none :=
    hrefused
  have hlook : Database.lookUp { db with statements := db.statements ++ [sql] } source = .ok content := by
    have hfound : Database.table? { db with statements := db.statements ++ [sql] } (tableName source) =
      some content := hinput
    rw [Database.lookUp, hfound]
  show Database.execute sql db = _
  simp only [Database.execute, Database.runStatement, hnoted, hform, Database.runForm, hlook]
  rfl

/-- The statement of a block is run as a copy of its input: it yields no rows, makes the output what
    the input is, and changes nothing else. The engine reads the last ` FROM ` of the statement,
    so no text of the configuration that stands behind the input may hold one. -/
theorem execute_compile (h : config.kind ≠ .load)
    (hlate : ∀ text ∈ config.lateTexts, ¬ " FROM ".toList <:+: text.toList)
    (hinput : input.isPlain = true) (houtput : output.isPlain = true)
    (hrefused : db.refusal? (Sql.compile config input output).text = none)
    (htable : db.table? input.text = some content) :
    ∃ after, engine.execute (Sql.compile config input output).text db = (.ok [], after) ∧
      after.table? output.text = some content ∧
      (∀ other, other ≠ output.text → after.table? other = db.table? other) ∧
      after.statements = db.statements ++ [(Sql.compile config input output).text] ∧
      after.refusals = db.refusals := by
  have hform := form?_compile h hlate hinput houtput
  have hsource : db.table? (tableName (Sql.tableToken input).chars) = some content := by
    rw [tableName_tableToken, htable]
  refine ⟨_, execute_copy hform hrefused hsource, ?_, ?_, rfl, rfl⟩
  · rw [tableName_tableToken]
    exact Assoc.find?_insert_self output.text content db.tables
  · intro other hother
    rw [tableName_tableToken]
    exact Database.table?_insertTable_of_ne hother content

/-- A column that is called by the word itself, and a table that is called by a reserved word. -/
theorem execute_compile_reserved :
    ∃ after, engine.execute (Sql.compile (.sort ⟨"FROM", .ascending⟩) ⟨"order"⟩ ⟨"sorted"⟩).text
        ⟨[("order", ⟨[], [[]]⟩)], [], [⟨"DROP", "refused"⟩]⟩ = (.ok [], after) ∧
      after.table? "sorted" = some ⟨[], [[]]⟩ ∧
      (∀ other, other ≠ "sorted" → after.table? other =
        Database.table? ⟨[("order", ⟨[], [[]]⟩)], [], [⟨"DROP", "refused"⟩]⟩ other) ∧
      after.statements =
        [(Sql.compile (.sort ⟨"FROM", .ascending⟩) ⟨"order"⟩ ⟨"sorted"⟩).text] ∧
      after.refusals = [⟨"DROP", "refused"⟩] :=
  execute_compile (by decide) (by decide) (by decide) (by decide) (by decide +kernel)
    (by decide +kernel)

/-- The value of this filter holds the words in front of a source, and the engine looks for a table
    of the name behind them. -/
theorem execute_compile_marked :
    BlockConfig.validate (.filter ⟨"note", .equal, some (.text "paid FROM cash")⟩) = .ok () ∧
    (engine.execute (Sql.compile (.filter ⟨"note", .equal, some (.text "paid FROM cash")⟩)
      ⟨"orders"⟩ ⟨"found"⟩).text ⟨[("orders", ⟨[], [[]]⟩)], [], []⟩).1 =
        .error ⟨"Catalog Error: Table with name cash' does not exist!"⟩ := by
  decide +kernel

end BlockPipeline.Memory

import BlockPipeline.Proofs.Engine.Copy
import BlockPipeline.Proofs.Number.Integer
import BlockPipeline.Run.Cascade

set_option autoImplicit false

/-! # Fetching a result from the engine in memory

A run fetches the result of a table by a description and two queries, and the engine in memory reads
the queries back from their text: the name of the table, the number of rows wanted, the column of the
count. What comes out of that is a function of the table (`Table.result`), unless one of the queries is
refused or there is no such table (`Database.fetched`). A fetch leaves tables and refusals alone
(`fetch_eq`). -/

namespace BlockPipeline

/-- The result that is kept of a table, if so many rows are to be kept. The limit is read from a
    statement and the count from a row, and neither is read if it takes more than 64 bits. -/
def Table.result (limit : Nat) (table : Table) : BlockResult :=
  let rows := if limit < 2 ^ 64 then table.rows.take limit else table.rows
  ⟨table.columns.map ColumnInfo.ofDescription, rows,
    if table.rows.length < 2 ^ 64 then table.rows.length else rows.length⟩

/-- Of a table that fits into a machine the result has the first rows and the number of all, and it is
    complete if no row is left out. -/
theorem Table.result_of_length {table : Table} (h : table.rows.length < 2 ^ 64) (limit : Nat) :
    (table.result limit).columns = table.columns.map ColumnInfo.ofDescription ∧
      (table.result limit).rows = table.rows.take limit ∧
      (table.result limit).rowCount = table.rows.length ∧
      ((table.result limit).isComplete = true ↔ table.rows.length ≤ limit) := by
  have hrows : (table.result limit).rows = table.rows.take limit := by
    show (if limit < 2 ^ 64 then table.rows.take limit else table.rows) = _
    split
    · rfl
    · -- a limit as great as that leaves nothing out
      rw [List.take_of_length_le (by omega)]
  have hcount : (table.result limit).rowCount = table.rows.length := if_pos h
  refine ⟨rfl, hrows, hcount, ?_⟩
  rw [BlockResult.isComplete, hrows, hcount, decide_eq_true_iff, List.length_take]
  omega

/-! ## Numbers read back -/

namespace Text

theorem isDecimalDigit_of_isDigit {c : Char} (h : c.isDigit = true) : isDecimalDigit c = true := by
  obtain ⟨hfirst, hlast⟩ := Bool.and_eq_true_iff.1 h
  have hlow : 48 ≤ c.toNat := of_decide_eq_true hfirst
  have hhigh : c.toNat ≤ 57 := of_decide_eq_true hlast
  rw [isDecimalDigit, digitRanges, inRanges, if_neg (by omega), if_pos hhigh]

/-- A number is read back from its digits, if it has no more bits than are read. -/
theorem natural?_toDigits (bits n : Nat) :
    natural? bits (String.ofList (Nat.toDigits 10 n)) = if n < 2 ^ bits then some n else none := by
  have hdigits := Number.allDigits_toDigits n
  have hvalue : digitsValue? (Nat.toDigits 10 n) = some n := by
    rw [digitsValue?, if_pos, Nat.ofDigitChars_ten_toDigits]
    rw [Bool.and_eq_true, Bool.not_eq_true', List.isEmpty_eq_false_iff]
    exact ⟨Nat.toDigits_ne_nil, List.all_eq_true.2 hdigits⟩
  rw [natural?, String.toList_ofList]
  split
  · next rest htext =>
    -- no number begins with a plus sign
    have hplus := hdigits '+' (htext ▸ List.mem_cons_self)
    exact absurd hplus (by decide)
  · rw [hvalue, Option.filter_some]
    simp only [decide_eq_true_eq, Nat.pow_eq]

end Text

namespace Memory

variable {sql : String} {form : Form} {table : TableName} {db db' : Database} {limit : Nat}
  {test : Char → Bool} {name rest : List Char}

/-! ## The forms of queries -/

theorem run?_all (hne : name ≠ []) (hname : ∀ c ∈ name, test c = true) :
    run? test name = some (name, []) := by
  have hall : run? test (name ++ []) = some (name, []) :=
    run?_append hne hname fun c hc => by cases hc
  rwa [List.append_nil] at hall

theorem toList_preview (table : TableName) (limit : Nat) :
    (Sql.preview table limit).text.toList = "SELECT * FROM ".toList ++
      ((Sql.tableToken table).chars ++ (" LIMIT ".toList ++ Nat.toDigits 10 limit)) := by
  have hnumber : (Json.Number.integer limit).text.toList = Nat.toDigits 10 limit := by
    rw [Json.Number.text, Text.integerText, if_neg (by omega), Text.naturalText, String.toList_ofList,
      Int.natAbs_natCast]
  rw [Sql.preview, Sql.Statement.text, String.toList_ofList, statement_chars_cons]
  simp [Sql.everything, Sql.fromTable, Sql.Clause.chars, Sql.Token.blankBetween, Sql.Token.chars,
    tableToken_ne_symbol, hnumber]

/-- The query for the first rows is known by its form. -/
theorem form?_preview (hplain : table.isPlain = true) (limit : Nat) :
    form? (Sql.preview table limit).text =
      some (.preview (Sql.tableToken table).chars (Nat.toDigits 10 limit)) := by
  have htable : run? isSolid ((Sql.tableToken table).chars ++
      (" LIMIT ".toList ++ Nat.toDigits 10 limit)) =
      some ((Sql.tableToken table).chars, " LIMIT ".toList ++ Nat.toDigits 10 limit) :=
    run?_append (tableToken_chars_ne_nil table) (isSolid_tableToken hplain)
      (Text.stops_cons (by decide) _)
  have hdigits : run? Text.isDecimalDigit (Nat.toDigits 10 limit) =
      some (Nat.toDigits 10 limit, []) :=
    run?_all Nat.toDigits_ne_nil fun c hc =>
      Text.isDecimalDigit_of_isDigit (Number.allDigits_toDigits limit c hc)
  have hpreview : previewForm? (Sql.preview table limit).text.toList =
      some (.preview (Sql.tableToken table).chars (Nat.toDigits 10 limit)) := by
    simp only [toList_preview, previewForm?, after?_append, htable, hdigits, Option.bind_eq_bind,
      Option.bind_some]
    rfl
  have hcopy : copyForm? (Sql.preview table limit).text.toList = none := by
    rw [toList_preview]
    rfl
  rw [form?, hcopy, hpreview]
  rfl

theorem dropQuote_quote (text : List Char) : dropQuote ('"' :: text) = text := rfl

theorem countForm?_query {column written : List Char} (hcolumn : column ≠ [])
    (hword : ∀ c ∈ column, Text.isWord c = true) (hquote : Text.isWord '"' = false)
    (hwritten : written ≠ []) (hsolid : ∀ c ∈ written, isSolid c = true) :
    countForm? ("SELECT COUNT(*) AS ".toList ++
      ('"' :: (column ++ ('"' :: (" FROM ".toList ++ written))))) =
      some (.count column written) := by
  have hname : run? Text.isWord (column ++ ('"' :: (" FROM ".toList ++ written))) =
      some (column, '"' :: (" FROM ".toList ++ written)) :=
    run?_append hcolumn hword (Text.stops_cons hquote _)
  simp only [countForm?, after?_append, dropQuote_quote, hname, run?_all hwritten hsolid,
    Option.bind_eq_bind, Option.bind_some]
  rfl

theorem toList_countRows (table : TableName) :
    (Sql.countRows table).text.toList = "SELECT COUNT(*) AS ".toList ++
      ('"' :: ("row_count".toList ++ ('"' :: (" FROM ".toList ++ (Sql.tableToken table).chars)))) := by
  have hname : Text.quoted '"' Sql.rowCountColumn.toList =
      '"' :: ("row_count".toList ++ ['"']) := by decide
  rw [Sql.countRows, Sql.Statement.text, String.toList_ofList, statement_chars_cons]
  simp [Sql.fromTable, Sql.Clause.chars, Sql.Token.blankBetween, Sql.Token.chars,
    tableToken_ne_symbol, hname]

/-- The query for the number of rows is known by its form. -/
theorem form?_countRows (hplain : table.isPlain = true) :
    form? (Sql.countRows table).text =
      some (.count "row_count".toList (Sql.tableToken table).chars) := by
  have hword : ∀ c ∈ "row_count".toList, Text.isWord c = true := List.all_eq_true.1 (by decide)
  have hcount : countForm? (Sql.countRows table).text.toList =
      some (.count "row_count".toList (Sql.tableToken table).chars) := by
    rw [toList_countRows]
    exact countForm?_query (by decide) hword (by decide) (tableToken_chars_ne_nil table)
      (isSolid_tableToken hplain)
  have hcopy : copyForm? (Sql.countRows table).text.toList = none := by
    rw [toList_countRows]
    rfl
  have hpreview : previewForm? (Sql.countRows table).text.toList = none := by
    rw [toList_countRows]
    rfl
  rw [form?, hcopy, hpreview, hcount]
  rfl

/-! ## Statements that are run -/

namespace Database

/-- Lets a statement pass, unless it is refused. -/
def accept (db : Database) (sql : String) : Except EngineError Unit :=
  match db.refusal? sql with
  | some refusal => .error ⟨refusal.message⟩
  | none => .ok ()

theorem accept_eq_ok_iff : db.accept sql = .ok () ↔ db.refusal? sql = none := by
  unfold accept
  cases db.refusal? sql <;> simp

theorem accept_congr (h : db'.refusals = db.refusals) (sql : String) :
    db'.accept sql = db.accept sql := by
  rw [accept, accept, refusal?, refusal?, h]

/-- Where nothing is refused, every statement passes. -/
theorem accept_of_no_refusals (h : db.refusals = []) (sql : String) : db.accept sql = .ok () := by
  rw [accept_eq_ok_iff, refusal?, h, List.find?_nil]

/-- The database in which these statements have been noted, too. -/
def noting (db : Database) (statements : List String) : Database :=
  { db with statements := db.statements ++ statements }

theorem noting_noting (db : Database) (first second : List String) :
    (db.noting first).noting second = db.noting (first ++ second) := by
  rw [noting, noting, noting, List.append_assoc]

/-- The table that a fetch reads, or why it reads none. -/
def fetched (db : Database) (limit : Nat) (table : TableName) : Except EngineError Table := do
  db.accept (Sql.preview table limit).text
  let content ← db.lookUp (Sql.tableToken table).chars
  db.accept (Sql.countRows table).text
  return content

end Database

/-- A statement of a known form is run, unless it is refused. -/
theorem execute_of_form (hform : form? sql = some form) (db : Database) :
    engine.execute sql db =
      match db.accept sql, (db.noting [sql]).runForm form with
      | .ok _, .ok (rows, after) => (.ok rows, after)
      | .ok _, .error error | .error error, _ => (.error error, db.noting [sql]) := by
  have hrefusal : Database.refusal? { db with statements := db.statements ++ [sql] } sql =
      db.refusal? sql := rfl
  show Database.execute sql db = _
  simp only [Database.execute, Database.runStatement, Database.accept, hrefusal, hform]
  cases db.refusal? sql with
  | some refusal => rfl
  | none =>
    simp only [Database.noting]
    cases Database.runForm { db with statements := db.statements ++ [sql] } form <;> rfl

theorem lookUp_eq_ok_iff {content : Table} : db.lookUp (Sql.tableToken table).chars = .ok content ↔
    db.table? table.text = some content := by
  rw [Database.lookUp, tableName_tableToken]
  cases db.table? table.text <;> simp

/-- The statement of a block makes a copy of the input, unless it is refused. -/
theorem execute_making {config : BlockConfig} {input output : TableName} {content : Table}
    (h : config.kind ≠ .load)
    (hlate : ∀ text ∈ config.lateTexts, ¬ " FROM ".toList <:+: text.toList)
    (hinput : input.isPlain = true) (houtput : output.isPlain = true)
    (htable : db.table? input.text = some content) :
    engine.execute (Sql.compile config input output).text db =
      match db.accept (Sql.compile config input output).text with
      | .ok _ => (.ok [], (db.insertTable output.text content).noting
        [(Sql.compile config input output).text])
      | .error error => (.error error, db.noting [(Sql.compile config input output).text]) := by
  have hlook : (db.noting [(Sql.compile config input output).text]).lookUp
      (Sql.tableToken input).chars = .ok content := lookUp_eq_ok_iff.2 htable
  rw [execute_of_form (form?_compile h hlate hinput houtput)]
  simp only [Database.runForm, hlook, tableName_tableToken]
  cases db.accept (Sql.compile config input output).text <;> rfl

theorem fetched_eq_ok {content : Table} (h : db.fetched limit table = .ok content) :
    db.table? table.text = some content := by
  obtain ⟨_, -, h⟩ := bind_eq_ok_iff.1 h
  obtain ⟨found, hfound, h⟩ := bind_eq_ok_iff.1 h
  obtain ⟨_, -, h⟩ := bind_eq_ok_iff.1 h
  obtain rfl := Except.ok.inj h
  exact lookUp_eq_ok_iff.1 hfound

/-- What is fetched depends on the refusals and on the table only. -/
theorem fetched_congr (hrefusals : db'.refusals = db.refusals)
    (htable : db'.table? table.text = db.table? table.text) :
    db'.fetched limit table = db.fetched limit table := by
  unfold Database.fetched
  rw [Database.accept_congr hrefusals, Database.accept_congr hrefusals, Database.lookUp,
    Database.lookUp, tableName_tableToken, htable]

theorem fetched_of_no_refusals {content : Table} (h : db.refusals = [])
    (htable : db.table? table.text = some content) : db.fetched limit table = .ok content := by
  unfold Database.fetched
  rw [Database.accept_of_no_refusals h, Database.accept_of_no_refusals h, lookUp_eq_ok_iff.2 htable]
  rfl

/-- The first query gives the rows of the result. -/
theorem execute_preview (hplain : table.isPlain = true) (limit : Nat) (db : Database) :
    engine.execute (Sql.preview table limit).text db =
      ((do
        db.accept (Sql.preview table limit).text
        let content ← db.lookUp (Sql.tableToken table).chars
        return (content.result limit).rows), db.noting [(Sql.preview table limit).text]) := by
  have hlook : (db.noting [(Sql.preview table limit).text]).lookUp (Sql.tableToken table).chars =
      db.lookUp (Sql.tableToken table).chars := rfl
  rw [execute_of_form (form?_preview hplain limit)]
  simp only [Database.runForm, hlook, Text.natural?_toDigits]
  cases db.accept (Sql.preview table limit).text with
  | error error => rfl
  | ok _ =>
    cases db.lookUp (Sql.tableToken table).chars with
    | error error => rfl
    | ok content =>
      by_cases hlimit : limit < 2 ^ 64
      · simp only [Table.result, if_pos hlimit]
        rfl
      · simp only [Table.result, if_neg hlimit]
        rfl

/-- The second query gives a row with the number of rows. -/
theorem execute_countRows (hplain : table.isPlain = true) (db : Database) :
    engine.execute (Sql.countRows table).text db =
      ((do
        db.accept (Sql.countRows table).text
        let content ← db.lookUp (Sql.tableToken table).chars
        return [[("row_count", .ofNat content.rows.length)]]),
        db.noting [(Sql.countRows table).text]) := by
  have hlook : (db.noting [(Sql.countRows table).text]).lookUp (Sql.tableToken table).chars =
      db.lookUp (Sql.tableToken table).chars := rfl
  rw [execute_of_form (form?_countRows hplain)]
  simp only [Database.runForm, hlook]
  cases db.accept (Sql.countRows table).text with
  | error error => rfl
  | ok _ => cases db.lookUp (Sql.tableToken table).chars <;> rfl

theorem rowCount?_count (n : Nat) :
    rowCount? [("row_count", .ofNat n)] = if n < 2 ^ 64 then some n else none := by
  have hfits : Number.fitsUnsigned 64 n = decide (n < 2 ^ 64) := by
    rw [Bool.eq_iff_iff, Number.fitsUnsigned_iff, decide_eq_true_iff]
    omega
  show Json.Number.natural? (.integer n) = _
  rw [Json.Number.natural?, hfits]
  simp

/-- The result is put together from the columns and the answers to the queries. -/
theorem result_of_answers (content : Table) (limit : Nat) :
    (⟨(((some content).map Table.columns).getD []).map ColumnInfo.ofDescription,
      (content.result limit).rows,
      (([[("row_count", Json.ofNat content.rows.length)]] : List Row).head?.bind rowCount?).getD
        (content.result limit).rows.length⟩ : BlockResult) = content.result limit := by
  rw [List.head?_cons, Option.bind_some, rowCount?_count, Option.map_some, Option.getD_some]
  unfold Table.result
  by_cases hcount : content.rows.length < 2 ^ 64
  · simp only [if_pos hcount, Option.getD_some]
  · simp only [if_neg hcount, Option.getD_none]

/-- A fetch gives the result of the table, or the first error, and changes no table and no refusal. -/
theorem fetch_eq (config : RunConfig) (hplain : table.isPlain = true) (db : Database) :
    ∃ statements, engine.fetch config table db =
      ((db.fetched config.previewLimit table).map (·.result config.previewLimit),
        db.noting statements) := by
  have hdescribe : engine.describe table db =
      (.ok (((db.table? table.text).map Table.columns).getD []), db) := rfl
  have hlook : ∀ statements, (db.noting statements).lookUp (Sql.tableToken table).chars =
      db.lookUp (Sql.tableToken table).chars := fun _ => rfl
  have haccept : ∀ statements sql, (db.noting statements).accept sql = db.accept sql := fun _ _ => rfl
  unfold Engine.fetch Database.fetched
  rw [Action.bind_run, hdescribe]
  simp only
  rw [Action.bind_run, execute_preview hplain]
  cases db.accept (Sql.preview table config.previewLimit).text with
  | error error => exact ⟨_, rfl⟩
  | ok _ =>
    cases hcontent : db.lookUp (Sql.tableToken table).chars with
    | error error => exact ⟨_, rfl⟩
    | ok content =>
      show ∃ statements, (engine.execute (Sql.countRows table).text >>= fun counted =>
        pure _) _ = _
      rw [Action.bind_run, execute_countRows hplain, hlook, haccept, hcontent,
        lookUp_eq_ok_iff.1 hcontent, Database.noting_noting]
      cases db.accept (Sql.countRows table).text with
      | error error => exact ⟨_, rfl⟩
      | ok _ =>
        have hresult := result_of_answers content config.previewLimit
        exact ⟨_, congrArg (fun result => (Except.ok result, db.noting _)) hresult⟩

end Memory

end BlockPipeline

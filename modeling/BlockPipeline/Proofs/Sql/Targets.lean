import BlockPipeline.Proofs.Sql.Names
import BlockPipeline.Proofs.Sql.Template

set_option autoImplicit false

/-! # What statements make and remove

The first tokens of a statement say whether it makes or removes something, and what (`target?`). A
statement of a block that is no load block makes the output table, as a view or as a table by its kind,
and the statement that removes the table says the same of it. The other statements of a run are
queries. Each of them is one statement, whatever the texts in it. -/

namespace BlockPipeline

/-- As what the output of a block of the kind is made. -/
def BlockKind.object (kind : BlockKind) : String := if kind.isView then "VIEW" else "TABLE"

namespace Sql

variable {config : BlockConfig} {kind : BlockKind} {word : String} {clause : Clause}
  {clauses : Statement}

/-- What a statement makes or removes: a table or a view, and its name. -/
structure Target where
  object : String
  name : TableName
  deriving DecidableEq

/-- The table that a token names. -/
def Piece.tableName? : Piece → Option TableName
  | .word w | .name w => some ⟨w⟩
  | _ => none

/-- What the tokens of a statement say that it makes or removes. -/
def targetOf : List Piece → Option Target
  | .word "CREATE" :: .word "OR" :: .word "REPLACE" :: .word object :: name :: _
  | .word "DROP" :: .word object :: .word "IF" :: .word "EXISTS" :: name :: _ =>
    name.tableName?.map fun name => ⟨object, name⟩
  | _ => none

/-- What a statement makes or removes. -/
def target? (sql : String) : Option Target := targetOf (tokens sql)

theorem tableName?_tablePiece (name : TableName) : (tablePiece name).tableName? = some name := by
  unfold tablePiece
  split <;> rfl

/-! ## One statement -/

/-- A statement that begins with a word is read as one statement. -/
theorem statements_text (hplain : ∀ token ∈ Statement.tokens ((.word word :: clause) :: clauses),
      token.isPlain = true) :
    statements (Statement.text ((.word word :: clause) :: clauses)) =
      [Statement.text ((.word word :: clause) :: clauses)] := by
  have hword : TableName.isPlain ⟨word⟩ = true := hplain (.word word) (by simp [Statement.tokens])
  obtain ⟨rest, htext⟩ := text_word word clause clauses
  rw [Statement.text, String.toList_ofList] at htext
  simp only [TableName.isPlain] at hword
  cases hchars : word.toList with
  | nil => simp [hchars] at hword
  | cons c cs =>
    rw [hchars, Bool.and_eq_true] at hword
    rw [hchars, List.cons_append] at htext
    obtain ⟨hblank, -⟩ := ne_marks_of_class (p := isWordStart) hword.1 (by decide)
    have hone := statementsFrom_statement hplain htext hblank apart_nil
    rw [List.append_nil, pieces_nil, statementsFrom, finished, if_neg (by simp [htext])] at hone
    rw [statements, Statement.text, String.toList_ofList, hone]

/-! ## The statements of a run -/

theorem template_eq (h : config.kind ≠ .load) (input output : TableName) :
    ∃ rest, template input output config = making config.kind.object output ++ rest := by
  cases config with
  | load config => exact absurd rfl h
  | filter config => exact ⟨_, by simp only [template, List.append_assoc]; rfl⟩
  | aggregate config => exact ⟨_, by simp only [template, List.append_assoc]; rfl⟩
  | sort config => exact ⟨_, by simp only [template, List.append_assoc]; rfl⟩
  | chart config => exact ⟨_, by simp only [template, List.append_assoc]; rfl⟩
  | insight config => exact ⟨_, by simp only [template, List.append_assoc]; rfl⟩

/-- The statement of a block makes the output table, as a table or as a view by its kind. -/
theorem target?_compile (h : config.kind ≠ .load) (input output : TableName) :
    target? (compile config input output).text = some ⟨config.kind.object, output⟩ := by
  obtain ⟨rest, htemplate⟩ := template_eq h input output
  rw [target?, tokens_compile, htemplate]
  simp [making, words, targetOf, tableName?_tablePiece]

theorem statements_compile (h : config.kind ≠ .load) (input output : TableName) :
    statements (compile config input output).text = [(compile config input output).text] := by
  have hplain := (fills_compile config input output).plain
  obtain ⟨clause, clauses, hcompile⟩ := compile_eq_create h input output
  rw [hcompile] at hplain ⊢
  exact statements_text hplain

theorem drop_eq (h : kind ≠ .load) (table : TableName) : drop kind table =
    [keywords ["DROP", kind.object, "IF", "EXISTS"] ++ [tableToken table]] := by
  rw [drop, if_neg (by simpa [BlockKind.isSource] using h), BlockKind.object]

theorem fills_drop (h : kind ≠ .load) (table : TableName) :
    Fills (drop kind table).tokens
      (words ["DROP", kind.object, "IF", "EXISTS"] ++ [tablePiece table]) := by
  have hwords : Fills (keywords ["DROP", kind.object, "IF", "EXISTS"])
      (words ["DROP", kind.object, "IF", "EXISTS"]) := by
    apply fills_keywords
    cases kind <;> decide
  rw [drop_eq h, Statement.tokens, List.flatten_cons, List.flatten_nil, List.append_nil]
  exact hwords.append (fills_tableToken table)

/-- The statement that removes the table of a block calls it what the block made. -/
theorem target?_drop (h : kind ≠ .load) (table : TableName) :
    target? (drop kind table).text = some ⟨kind.object, table⟩ := by
  have hfills := fills_drop h table
  rw [target?, tokens_text hfills.plain, hfills.pieces]
  simp [words, targetOf, tableName?_tablePiece]

theorem statements_drop (h : kind ≠ .load) (table : TableName) :
    statements (drop kind table).text = [(drop kind table).text] := by
  have hplain := (fills_drop h table).plain
  rw [drop_eq h] at hplain ⊢
  exact statements_text hplain

/-! ## The text of a statement on the table of a block

The name of such a table stands bare, between two blanks or behind the last one. -/

theorem compile_eq_making (h : config.kind ≠ .load) (input output : TableName) : ∃ clauses,
    compile config input output = (keywords ["CREATE", "OR", "REPLACE", config.kind.object] ++
      [tableToken output] ++ keywords ["AS", "SELECT"]) :: clauses := by
  cases config with
  | load config => exact absurd rfl h
  | _ => exact ⟨_, rfl⟩

theorem toList_compile (h : config.kind ≠ .load) (input : TableName) (id : BlockId) :
    ∃ rest, (compile config input (.derived id)).text.toList = "CREATE OR REPLACE ".toList ++
      (config.kind.object.toList ++ ' ' :: ((TableName.derived id).text.toList ++ ' ' :: rest)) := by
  obtain ⟨clauses, hcompile⟩ := compile_eq_making h input (.derived id)
  obtain ⟨rest, htext⟩ := text_clause (keywords ["CREATE", "OR", "REPLACE", config.kind.object] ++
    [tableToken (.derived id)] ++ keywords ["AS", "SELECT"]) clauses
  rw [hcompile, htext, tableToken, if_pos (isBare_derived id)]
  exact ⟨"AS SELECT".toList ++ rest, by
    simp [keywords, Clause.chars, Token.blankBetween, Token.chars]⟩

theorem toList_drop (h : kind ≠ .load) (id : BlockId) :
    (drop kind (.derived id)).text.toList = "DROP ".toList ++
      (kind.object.toList ++ ' ' :: ("IF EXISTS ".toList ++ (TableName.derived id).text.toList)) := by
  rw [drop_eq h, tableToken, if_pos (isBare_derived id)]
  simp [Statement.text, Statement.chars, keywords, Clause.chars, Token.blankBetween, Token.chars]

/-! ## Queries -/

/-- A single statement that reads and makes nothing. -/
def IsQuery (sql : String) : Prop :=
  statements sql = [sql] ∧ (tokens sql).head? = some (.word "SELECT")

theorem target?_of_isQuery {sql : String} (h : IsQuery sql) : target? sql = none := by
  obtain ⟨-, hselect⟩ := h
  rw [target?]
  cases htokens : tokens sql with
  | nil => rfl
  | cons token rest =>
    rw [htokens, List.head?_cons, Option.some_inj] at hselect
    rw [hselect]
    rfl

theorem isQuery_select (hplain : ∀ token ∈ Statement.tokens ((.word "SELECT" :: clause) :: clauses),
      token.isPlain = true) : IsQuery (Statement.text ((.word "SELECT" :: clause) :: clauses)) := by
  refine ⟨statements_text hplain, ?_⟩
  rw [tokens_text hplain]
  rfl

theorem isQuery_preview (table : TableName) (limit : Nat) : IsQuery (preview table limit).text := by
  have hselect := fills_keywords ["SELECT"] (by decide)
  have hlimit := (fills_keywords ["LIMIT"] (by decide)).append
    (Fills.single (.number (.integer limit)) rfl)
  have := ((hselect.append fills_everything).append (fills_fromTable table)).append hlimit
  exact isQuery_select this.plain

theorem isQuery_countRows (table : TableName) : IsQuery (countRows table).text := by
  have hcount := (fills_keywords ["SELECT"] (by decide)).append
    (fills_call (by decide : TableName.isPlain ⟨"COUNT"⟩ = true) fills_everything)
  have hname := (fills_keywords ["AS"] (by decide)).append (fills_name rowCountColumn)
  have := (hcount.append hname).append (fills_fromTable table)
  exact isQuery_select this.plain

end Sql

end BlockPipeline

import BlockPipeline.Sql.Compile

set_option autoImplicit false

/-! # Which statements make tables

A statement says with its first word what it does. Of the statements that a run issues only those that
are compiled of configurations make anything. -/

namespace BlockPipeline

namespace Sql

/-- Does the statement make a table or a view? -/
def creates (sql : String) : Bool := "CREATE".toList.isPrefixOf sql.toList

/-- The text of a clause begins with that of its first token. -/
theorem clause_chars_cons (token : Token) (clause : Clause) :
    ∃ rest, Clause.chars (token :: clause) = token.chars ++ rest := by
  cases clause with
  | nil => exact ⟨[], (List.append_nil _).symm⟩
  | cons next clause =>
    rw [Clause.chars, List.append_assoc]
    exact ⟨_, rfl⟩

/-- The text of a statement begins with that of its first clause. -/
theorem text_clause (clause : Clause) (clauses : List Clause) :
    ∃ rest, (Statement.text (clause :: clauses)).toList = Clause.chars clause ++ rest := by
  rw [Statement.text, String.toList_ofList]
  cases clauses with
  | nil => exact ⟨[], (List.append_nil _).symm⟩
  | cons next clauses => exact ⟨' ' :: Statement.chars (next :: clauses), by rw [Statement.chars]; simp⟩

/-- The text of a statement begins with the first word of the statement. -/
theorem text_word (word : String) (clause : Clause) (clauses : List Clause) :
    ∃ rest, (Statement.text ((.word word :: clause) :: clauses)).toList = word.toList ++ rest := by
  obtain ⟨behind, hclause⟩ := clause_chars_cons (.word word) clause
  obtain ⟨rest, htext⟩ := text_clause (.word word :: clause) clauses
  rw [htext, hclause, List.append_assoc]
  exact ⟨_, rfl⟩

theorem compile_eq_create {config : BlockConfig} (h : config.kind ≠ .load) (input output : TableName) :
    ∃ clause clauses, compile config input output = (.word "CREATE" :: clause) :: clauses := by
  cases config with
  | load config => exact absurd rfl h
  | _ => exact ⟨_, _, rfl⟩

/-- The statement of a block that is no load block makes a table or a view. -/
theorem creates_compile {config : BlockConfig} (h : config.kind.isSource = false)
    (input output : TableName) : creates (compile config input output).text = true := by
  obtain ⟨clause, clauses, hcompile⟩ :=
    compile_eq_create (BlockKind.isSource_eq_false_iff.1 h) input output
  obtain ⟨rest, htext⟩ := text_word "CREATE" clause clauses
  rw [creates, hcompile, htext, List.isPrefixOf_iff_prefix]
  exact List.prefix_append _ _

theorem not_isEmpty_of_creates {sql : String} (h : creates sql = true) : ¬ sql.isEmpty = true := by
  intro hempty
  rw [String.isEmpty_iff.1 hempty] at h
  cases h

theorem creates_select (clause : Clause) (clauses : List Clause) :
    creates (Statement.text ((.word "SELECT" :: clause) :: clauses)) = false := by
  obtain ⟨rest, htext⟩ := text_word "SELECT" clause clauses
  rw [creates, htext]
  rfl

theorem creates_preview (table : TableName) (limit : Nat) :
    creates (preview table limit).text = false := creates_select _ _

theorem creates_countRows (table : TableName) : creates (countRows table).text = false :=
  creates_select _ _

end Sql

end BlockPipeline

import BlockPipeline.Engine.Memory
import BlockPipeline.Proofs.Attempt
import BlockPipeline.Proofs.Run.Issued
import Mathlib.Data.Option.Basic

set_option autoImplicit false

/-! # Which table a statement writes

The engine in memory knows a statement by its text, and a name in it by the blanks around it. For the
statements of a run this comes to what their tokens say: one that makes or removes the table of a
block writes the table of that name, and a query writes none. All other tables stay as they are. -/

namespace BlockPipeline.Memory

variable {sql : String} {text name rest : List Char} {form : Form} {table : String} {db : Database}
  {config : BlockConfig} {kind : BlockKind} {id : BlockId}

/-- The table that a statement of the form makes or removes. -/
def Form.written? : Form → Option String
  | .copy output _ => some (tableName output)
  | .drop table => some (tableName table)
  | .preview _ _ | .count _ _ => none

/-! ## Tables that are not written -/

namespace Database

theorem table?_insertTable_self (db : Database) (table : String) (content : Table) :
    (db.insertTable table content).table? table = some content :=
  Assoc.find?_insert_self table content db.tables

theorem table?_insertTable_of_ne {other : String} (h : other ≠ table) (content : Table) :
    (db.insertTable table content).table? other = db.table? other :=
  Assoc.find?_insert_of_ne h content db.tables

theorem table?_removeTable_of_ne {other : String} (h : other ≠ table) :
    (db.removeTable table).table? other = db.table? other :=
  Assoc.find?_erase_of_ne h db.tables

theorem table?_runForm {rows : List Row} {after : Database} (hother : form.written? ≠ some table)
    (h : db.runForm form = .ok (rows, after)) : after.table? table = db.table? table := by
  cases form with
  | copy output input =>
    obtain ⟨content, -, hmade⟩ := bind_eq_ok_iff.1 h
    obtain ⟨-, rfl⟩ := Prod.mk.inj (Except.ok.inj hmade)
    exact table?_insertTable_of_ne (fun heq => hother (congrArg some heq.symm)) content
  | preview written limit =>
    obtain ⟨content, -, hread⟩ := bind_eq_ok_iff.1 h
    obtain ⟨-, rfl⟩ := Prod.mk.inj (Except.ok.inj hread)
    rfl
  | count column written =>
    obtain ⟨content, -, hread⟩ := bind_eq_ok_iff.1 h
    obtain ⟨-, rfl⟩ := Prod.mk.inj (Except.ok.inj hread)
    rfl
  | drop written =>
    obtain ⟨-, rfl⟩ := Prod.mk.inj (Except.ok.inj h)
    exact table?_removeTable_of_ne fun heq => hother (congrArg some heq.symm)

/-- A statement changes no table but the one that its form writes, whether it is refused or not. -/
theorem table?_execute (hother : ∀ form, form? sql = some form → form.written? ≠ some table)
    (db : Database) : (execute sql db).2.table? table = db.table? table := by
  unfold execute
  simp only
  split
  · next rows after hrun =>
    unfold runStatement at hrun
    split at hrun
    · cases hrun
    · split at hrun
      · next form hform => exact (table?_runForm (hother form hform) hrun).trans rfl
      · cases hrun
  · rfl

end Database

/-! ## Reading a statement -/

theorem afterStart?_append (pattern text : List Char) :
    Text.afterStart? pattern (pattern ++ text) = some text := by
  induction pattern with
  | nil => rfl
  | cons c pattern ih => rw [List.cons_append, Text.afterStart?, if_pos rfl, ih]

theorem after?_append (words : String) (text : List Char) :
    after? words (words.toList ++ text) = some text := afterStart?_append _ _

theorem afterObject?_object (kind : BlockKind) (text : List Char) :
    afterObject? (kind.object.toList ++ ' ' :: text) = some text := by
  have hview : after? "TABLE " ("VIEW ".toList ++ text) = none := rfl
  unfold afterObject? BlockKind.object
  split
  · exact (congrArg (· <|> after? "VIEW " ("VIEW ".toList ++ text)) hview).trans
      (after?_append "VIEW " text)
  · exact congrArg (· <|> _) (after?_append "TABLE " text)

theorem run?_append {test : Char → Bool} (hne : name ≠ []) (hname : ∀ c ∈ name, test c = true)
    (hrest : Text.Stops test rest) : run? test (name ++ rest) = some (name, rest) := by
  have htake := hrest.takeWhile_append hname
  have hdrop := hrest.dropWhile_append hname
  simp only [run?, htake, hdrop]
  rw [if_neg (by simpa using hne)]

/-- A statement has one of four forms. -/
theorem form?_eq_some (h : form? sql = some form) :
    copyForm? sql.toList = some form ∨ previewForm? sql.toList = some form ∨
      countForm? sql.toList = some form ∨ dropForm? sql.toList = some form := by
  simp only [form?, Option.orElse_eq_some] at h
  rcases h with h | ⟨-, h | ⟨-, h | ⟨-, h⟩⟩⟩
  · exact .inl h
  · exact .inr (.inl h)
  · exact .inr (.inr (.inl h))
  · exact .inr (.inr (.inr h))

theorem written?_of_previewForm? (h : previewForm? text = some form) : form.written? = none := by
  obtain ⟨source, -, h⟩ := Option.bind_eq_some_iff.1 h
  obtain ⟨⟨written, behind⟩, -, h⟩ := Option.bind_eq_some_iff.1 h
  obtain ⟨source, -, h⟩ := Option.bind_eq_some_iff.1 h
  obtain ⟨⟨limit, rest⟩, -, h⟩ := Option.bind_eq_some_iff.1 h
  simp only at h
  split_ifs at h
  obtain rfl := Option.some.inj h
  rfl

theorem written?_of_countForm? (h : countForm? text = some form) : form.written? = none := by
  obtain ⟨source, -, h⟩ := Option.bind_eq_some_iff.1 h
  obtain ⟨⟨column, behind⟩, -, h⟩ := Option.bind_eq_some_iff.1 h
  obtain ⟨source, -, h⟩ := Option.bind_eq_some_iff.1 h
  obtain ⟨⟨written, rest⟩, -, h⟩ := Option.bind_eq_some_iff.1 h
  simp only at h
  split_ifs at h
  obtain rfl := Option.some.inj h
  rfl

theorem written?_of_copyForm? (hne : name ≠ []) (hname : ∀ c ∈ name, isSolid c = true)
    (h : copyForm? ("CREATE OR REPLACE ".toList ++
      (kind.object.toList ++ ' ' :: (name ++ ' ' :: rest))) = some form) :
    form.written? = some (tableName name) := by
  have hstops : Text.Stops isSolid (' ' :: rest) := Text.stops_cons (by decide) rest
  simp only [copyForm?, after?_append, afterObject?_object, run?_append hne hname hstops,
    Option.bind_eq_bind, Option.bind_some] at h
  obtain ⟨source, -, h⟩ := Option.bind_eq_some_iff.1 h
  obtain ⟨input, -, h⟩ := Option.bind_eq_some_iff.1 h
  obtain rfl := Option.some.inj h
  rfl

theorem written?_of_dropForm? (hne : name ≠ []) (hname : ∀ c ∈ name, isSolid c = true)
    (h : dropForm? ("DROP ".toList ++ (kind.object.toList ++ ' ' :: ("IF EXISTS ".toList ++ name))) =
      some form) : form.written? = some (tableName name) := by
  have hname' : run? isSolid (name ++ []) = some (name, []) :=
    run?_append hne hname fun c hc => by cases hc
  rw [List.append_nil] at hname'
  simp only [dropForm?, after?_append, afterObject?_object, hname', List.isEmpty_nil, if_true,
    Option.bind_eq_bind, Option.bind_some] at h
  obtain rfl := Option.some.inj h
  rfl

/-! ## The tables of blocks -/

theorem isSolid_derived : ∀ c ∈ (TableName.derived id).text.toList, isSolid c = true :=
  TableName.forall_mem_derived (by decide) (by decide)

theorem derived_ne_nil : (TableName.derived id).text.toList ≠ [] := by
  rw [TableName.toList_derived]
  simp

theorem tableName_derived :
    tableName (TableName.derived id).text.toList = (TableName.derived id).text := by
  have hplain : Text.unquoted? '"' (TableName.derived id).text.toList = none := by
    rw [TableName.toList_derived, List.cons_append, Text.unquoted?, if_neg (by simp)]
  rw [tableName, hplain, Option.getD_none, String.ofList_toList]

/-- The statement of a block writes the table of the block. -/
theorem written?_compile (h : config.kind ≠ .load) (input : TableName)
    (hform : form? (Sql.compile config input (.derived id)).text = some form) :
    form.written? = some (TableName.derived id).text := by
  obtain ⟨rest, htext⟩ := Sql.toList_compile h input id
  rcases form?_eq_some hform with hcopy | hother
  · rw [htext] at hcopy
    rw [written?_of_copyForm? derived_ne_nil isSolid_derived hcopy, tableName_derived]
  · -- the other forms begin with other words
    rw [htext] at hother
    rcases hother with hother | hother | hother <;> cases hother

/-- The statement that removes the table of a block writes it too. -/
theorem written?_drop (h : kind ≠ .load)
    (hform : form? (Sql.drop kind (.derived id)).text = some form) :
    form.written? = some (TableName.derived id).text := by
  have htext := Sql.toList_drop h id
  rcases form?_eq_some hform with hother | hother | hother | hdrop
  · rw [htext] at hother
    cases hother
  · rw [htext] at hother
    cases hother
  · rw [htext] at hother
    cases hother
  · rw [htext] at hdrop
    rw [written?_of_dropForm? derived_ne_nil isSolid_derived hdrop, tableName_derived]

/-- A statement that begins with `SELECT` writes nothing. -/
theorem written?_select {clause : Sql.Clause} {clauses : Sql.Statement}
    (hform : form? (Sql.Statement.text ((.word "SELECT" :: clause) :: clauses)) = some form) :
    form.written? = none := by
  obtain ⟨rest, htext⟩ := Sql.text_word "SELECT" clause clauses
  rcases form?_eq_some hform with hother | hpreview | hcount | hother
  · rw [htext] at hother
    cases hother
  · exact written?_of_previewForm? hpreview
  · exact written?_of_countForm? hcount
  · rw [htext] at hother
    cases hother

/-! ## Calls -/

/-- A call that is made for a block changes no table but the one of the block. -/
theorem table?_respond {call : Call} (h : Issued id kind call)
    (hother : table ≠ (TableName.derived id).text) (db : Database) :
    (engine.respond db call).table? table = db.table? table := by
  have hne : some (TableName.derived id).text ≠ some table := fun heq =>
    hother (Option.some.inj heq).symm
  cases h with
  | describe described => rfl
  | preview queried limit =>
    exact Database.table?_execute (fun form hform => by simp [written?_select hform]) db
  | countRows queried =>
    exact Database.table?_execute (fun form hform => by simp [written?_select hform]) db
  | make input kind_eq derived =>
    refine Database.table?_execute (fun form hform => ?_) db
    rwa [written?_compile (kind_eq ▸ derived) input hform]
  | drop derived =>
    refine Database.table?_execute (fun form hform => ?_) db
    rwa [written?_drop derived hform]

/-- Calls in a row that are made for blocks change no table but those of these blocks. -/
theorem table?_foldl_respond {calls : List Call}
    (h : ∀ call ∈ calls, ∃ id kind, Issued id kind call ∧ table ≠ (TableName.derived id).text)
    (db : Database) : (calls.foldl engine.respond db).table? table = db.table? table := by
  induction calls generalizing db with
  | nil => rfl
  | cons call calls ih =>
    obtain ⟨⟨id, kind, hissued, hother⟩, hcalls⟩ := List.forall_mem_cons.1 h
    rw [List.foldl_cons, ih hcalls, table?_respond hissued hother]

end BlockPipeline.Memory

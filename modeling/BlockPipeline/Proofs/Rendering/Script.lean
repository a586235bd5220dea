import BlockPipeline.Proofs.Plan.Entries
import BlockPipeline.Proofs.Session.Reachable
import BlockPipeline.Proofs.Sql.Template
import BlockPipeline.Rendering.Basic

set_option autoImplicit false

/-! # Scripts hold the statements of their plans

Labels, names of source tables and reasons stand in comments, and a comment ends with its line. So a
script holds the statements of its plan and nothing else, if no label is broken into lines and no name
of a source table is (`statements_renderPlan`). -/

namespace BlockPipeline

open Sql

/-- The text has no line break. -/
def OneLine (text : String) : Prop := ∀ c ∈ text.toList, isLineEnd c = false

instance (text : String) : Decidable (OneLine text) :=
  decidable_of_iff (text.toList.all (!isLineEnd ·) = true) (by simp [OneLine])

theorem OneLine.append {text text' : String} (h : OneLine text) (h' : OneLine text') :
    OneLine (text ++ text') := by
  intro c hc
  rw [String.toList_append] at hc
  rcases List.mem_append.1 hc with hc | hc
  · exact h c hc
  · exact h' c hc

/-! ## Parts of a script -/

/-- To whatever follows it, the text adds these statements, and no token that is not theirs. -/
structure Contributes (text : List Char) (sqls : List String) : Prop where
  statements : ∀ rest, statementsFrom [] (pieces (text ++ rest)) =
    sqls ++ statementsFrom [] (pieces rest)
  tokens : ∀ rest, (pieces (text ++ rest)).filter Piece.isToken =
    sqls.flatMap (fun sql => tokens sql ++ [.symbol ";"]) ++ (pieces rest).filter Piece.isToken

namespace Contributes

variable {text text' : List Char} {sqls sqls' : List String}

theorem nil : Contributes [] [] := ⟨fun _ => rfl, fun _ => rfl⟩

theorem append (h : Contributes text sqls) (h' : Contributes text' sqls') :
    Contributes (text ++ text') (sqls ++ sqls') := by
  refine ⟨fun rest => ?_, fun rest => ?_⟩
  · rw [List.append_assoc, h.statements, h'.statements, List.append_assoc]
  · rw [List.append_assoc, h.tokens, h'.tokens, List.flatMap_append, List.append_assoc]

theorem lineEnd : Contributes ['\n'] [] := by
  refine ⟨fun rest => ?_, fun rest => ?_⟩
  · rw [List.singleton_append, pieces_blank rfl]
    rfl
  · rw [List.singleton_append, pieces_blank rfl]
    rfl

theorem comment {line : String} (h : OneLine line) :
    Contributes ("-- " ++ line ++ "\n").toList [] := by
  have hline : ∀ c ∈ ' ' :: line.toList, isLineEnd c = false :=
    List.forall_mem_cons.2 ⟨rfl, h⟩
  have hpieces (rest : List Char) : pieces (("-- " ++ line ++ "\n").toList ++ rest) =
      .comment (.ofList ('-' :: '-' :: ' ' :: line.toList)) :: pieces ('\n' :: rest) := by
    have := pieces_comment hline (Text.stops_cons (c := '\n') rfl rest)
    simpa using this
  have hend := lineEnd
  refine ⟨fun rest => ?_, fun rest => ?_⟩
  · rw [hpieces]
    exact hend.statements rest
  · rw [hpieces]
    exact hend.tokens rest

theorem compiled {config : BlockConfig} (h : config.kind ≠ .load) (input output : TableName) :
    Contributes ((compile config input output).text ++ ";").toList
      [(compile config input output).text] := by
  have hapart (rest : List Char) : Apart (';' :: rest) := apart_cons (by decide) rest
  have htext (rest : List Char) : ((compile config input output).text ++ ";").toList ++ rest =
      (compile config input output).chars ++ (';' :: rest) := by
    simp [Statement.text]
  obtain ⟨cs, hchars⟩ := compile_chars h input output
  refine ⟨fun rest => ?_, fun rest => ?_⟩
  · rw [htext, statementsFrom_compile h input output (hapart rest), pieces_semicolon, statementsFrom,
      if_pos rfl, finished, if_neg (by simp [hchars])]
    · rfl
    · simp
    · simp
  · have hreads := reads_statement _ (fills_compile config input output).plain
    rw [htext, hreads.closed _ (hapart rest), List.filter_append, pieces_semicolon,
      List.filter_cons_of_pos rfl]
    simp [Sql.tokens, Statement.text]

theorem flatMap {α : Type} (items : List α) (part : α → String) (sqls : α → List String)
    (h : ∀ item ∈ items, Contributes (part item).toList (sqls item)) :
    Contributes (String.join (items.map part)).toList (items.flatMap sqls) := by
  induction items with
  | nil => exact nil
  | cons item items ih =>
    have hitem := h item List.mem_cons_self
    have hrest := ih fun item hmem => h item (List.mem_cons_of_mem _ hmem)
    have := hitem.append hrest
    simpa using this

end Contributes

/-! ## What stands in comments -/

theorem oneLine_digits (id : BlockId) : ∀ c ∈ id.digits, isLineEnd c = false := by
  have hdigit : ∀ d < 16, isLineEnd (Nat.digitChar d) = false := by decide
  have hwidth (width n : Nat) : ∀ c ∈ Uuid.hexDigits width n, isLineEnd c = false := by
    induction width generalizing n with
    | zero => simp [Uuid.hexDigits]
    | succ width ih =>
      intro c hc
      rw [Uuid.hexDigits] at hc
      rcases List.mem_append.1 hc with hc | hc
      · exact ih _ c hc
      · rw [List.mem_singleton.1 hc]
        exact hdigit _ (Nat.mod_lt n (by omega))
  exact hwidth 32 _

theorem mem_hyphenate {groups : List Nat} {cs : List Char} {c : Char}
    (h : c ∈ Uuid.hyphenate groups cs) : c = '-' ∨ c ∈ cs := by
  fun_induction Uuid.hyphenate groups cs with
  | case1 cs => exact .inr h
  | case2 cs => exact .inr h
  | case3 cs n m rest ih =>
    rcases List.mem_append.1 h with h | h
    · exact .inr (List.mem_of_mem_take h)
    rcases List.mem_cons.1 h with h | h
    · exact .inl h
    · exact (ih h).imp_right List.mem_of_mem_drop

theorem oneLine_text (id : BlockId) : OneLine id.text := by
  intro c hc
  rw [Uuid.text, String.toList_ofList] at hc
  rcases mem_hyphenate hc with rfl | hc
  · rfl
  · exact oneLine_digits id c hc

theorem oneLine_message {error : ValidationError}
    (h : ∀ name, error = .invalidTableName name → OneLine name) : OneLine error.message := by
  cases error with
  | invalidTableName name =>
    have hbefore : OneLine "Table name '" := by decide
    have hafter : OneLine "' must be a plain identifier" := by decide
    exact (hbefore.append (h name rfl)).append hafter
  | missingMetricColumn function => cases function <;> decide
  | _ => decide

/-- Only load blocks are refused for the name of a table. -/
theorem validate_invalidTableName {config : BlockConfig} {name : String}
    (h : config.validate = .error (.invalidTableName name)) :
    ∃ load, config = .load load ∧ load.tableName = name := by
  cases config with
  | load load =>
    simp only [BlockConfig.validate, LoadConfig.validate] at h
    split at h
    · cases h
    split at h
    · cases h
    · cases h
      exact ⟨load, rfl, rfl⟩
  | filter config => grind [BlockConfig.validate, FilterConfig.validate]
  | aggregate config => grind [BlockConfig.validate, AggregateConfig.validate]
  | sort config => grind [BlockConfig.validate, SortConfig.validate]
  | chart config => grind [BlockConfig.validate, ChartConfig.validate]
  | insight config => cases h

/-! ## Plans -/

/-- What stands in a plan can be put into a script. -/
structure Plan.Writable (plan : Plan) : Prop where
  blocks : ∀ planned ∈ plan.blocks, planned.sql = "" ∧ OneLine planned.output.text ∨
    ∃ config input output, config.kind ≠ .load ∧ planned.sql = (compile config input output).text
  reasons : ∀ skipped ∈ plan.skipped, OneLine skipped.reason

variable {g : Graph} {plan : Plan} {block : Block}

/-- The labels of blocks and the names of tables to load have no line breaks. -/
structure Graph.Unbroken (g : Graph) : Prop where
  labels : ∀ id block, g.find? id = some block → OneLine block.label
  tables : ∀ id block load, g.find? id = some block → block.config = .load load →
    OneLine load.tableName

theorem Graph.unbroken_of_stored
    (h : ∀ entry ∈ g.stored, OneLine entry.2.label ∧ OneLine entry.2.targetTable.text) :
    g.Unbroken := by
  refine ⟨fun id block hfind => (h _ (Assoc.mem_of_find? hfind)).1, ?_⟩
  intro id block load hfind hload
  have htable := (h _ (Assoc.mem_of_find? hfind)).2
  rwa [Block.targetTable, hload] at htable

theorem entry_error_oneLine (htable : ∀ load, block.config = .load load → OneLine load.tableName)
    {reason : String} (h : plan.entry g block = .error reason) : OneLine reason := by
  rw [Plan.entry_eq] at h
  cases hvalid : block.config.validate with
  | error error =>
    rw [hvalid] at h
    cases h
    refine oneLine_message ?_
    rintro name rfl
    obtain ⟨load, hload, rfl⟩ := validate_invalidTableName hvalid
    exact htable load hload
  | ok done =>
    rw [hvalid] at h
    simp only at h
    split at h
    · cases h
    split at h
    · cases h
      decide
    · next feeder hinput =>
        split at h
        · cases h
          have hbefore : OneLine "upstream block " := by decide
          have hafter : OneLine " was skipped" := by decide
          exact (hbefore.append (oneLine_text feeder)).append hafter
        · cases h

theorem Plan.Writable.extend (h : plan.Writable) (hg : g.Unbroken) (id : BlockId) :
    (plan.extend g id).Writable := by
  unfold Plan.extend
  cases hfind : g.find? id with
  | none => exact h
  | some block =>
    simp only
    cases hentry : plan.entry g block with
    | error reason =>
      refine ⟨h.blocks, List.forall_mem_append.2 ⟨h.reasons, ?_⟩⟩
      rw [List.forall_mem_singleton]
      exact entry_error_oneLine (hg.tables id block · hfind) hentry
    | ok planned =>
      refine ⟨List.forall_mem_append.2 ⟨h.blocks, ?_⟩, h.reasons⟩
      rw [List.forall_mem_singleton]
      obtain ⟨-, -, houtput, -, hsource, hfed⟩ := Plan.entry_eq_ok hentry
      cases hconfig : block.config with
      | load load =>
        have htable : block.targetTable = ⟨load.tableName⟩ := by simp [Block.targetTable, hconfig]
        refine .inl ⟨hsource (by simp [Block.kind, hconfig, BlockConfig.kind, BlockKind.isSource]), ?_⟩
        rw [houtput, htable]
        exact hg.tables id block load hfind hconfig
      | _ =>
        obtain ⟨feeder, above, -, -, hsql⟩ :=
          hfed (by simp [Block.kind, hconfig, BlockConfig.kind, BlockKind.isSource])
        exact .inr ⟨_, _, _, by simp [hconfig, BlockConfig.kind], hsql⟩

theorem Plan.writable_ofGraph (hg : g.Unbroken) : (Plan.ofGraph g).Writable := by
  have hfold (order : List BlockId) (plan : Plan) (h : plan.Writable) :
      (order.foldl (Plan.extend g) plan).Writable := by
    induction order generalizing plan with
    | nil => exact h
    | cons id order ih => exact ih _ (h.extend hg id)
  exact hfold _ _ ⟨by simp, by simp⟩

/-! ## Scripts -/

namespace Session

variable {s : Session}

theorem oneLine_labelOf (hg : s.graph.Unbroken) (id : BlockId) : OneLine (s.labelOf id) := by
  unfold labelOf
  split
  · next block hfind => exact hg.labels id block hfind
  · exact oneLine_text id

theorem contributes_plannedPart (hg : s.graph.Unbroken) {planned : PlannedBlock}
    (h : planned.sql = "" ∧ OneLine planned.output.text ∨ ∃ config input output,
      config.kind ≠ .load ∧ planned.sql = (compile config input output).text) :
    Contributes (s.plannedPart planned).toList ([planned.sql].filter (!·.isEmpty)) := by
  have hlabel := oneLine_labelOf hg planned.id
  have hend := Contributes.lineEnd
  unfold plannedPart
  rcases h with ⟨hsql, htable⟩ | ⟨config, input, output, hkind, hsql⟩
  · have hmiddle : OneLine ": source table " := by decide
    have := (Contributes.comment ((hlabel.append hmiddle).append htable)).append hend
    rw [hsql]
    simpa using this
  · obtain ⟨cs, hchars⟩ := compile_chars hkind input output
    have hne : (compile config input output).text.isEmpty = false := by
      rw [Statement.isEmpty_text, Statement.isBlank, hchars]
      rfl
    have := ((Contributes.comment hlabel).append (Contributes.compiled hkind input output)).append
      (hend.append hend)
    rw [hsql]
    simpa [hne] using this

theorem contributes_skippedPart (hg : s.graph.Unbroken) {skipped : SkippedBlock}
    (h : OneLine skipped.reason) : Contributes (s.skippedPart skipped).toList [] := by
  have hlabel := oneLine_labelOf hg skipped.id
  have hopen : OneLine ": skipped (" := by decide
  have hclose : OneLine ")" := by decide
  have := Contributes.comment (((hlabel.append hopen).append h).append hclose)
  simpa [skippedPart, String.append_assoc] using this

/-- A script is read as the statements of its plan, if no label and no name of a source table is
    broken into lines. All its tokens are those of the statements, so labels, names of source tables
    and reasons are in comments. -/
theorem statements_renderPlan (hg : s.graph.Unbroken) :
    statements (s.renderPlan s.plan .text) = s.plan.statements ∧
      tokens (s.renderPlan s.plan .text) =
        s.plan.statements.flatMap fun sql => tokens sql ++ [.symbol ";"] := by
  have hwritable := Plan.writable_ofGraph hg
  have hplanned := Contributes.flatMap s.plan.blocks s.plannedPart _ fun planned hmem =>
    contributes_plannedPart hg (hwritable.blocks planned hmem)
  have hskipped := Contributes.flatMap s.plan.skipped s.skippedPart (fun _ => []) fun skipped hmem =>
    contributes_skippedPart hg (hwritable.reasons skipped hmem)
  have hscript := hplanned.append hskipped
  have htext : (s.renderPlan s.plan .text).toList =
      (String.join (s.plan.blocks.map s.plannedPart)).toList ++
        (String.join (s.plan.skipped.map s.skippedPart)).toList := by
    simp [renderPlan, script]
  have hsqls : (s.plan.blocks.flatMap fun planned => [planned.sql].filter (!·.isEmpty)) ++
      s.plan.skipped.flatMap (fun _ => []) = s.plan.statements := by
    rw [Plan.statements, List.map_eq_flatMap, List.filter_flatMap]
    simp
  rw [← htext, hsqls] at hscript
  have hstatements := hscript.statements []
  have htokens := hscript.tokens []
  simp only [List.append_nil, pieces_nil, List.filter_nil] at hstatements htokens
  exact ⟨by rw [statements, hstatements]; exact List.append_nil _, htokens⟩

/-- Marks of comments, quotes and semicolons do no harm in labels, names of tables and columns. -/
theorem statements_of_marked_labels :
    let load : BlockId := ⟨1⟩
    let filter : BlockId := ⟨2⟩
    let broken : BlockId := ⟨3⟩
    let s := [Edit.addConfig load (.load { tableName := "orders" }),
      .addConfig filter (.filter { column := "a;\n-- \"", value := some (.text "it's; --") }),
      .connect load filter, .addConfig broken (.load { tableName := "x'; DROP TABLE orders" }),
      .rename load "a; DROP TABLE orders; --", .rename filter "\"'"].foldl Edit.apply .empty
    s.graph.Unbroken ∧ s.plan.blocks.length = 2 ∧ s.plan.skipped.length = 1 ∧
      statements (s.renderPlan s.plan .text) =
        ["CREATE OR REPLACE TABLE temp_00000000000000000000000000000002 AS SELECT * FROM orders " ++
          "WHERE \"a;\n-- \"\"\" = 'it''s; --'"] := by
  intro load filter broken s
  have hg : s.graph.Unbroken := Graph.unbroken_of_stored (by decide +kernel)
  exact ⟨hg, by decide +kernel, by decide +kernel,
    (statements_renderPlan hg).1.trans (by decide +kernel)⟩

/-- What follows a line break in a label is outside the comment. -/
theorem statement_in_broken_label :
    let load : BlockId := ⟨1⟩
    let s := [Edit.addConfig load (.load { tableName := "orders" }),
      .rename load "Orders\nDROP TABLE orders; --"].foldl Edit.apply .empty
    s.Reachable ∧ s.plan.statements = [] ∧
      statements (s.renderPlan s.plan .text) = ["DROP TABLE orders"] := by
  intro load s
  exact ⟨.edits .empty (by decide +kernel), by decide +kernel, by decide +kernel⟩

end Session

end BlockPipeline

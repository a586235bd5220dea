import BlockPipeline.Proofs.Sql.Reading
import BlockPipeline.Sql.Compile
import Mathlib.Data.List.Forall2

set_option autoImplicit false

/-! # What the statements of blocks are read as

For each kind of block the tokens of its statement are laid down here once more, as a template that
the configuration fills in (`template`). What is read of the text of a statement is the filled
template, whatever the texts in the configuration (`reads_compile`): each of them is inside one name
or one text, and none of them makes a token more or less (`shape_template`). -/

namespace BlockPipeline

namespace Sql

/-! ## Templates -/

def tablePiece (name : TableName) : Piece :=
  if isBare name then .word name.text else .name name.text

def words (texts : List String) : List Piece := texts.map .word

/-- The items with a comma between each two. -/
def listed (items : List (List Piece)) : List Piece := [Piece.symbol ","].intercalate items

/-- How a statement begins that makes a table or a view. -/
def making (object : String) (output : TableName) : List Piece :=
  words ["CREATE", "OR", "REPLACE", object] ++ [tablePiece output] ++ words ["AS", "SELECT"]

def reading (input : TableName) : List Piece := [.word "FROM", tablePiece input]

def valueTemplate : Option FilterValue → List Piece
  | none => words ["NULL"]
  | some (.bool true) => words ["TRUE"]
  | some (.bool false) => words ["FALSE"]
  | some (.number n) => (Token.number n).pieces
  | some (.text value) => [.text value]

/-- The value between two percent signs. -/
def patternTemplate (value : Option FilterValue) : List Piece :=
  [.text ("%" ++ (value.map FilterValue.plainText).getD "" ++ "%")]

def comparisonTemplate (value : Option FilterValue) : FilterOperator → List Piece
  | .equal => .symbol "=" :: valueTemplate value
  | .notEqual => .symbol "!=" :: valueTemplate value
  | .greater => .symbol ">" :: valueTemplate value
  | .less => .symbol "<" :: valueTemplate value
  | .greaterOrEqual => .symbol ">=" :: valueTemplate value
  | .lessOrEqual => .symbol "<=" :: valueTemplate value
  | .contains => words ["LIKE"] ++ patternTemplate value
  | .notContains => words ["NOT", "LIKE"] ++ patternTemplate value

def argumentTemplate (metric : Metric) : AggregateFunction → List Piece
  | .count => [.word "COUNT", .symbol "(", .symbol "*", .symbol ")"]
  | .sum => [.word "SUM", .symbol "(", .name metric.column, .symbol ")"]
  | .avg => [.word "AVG", .symbol "(", .name metric.column, .symbol ")"]
  | .min => [.word "MIN", .symbol "(", .name metric.column, .symbol ")"]
  | .max => [.word "MAX", .symbol "(", .name metric.column, .symbol ")"]

def metricTemplate (metric : Metric) : List Piece :=
  argumentTemplate metric metric.function ++ [.word "AS", .name metric.outputName]

def groupTemplate (columns : List String) : List Piece :=
  if columns = [] then [] else words ["GROUP", "BY"] ++ listed (columns.map ([Piece.name ·]))

/-- The tokens of the statement that makes the output of a block from its input. -/
def template (input output : TableName) : BlockConfig → List Piece
  | .load _ => []
  | .filter config =>
    making "TABLE" output ++ [.symbol "*"] ++ reading input ++ words ["WHERE"] ++
      .name config.column :: comparisonTemplate config.value config.operator
  | .aggregate config =>
    making "TABLE" output ++
      listed (config.groupBy.map ([Piece.name ·]) ++ config.metrics.map metricTemplate) ++
      reading input ++ groupTemplate config.groupBy
  | .sort config =>
    making "TABLE" output ++ [.symbol "*"] ++ reading input ++ words ["ORDER", "BY"] ++
      [.name config.column, .word (directionWord config.direction)]
  | .chart _ | .insight _ => making "VIEW" output ++ [.symbol "*"] ++ reading input

/-! ## Statements fill in their templates -/

/-- The tokens are plain and read as these pieces. -/
structure Fills (ts : List Token) (ps : List Piece) : Prop where
  plain : ∀ token ∈ ts, token.isPlain = true
  pieces : ts.flatMap Token.pieces = ps

namespace Fills

variable {ts ts' : List Token} {ps ps' : List Piece}

theorem nil : Fills [] [] := ⟨by simp, rfl⟩

theorem append (h : Fills ts ps) (h' : Fills ts' ps') : Fills (ts ++ ts') (ps ++ ps') := by
  refine ⟨?_, by rw [List.flatMap_append, h.pieces, h'.pieces]⟩
  intro token htoken
  rcases List.mem_append.1 htoken with htoken | htoken
  · exact h.plain token htoken
  · exact h'.plain token htoken

theorem single (token : Token) (h : token.isPlain = true) : Fills [token] token.pieces :=
  ⟨by simp [h], by simp⟩

theorem commaSeparated {parts : List Clause} {items : List (List Piece)}
    (h : List.Forall₂ Fills parts items) : Fills (commaSeparated parts) (listed items) := by
  have hcomma := single (.symbol ",") rfl
  induction h with
  | nil => exact nil
  | @cons part item parts items hpart hrest ih =>
    cases hrest with
    | nil => simpa [Sql.commaSeparated, listed] using hpart
    | cons =>
      have := hpart.append (hcomma.append ih)
      simpa [Sql.commaSeparated, listed, Token.pieces] using this

end Fills

theorem fills_keywords (texts : List String) (h : ∀ w ∈ texts, TableName.isPlain ⟨w⟩ = true) :
    Fills (keywords texts) (words texts) := by
  induction texts with
  | nil => exact Fills.nil
  | cons w texts ih =>
    rw [List.forall_mem_cons] at h
    exact (Fills.single (.word w) h.1).append (ih h.2)

theorem fills_tableToken (name : TableName) : Fills [tableToken name] [tablePiece name] := by
  unfold tableToken tablePiece
  split
  · next hbare =>
      rw [isBare, Bool.and_eq_true] at hbare
      exact Fills.single (.word name.text) hbare.1
  · exact Fills.single (.name name.text) rfl

theorem fills_name (name : String) : Fills [.name name] [.name name] := Fills.single (.name name) rfl

theorem fills_making (object : String) (hobject : TableName.isPlain ⟨object⟩ = true)
    (output : TableName) :
    Fills (keywords ["CREATE", "OR", "REPLACE", object] ++ [tableToken output] ++
      keywords ["AS", "SELECT"]) (making object output) := by
  have hcreate : Fills (keywords ["CREATE", "OR", "REPLACE", object])
      (words ["CREATE", "OR", "REPLACE", object]) := by
    apply fills_keywords
    simp only [List.forall_mem_cons]
    exact ⟨by decide, by decide, by decide, hobject, by simp⟩
  have hselect := fills_keywords ["AS", "SELECT"] (by decide)
  exact (hcreate.append (fills_tableToken output)).append hselect

theorem fills_fromTable (input : TableName) : Fills (fromTable input) (reading input) :=
  (fills_keywords ["FROM"] (by decide)).append (fills_tableToken input)

theorem fills_everything : Fills everything [.symbol "*"] := Fills.single (.symbol "*") (by decide)

theorem fills_literal (value : Option FilterValue) : Fills [literal value] (valueTemplate value) := by
  cases value with
  | none => exact fills_keywords ["NULL"] (by decide)
  | some value =>
    cases value with
    | bool b =>
      cases b with
      | true => exact fills_keywords ["TRUE"] (by decide)
      | false => exact fills_keywords ["FALSE"] (by decide)
    | number n => exact Fills.single (.number n) rfl
    | text value => exact Fills.single (.text value) rfl

theorem fills_condition (config : FilterConfig) :
    Fills (condition config)
      (.name config.column :: comparisonTemplate config.value config.operator) := by
  have hvalue := fills_literal config.value
  have hpattern : Fills [likePattern config.value] (patternTemplate config.value) :=
    Fills.single (.text _) rfl
  refine (fills_name config.column).append ?_
  cases config.operator with
  | contains => exact (fills_keywords ["LIKE"] (by decide)).append hpattern
  | notContains => exact (fills_keywords ["NOT", "LIKE"] (by decide)).append hpattern
  | _ => exact (Fills.single (.symbol _) (by decide)).append hvalue

theorem fills_call {function : String} {argument : Token} {ps : List Piece}
    (hfunction : TableName.isPlain ⟨function⟩ = true) (h : Fills [argument] ps) :
    Fills [.word function, .symbol "(", argument, .symbol ")"]
      (.word function :: .symbol "(" :: ps ++ [.symbol ")"]) := by
  have hopen := (Fills.single (.word function) hfunction).append (Fills.single (.symbol "(") rfl)
  exact (hopen.append h).append (Fills.single (.symbol ")") rfl)

theorem fills_metricClause (metric : Metric) : Fills (metricClause metric) (metricTemplate metric) := by
  have hcolumn := fills_name metric.column
  have hname := (fills_keywords ["AS"] (by decide)).append (fills_name metric.outputName)
  unfold metricClause metricTemplate
  cases metric.function with
  | count => exact (fills_call (by decide) fills_everything).append hname
  | _ => exact (fills_call (by decide) hcolumn).append hname

theorem fills_names (columns : List String) :
    List.Forall₂ Fills (columns.map fun column => [Token.name column])
      (columns.map ([Piece.name ·])) := by
  rw [List.forall₂_map_left_iff, List.forall₂_map_right_iff, List.forall₂_same]
  intro column _
  exact fills_name column

theorem fills_aggregateColumns (config : AggregateConfig) :
    Fills (aggregateColumns config)
      (listed (config.groupBy.map ([Piece.name ·]) ++ config.metrics.map metricTemplate)) := by
  refine Fills.commaSeparated (List.rel_append (fills_names config.groupBy) ?_)
  rw [List.forall₂_map_left_iff, List.forall₂_map_right_iff, List.forall₂_same]
  intro metric _
  exact fills_metricClause metric

theorem fills_groupClauses (config : AggregateConfig) :
    Fills (groupClauses config).flatten (groupTemplate config.groupBy) := by
  have hcolumns := (fills_keywords ["GROUP", "BY"] (by decide)).append
    (Fills.commaSeparated (fills_names config.groupBy))
  unfold groupClauses groupTemplate
  cases hgroup : config.groupBy with
  | nil => exact Fills.nil
  | cons column columns => simpa [hgroup] using hcolumns

/-- The tokens of a statement fill in its template. -/
theorem fills_compile (config : BlockConfig) (input output : TableName) :
    Fills (compile config input output).tokens (template input output config) := by
  have htable := fills_making "TABLE" (by decide) output
  have hview := fills_making "VIEW" (by decide) output
  have hinput := fills_fromTable input
  cases config with
  | load config => exact Fills.nil
  | filter config =>
    have hwhere := (fills_keywords ["WHERE"] (by decide)).append (fills_condition config)
    have := ((htable.append fills_everything).append hinput).append hwhere
    simpa [compile, createTable, Statement.tokens, template, keywords, words] using this
  | aggregate config =>
    have hselect := htable.append (fills_aggregateColumns config)
    have := (hselect.append hinput).append (fills_groupClauses config)
    simpa [compile, createTable, Statement.tokens, template, keywords, words] using this
  | sort config =>
    have hdirection : Fills [.word (directionWord config.direction)]
        [.word (directionWord config.direction)] := by
      cases config.direction with
      | _ => exact Fills.single (.word _) (by decide)
    have horder := (fills_keywords ["ORDER", "BY"] (by decide)).append
      ((fills_name config.column).append hdirection)
    have := ((htable.append fills_everything).append hinput).append horder
    simpa [compile, createTable, Statement.tokens, template, keywords, words] using this
  | chart config =>
    have := (hview.append fills_everything).append hinput
    simpa [compile, Statement.tokens, template] using this
  | insight config =>
    have := (hview.append fills_everything).append hinput
    simpa [compile, Statement.tokens, template] using this

theorem compile_chars {config : BlockConfig} (h : config.kind ≠ .load) (input output : TableName) :
    ∃ cs, (compile config input output).chars = 'C' :: cs := by
  obtain ⟨clause, clauses, hcompile⟩ := compile_eq_create h input output
  obtain ⟨rest, htext⟩ := text_word "CREATE" clause clauses
  rw [Statement.text, String.toList_ofList] at htext
  rw [hcompile, htext]
  exact ⟨_, rfl⟩

theorem statementsFrom_compile {config : BlockConfig} (h : config.kind ≠ .load)
    (input output : TableName) {rest : List Char} (hrest : Apart rest) :
    statementsFrom [] (pieces ((compile config input output).chars ++ rest)) =
      statementsFrom (compile config input output).chars (pieces rest) := by
  obtain ⟨cs, hchars⟩ := compile_chars h input output
  exact statementsFrom_statement (fills_compile config input output).plain hchars rfl hrest

theorem tokens_compile (config : BlockConfig) (input output : TableName) :
    tokens (compile config input output).text = template input output config := by
  have hfills := fills_compile config input output
  rw [tokens_text hfills.plain, hfills.pieces]

/-! ## The shape of a template -/

/-- The piece without the text that a name or a text holds. -/
def Piece.shape : Piece → Piece
  | .name _ => .name ""
  | .text _ => .text ""
  | piece => piece

end Sql

def FilterValue.withoutText : FilterValue → FilterValue
  | .text _ => .text ""
  | value => value

/-- The configuration with empty texts only. -/
def BlockConfig.withoutTexts : BlockConfig → BlockConfig
  | .load _ => .load {}
  | .filter config =>
    .filter { operator := config.operator, value := config.value.map FilterValue.withoutText }
  | .aggregate config =>
    .aggregate {
      groupBy := config.groupBy.map fun _ => ""
      metrics := config.metrics.map fun metric => { function := metric.function } }
  | .sort config => .sort { direction := config.direction }
  | .chart _ => .chart {}
  | .insight _ => .insight {}

namespace Sql

theorem shape_valueTemplate (value : Option FilterValue) :
    (valueTemplate (value.map FilterValue.withoutText)).map Piece.shape =
      (valueTemplate value).map Piece.shape := by
  cases value with
  | none => rfl
  | some value => cases value <;> rfl

theorem shape_comparisonTemplate (value : Option FilterValue) (operator : FilterOperator) :
    (comparisonTemplate (value.map FilterValue.withoutText) operator).map Piece.shape =
      (comparisonTemplate value operator).map Piece.shape := by
  cases operator with
  | contains => rfl
  | notContains => rfl
  | _ => simp [comparisonTemplate, shape_valueTemplate]

theorem shape_metricTemplate (metric : Metric) :
    (metricTemplate { function := metric.function }).map Piece.shape =
      (metricTemplate metric).map Piece.shape := by
  unfold metricTemplate
  cases metric.function <;> rfl

theorem shape_listed (items : List (List Piece)) :
    (listed items).map Piece.shape = listed (items.map (List.map Piece.shape)) := by
  induction items with
  | nil => rfl
  | cons item items ih =>
    cases items with
    | nil => simp [listed]
    | cons next items =>
      simp only [listed, List.map_cons, List.intercalate_cons_cons, List.map_append] at ih ⊢
      rw [ih]
      rfl

theorem shape_names (columns : List String) :
    ((columns.map fun _ => "").map ([Piece.name ·])).map (List.map Piece.shape) =
      (columns.map ([Piece.name ·])).map (List.map Piece.shape) := by
  rw [List.map_map, List.map_map, List.map_map]
  rfl

theorem shape_metrics (metrics : List Metric) :
    ((metrics.map fun metric => { function := metric.function }).map metricTemplate).map
        (List.map Piece.shape) = (metrics.map metricTemplate).map (List.map Piece.shape) := by
  rw [List.map_map, List.map_map, List.map_map]
  exact List.map_congr_left fun metric _ => shape_metricTemplate metric

theorem shape_groupTemplate (columns : List String) :
    (groupTemplate (columns.map fun _ => "")).map Piece.shape =
      (groupTemplate columns).map Piece.shape := by
  cases columns with
  | nil => rfl
  | cons column columns =>
    rw [groupTemplate, groupTemplate, if_neg (by simp), if_neg (by simp), List.map_append,
      List.map_append, shape_listed, shape_listed, shape_names]

/-- Texts of a configuration have no influence on the shape. -/
theorem shape_template (config : BlockConfig) (input output : TableName) :
    (template input output config.withoutTexts).map Piece.shape =
      (template input output config).map Piece.shape := by
  cases config with
  | load config => rfl
  | filter config => simp [template, BlockConfig.withoutTexts, shape_comparisonTemplate, Piece.shape]
  | aggregate config =>
    simp only [template, BlockConfig.withoutTexts, List.map_append, shape_listed,
      shape_groupTemplate, shape_names, shape_metrics]
  | sort config => simp [template, BlockConfig.withoutTexts, Piece.shape]
  | chart config => rfl
  | insight config => rfl

/-- Read by the lexical rules of SQL, the text of a statement is one statement, and its tokens are the
    filled template. Which texts the configuration holds only decides what is inside names and texts,
    and not how many tokens there are or which. -/
theorem compile_reads_as_template {config : BlockConfig} (h : config.kind ≠ .load)
    (input output : TableName) :
    statements (compile config input output).text = [(compile config input output).text] ∧
      tokens (compile config input output).text = template input output config ∧
      (tokens (compile config input output).text).map Piece.shape =
        (tokens (compile config.withoutTexts input output).text).map Piece.shape := by
  refine ⟨?_, tokens_compile config input output, ?_⟩
  · obtain ⟨cs, hchars⟩ := compile_chars h input output
    have := statementsFrom_compile h input output apart_nil
    rw [List.append_nil, pieces_nil, statementsFrom, finished, hchars, if_neg (by simp)] at this
    rw [statements, Statement.text, String.toList_ofList, hchars, this]
  · rw [tokens_compile, tokens_compile, shape_template]

/-- Quotes, semicolons, dashes and line breaks inside a name stay inside the name. -/
theorem aggregation_of_quoted_columns :
    let config := BlockConfig.aggregate {
      groupBy := ["a\"; DROP TABLE t; --", "b\n"]
      metrics := [{ column := "it's", function := .sum, givenName := some "\"" }] }
    config.kind ≠ .load ∧
      statements (compile config ⟨"order"⟩ ⟨"out"⟩).text = [(compile config ⟨"order"⟩ ⟨"out"⟩).text] ∧
      tokens (compile config ⟨"order"⟩ ⟨"out"⟩).text =
        [.word "CREATE", .word "OR", .word "REPLACE", .word "TABLE", .word "out", .word "AS",
          .word "SELECT", .name "a\"; DROP TABLE t; --", .symbol ",", .name "b\n", .symbol ",",
          .word "SUM", .symbol "(", .name "it's", .symbol ")", .word "AS", .name "\"",
          .word "FROM", .name "order", .word "GROUP", .word "BY",
          .name "a\"; DROP TABLE t; --", .symbol ",", .name "b\n"] := by
  intro config
  have hkind : config.kind ≠ .load := by decide
  obtain ⟨hstatements, htokens, -⟩ := compile_reads_as_template hkind ⟨"order"⟩ ⟨"out"⟩
  exact ⟨hkind, hstatements, htokens.trans (by decide +kernel)⟩

end Sql

end BlockPipeline

import BlockPipeline.Block.Validation
import BlockPipeline.Proofs.Separated
import BlockPipeline.Proofs.Sql.Like

set_option autoImplicit false

/-! # Complete configurations have whole statements

Every configuration is compiled, complete or not. What is missing then shows in the statement: a name
without characters, `NULL` or an empty text to compare with, a pattern that holds nothing between its
percent signs, or no aggregate expression. A statement without all this is `Whole`. For filters,
aggregations and sorts, validation accepts exactly the configurations that have whole statements
(`validate_iff_whole`). -/

namespace BlockPipeline

/-! ## What validation asks for -/

theorem FilterValue.plainText_eq_empty_iff {value : FilterValue} :
    value.plainText = "" ↔ value.isEmpty = true := by
  cases value with
  | bool b => cases b <;> simp [plainText, isEmpty]
  | text s => simp [plainText, isEmpty]
  | number n =>
    -- the text of a number has digits
    obtain ⟨c, cs, htext, -⟩ := Sql.Numeral.cons n.numeral_text
    have hne : n.text.toList ≠ [] := by simp [n.text_eq_sign, htext]
    simp only [plainText, isEmpty, Bool.false_eq_true, iff_false]
    rintro hempty
    exact hne (by rw [hempty]; rfl)

theorem FilterConfig.validate_eq_ok_iff {config : FilterConfig} : config.validate = .ok () ↔
    config.column ≠ "" ∧ (config.value.map FilterValue.plainText).getD "" ≠ "" := by
  unfold FilterConfig.validate
  by_cases hcolumn : config.column = ""
  · simp [hcolumn]
  · cases config.value with
    | none => simp [hcolumn]
    | some value =>
      rw [Option.map_some, Option.getD_some, ne_eq, ne_eq, FilterValue.plainText_eq_empty_iff]
      simp [hcolumn]

theorem AggregateConfig.validate_eq_ok_iff {config : AggregateConfig} : config.validate = .ok () ↔
    config.metrics ≠ [] ∧ "" ∉ config.groupBy ∧
      ∀ metric ∈ config.metrics, metric.lacksColumn = false := by
  unfold AggregateConfig.validate
  by_cases hmetrics : config.metrics = []
  · simp [hmetrics]
  · by_cases hgroup : "" ∈ config.groupBy
    · have hany : config.groupBy.any String.isEmpty = true :=
        List.any_eq_true.2 ⟨"", hgroup, rfl⟩
      simp [hmetrics, hgroup, hany]
    · have hany : config.groupBy.any String.isEmpty = false := by
        rw [List.any_eq_false]
        intro column hcolumn hempty
        rw [String.isEmpty_iff.1 hempty] at hcolumn
        exact hgroup hcolumn
      cases hfind : config.metrics.find? Metric.lacksColumn with
      | none =>
        rw [List.find?_eq_none] at hfind
        simpa [hmetrics, hgroup, hany] using hfind
      | some metric =>
        have hlacks := List.find?_some hfind
        have hmem := List.mem_of_find?_eq_some hfind
        simp only [List.isEmpty_iff, hmetrics, if_false, hany, Bool.false_eq_true, reduceCtorEq,
          false_iff]
        rintro ⟨-, -, hall⟩
        rw [hall metric hmem] at hlacks
        cases hlacks

theorem SortConfig.validate_eq_ok_iff {config : SortConfig} :
    config.validate = .ok () ↔ config.column ≠ "" := by
  unfold SortConfig.validate
  by_cases hcolumn : config.column = ""
  · simp [hcolumn]
  · simp [hcolumn]

/-- A metric always has a name to give to its column. -/
theorem Metric.outputName_ne_empty (metric : Metric) : metric.outputName ≠ "" := by
  have hfunction : Named.name metric.function ≠ "" := by
    cases metric.function <;> decide
  have hbyFunction : (if metric.column.isEmpty then Named.name metric.function
      else Named.name metric.function ++ "_" ++ metric.column) ≠ "" := by
    split
    · exact hfunction
    · simp
  unfold Metric.outputName
  cases metric.givenName with
  | none => exact hbyFunction
  | some name =>
    by_cases hname : name = ""
    · simpa [hname] using hbyFunction
    · simp [hname]

namespace Sql

/-! ## Whole statements -/

/-- The words that begin an aggregate expression. -/
def aggregateWords : List String := ["SUM", "AVG", "COUNT", "MIN", "MAX"]

/-- The tokens tell all that a statement of the kind has to tell: all names have characters, a filter
    compares with a value that is not empty, and an aggregation computes something. -/
structure Whole (kind : BlockKind) (ps : List Piece) : Prop where
  named : .name "" ∉ ps
  compared : kind = .filter →
    .word "NULL" ∉ ps ∧ .text "" ∉ ps ∧ ¬ [.word "LIKE", .text "%%"] <:+: ps
  computed : kind = .aggregate → ∃ function ∈ aggregateWords, [.word function, .symbol "("] <:+: ps

variable {input output table : TableName} {p : Piece}

/-! ## Tables -/

theorem tablePiece_ne_empty (h : table.text ≠ "") : tablePiece table ≠ .name "" := by
  unfold tablePiece
  split
  · simp
  · simpa using h

theorem tablePiece_ne_text (table : TableName) (value : String) : tablePiece table ≠ .text value := by
  unfold tablePiece
  split <;> simp

theorem tablePiece_ne_symbol (table : TableName) (mark : String) :
    tablePiece table ≠ .symbol mark := by
  unfold tablePiece
  split <;> simp

/-! ## Filters -/

/-- A value is a keyword, a number behind its sign, or a text. -/
theorem mem_valueTemplate {value : Option FilterValue} (h : p ∈ valueTemplate value) :
    p ∈ words ["NULL", "TRUE", "FALSE"] ∨ p = .symbol "-" ∨ (∃ digits, p = .number digits) ∨
      ∃ text, p = .text text := by
  rcases value with _ | (_ | _) | n | text
  · exact .inl (List.mem_append_left (words ["TRUE", "FALSE"]) h)
  · exact .inl (List.mem_append_right (words ["NULL", "TRUE"]) h)
  · refine .inl (List.mem_append_right (words ["NULL"]) ?_)
    exact List.mem_append_left (words ["FALSE"]) h
  · simp only [valueTemplate, Token.pieces, List.mem_append, List.mem_singleton] at h
    refine .inr (h.imp (fun h => ?_) fun h => .inl ⟨_, h⟩)
    split at h
    · exact List.mem_singleton.1 h
    · cases h
  · exact .inr (.inr (.inr ⟨text, List.mem_singleton.1 h⟩))

theorem like_not_mem_valueTemplate (value : Option FilterValue) :
    .word "LIKE" ∉ valueTemplate value := by
  intro h
  simpa [words] using mem_valueTemplate h

theorem name_not_mem_comparison (value : Option FilterValue) (operator : FilterOperator) :
    .name "" ∉ comparisonTemplate value operator := by
  have hvalue : .name "" ∉ valueTemplate value := by
    intro h
    simpa [words] using mem_valueTemplate h
  cases operator with
  | contains => simp [comparisonTemplate, words, patternTemplate]
  | notContains => simp [comparisonTemplate, words, patternTemplate]
  | _ => simp [comparisonTemplate, hvalue]

/-- Neither `NULL` nor an empty text is the literal of a value exactly if the value has a text. -/
theorem valueTemplate_iff (value : Option FilterValue) :
    .word "NULL" ∉ valueTemplate value ∧ .text "" ∉ valueTemplate value ↔
      (value.map FilterValue.plainText).getD "" ≠ "" := by
  cases value with
  | none => simp [valueTemplate, words]
  | some value =>
    rw [Option.map_some, Option.getD_some, ne_eq, FilterValue.plainText_eq_empty_iff]
    cases value with
    | bool b => cases b <;> simp [valueTemplate, words, FilterValue.isEmpty]
    | number n =>
      simp only [valueTemplate, Token.pieces, FilterValue.isEmpty]
      split <;> simp
    | text text => simp [valueTemplate, FilterValue.isEmpty, @eq_comm _ "" text]

theorem between_eq_iff (value : String) : "%%" = "%" ++ value ++ "%" ↔ value = "" := by
  constructor
  · intro h
    have hchars := congrArg String.toList h
    rw [toList_between] at hchars
    cases hvalue : value.toList with
    | nil => exact String.toList_eq_nil_iff.1 hvalue
    | cons c cs =>
      have hlength := congrArg List.length hchars
      simp [hvalue] at hlength
  · rintro rfl
    rfl

/-- The comparison of a filter is with something exactly if the value has a text. -/
theorem comparisonTemplate_iff (value : Option FilterValue) (operator : FilterOperator) :
    .word "NULL" ∉ comparisonTemplate value operator ∧ .text "" ∉ comparisonTemplate value operator ∧
        ¬ [.word "LIKE", .text "%%"] <:+: comparisonTemplate value operator ↔
      (value.map FilterValue.plainText).getD "" ≠ "" := by
  have hbetween := between_eq_iff ((value.map FilterValue.plainText).getD "")
  have hne : "" ≠ "%" ++ (value.map FilterValue.plainText).getD "" ++ "%" := by
    intro h
    have hchars := congrArg String.toList h
    rw [toList_between] at hchars
    cases hchars
  have hlike : ¬ [.word "LIKE", .text "%%"] <:+: valueTemplate value := fun h =>
    like_not_mem_valueTemplate value (h.subset List.mem_cons_self)
  cases operator with
  | contains =>
    simp [comparisonTemplate, words, patternTemplate, List.infix_cons_iff, hbetween, hne]
  | notContains =>
    simp [comparisonTemplate, words, patternTemplate, List.infix_cons_iff, hbetween, hne]
  | _ =>
    rw [← valueTemplate_iff value]
    simp [comparisonTemplate, List.infix_cons_iff, hlike]

theorem whole_filter_iff {config : FilterConfig} (hinput : input.text ≠ "")
    (houtput : output.text ≠ "") :
    Whole .filter (template input output (.filter config)) ↔ config.validate = .ok () := by
  have hcomparison := comparisonTemplate_iff config.value config.operator
  have hname : .name "" ∉ comparisonTemplate config.value config.operator := name_not_mem_comparison _ _
  have hnamed : .name "" ∈ template input output (.filter config) ↔ config.column = "" := by
    simp [template, making, words, reading, (tablePiece_ne_empty hinput).symm,
      (tablePiece_ne_empty houtput).symm, hname, @eq_comm _ "" config.column]
  have hnull : .word "NULL" ∈ template input output (.filter config) ↔
      .word "NULL" ∈ comparisonTemplate config.value config.operator := by
    have hbare : isBare ⟨"NULL"⟩ = false := by decide +kernel
    simp [template, making, words, reading, (tablePiece_ne hbare input).symm,
      (tablePiece_ne hbare output).symm]
  have htext : .text "" ∈ template input output (.filter config) ↔
      .text "" ∈ comparisonTemplate config.value config.operator := by
    simp [template, making, words, reading, (tablePiece_ne_text input "").symm,
      (tablePiece_ne_text output "").symm]
  have hlike : [.word "LIKE", .text "%%"] <:+: template input output (.filter config) ↔
      [.word "LIKE", .text "%%"] <:+: comparisonTemplate config.value config.operator := by
    have hbare : isBare ⟨"LIKE"⟩ = false := by decide +kernel
    simp [template, making, words, reading, List.infix_cons_iff, (tablePiece_ne hbare input).symm,
      (tablePiece_ne hbare output).symm]
  rw [FilterConfig.validate_eq_ok_iff, ← hcomparison, ← hnull, ← htext, ← hlike, ne_eq, ← hnamed]
  constructor
  · intro h
    exact ⟨h.named, h.compared rfl⟩
  · rintro ⟨hnamed, hcompared⟩
    exact ⟨hnamed, fun _ => hcompared, by simp⟩

/-! ## Aggregations -/

theorem name_mem_metricTemplate_iff (metric : Metric) :
    .name "" ∈ metricTemplate metric ↔ metric.lacksColumn = true := by
  have hname := metric.outputName_ne_empty
  unfold metricTemplate Metric.lacksColumn
  cases metric.function <;> simp [argumentTemplate, hname.symm, @eq_comm _ "" metric.column]

theorem call_infix_metricTemplate (metric : Metric) :
    ∃ function ∈ aggregateWords, [.word function, .symbol "("] <:+: metricTemplate metric := by
  have hcall : ∃ function ∈ aggregateWords, ∃ rest,
      metricTemplate metric = .word function :: .symbol "(" :: rest := by
    unfold metricTemplate
    cases metric.function with
    | sum => exact ⟨"SUM", by decide, _, rfl⟩
    | avg => exact ⟨"AVG", by decide, _, rfl⟩
    | count => exact ⟨"COUNT", by decide, _, rfl⟩
    | min => exact ⟨"MIN", by decide, _, rfl⟩
    | max => exact ⟨"MAX", by decide, _, rfl⟩
  obtain ⟨function, hfunction, rest, hmetric⟩ := hcall
  refine ⟨function, hfunction, ?_⟩
  rw [hmetric]
  exact (List.prefix_append [.word function, .symbol "("] rest).isInfix

theorem isInfix_metricTemplate {config : AggregateConfig} {metric : Metric}
    (h : metric ∈ config.metrics) :
    metricTemplate metric <:+: template input output (.aggregate config) := by
  have hlisted : metricTemplate metric <:+:
      listed (config.groupBy.map ([Piece.name ·]) ++ config.metrics.map metricTemplate) :=
    infix_intercalate (List.mem_append_right _ (List.mem_map_of_mem h))
  rw [template, List.append_assoc, List.append_assoc]
  exact List.infix_append_of_infix_right (List.infix_append_of_infix_left hlisted)

theorem name_mem_aggregate_iff {config : AggregateConfig} (hinput : input.text ≠ "")
    (houtput : output.text ≠ "") : .name "" ∈ template input output (.aggregate config) ↔
      "" ∈ config.groupBy ∨ ∃ metric ∈ config.metrics, metric.lacksColumn = true := by
  have hcolumns : .name "" ∈ listed (config.groupBy.map ([Piece.name ·])) ↔ "" ∈ config.groupBy := by
    rw [listed, mem_intercalate_iff (by simp)]
    simp
  have hselected : .name "" ∈
      listed (config.groupBy.map ([Piece.name ·]) ++ config.metrics.map metricTemplate) ↔
        "" ∈ config.groupBy ∨ ∃ metric ∈ config.metrics, metric.lacksColumn = true := by
    rw [listed, mem_intercalate_iff (by simp)]
    simp [or_and_right, exists_or, name_mem_metricTemplate_iff]
  have hgroup : .name "" ∈ groupTemplate config.groupBy → "" ∈ config.groupBy := by
    unfold groupTemplate
    split
    · simp
    · simpa [words] using hcolumns.1
  have hmaking : .name "" ∉ making "TABLE" output := by
    simp [making, words, (tablePiece_ne_empty houtput).symm]
  have hreading : .name "" ∉ reading input := by
    simp [reading, (tablePiece_ne_empty hinput).symm]
  simp only [template, List.mem_append, hmaking, hreading, hselected, false_or, or_false]
  exact ⟨fun h => h.elim id fun h => .inl (hgroup h), .inl⟩

/-- Without a metric no bracket is opened. -/
theorem bracket_not_mem_aggregate {config : AggregateConfig} (h : config.metrics = []) :
    .symbol "(" ∉ template input output (.aggregate config) := by
  have hcolumns : .symbol "(" ∉ listed (config.groupBy.map ([Piece.name ·])) := by
    rw [listed, mem_intercalate_iff (by simp)]
    simp
  have hgroup : .symbol "(" ∉ groupTemplate config.groupBy := by
    unfold groupTemplate
    split
    · simp
    · simpa [words] using hcolumns
  simp [template, making, words, reading, h, hcolumns, hgroup, (tablePiece_ne_symbol input "(").symm,
    (tablePiece_ne_symbol output "(").symm]

theorem whole_aggregate_iff {config : AggregateConfig} (hinput : input.text ≠ "")
    (houtput : output.text ≠ "") :
    Whole .aggregate (template input output (.aggregate config)) ↔ config.validate = .ok () := by
  have hnamed : .name "" ∉ template input output (.aggregate config) ↔
      ¬ ("" ∈ config.groupBy ∨ ∃ metric ∈ config.metrics, metric.lacksColumn = true) :=
    not_congr (name_mem_aggregate_iff hinput houtput)
  rw [AggregateConfig.validate_eq_ok_iff]
  constructor
  · intro h
    obtain ⟨function, -, hcall⟩ := h.computed rfl
    obtain ⟨hgroup, hmetrics⟩ := not_or.1 (hnamed.1 h.named)
    refine ⟨fun hnone => ?_, hgroup, fun metric hmetric => ?_⟩
    · exact bracket_not_mem_aggregate hnone (hcall.subset (by simp))
    · rw [← Bool.not_eq_true]
      exact fun hlacks => hmetrics ⟨metric, hmetric, hlacks⟩
  · rintro ⟨hsome, hgroup, hmetrics⟩
    refine ⟨hnamed.2 (not_or.2 ⟨hgroup, ?_⟩), by simp, fun _ => ?_⟩
    · rintro ⟨metric, hmetric, hlacks⟩
      rw [hmetrics metric hmetric] at hlacks
      cases hlacks
    · obtain ⟨metric, hmetric⟩ := List.exists_mem_of_ne_nil _ hsome
      obtain ⟨function, hfunction, hcall⟩ := call_infix_metricTemplate metric
      exact ⟨function, hfunction, hcall.trans (isInfix_metricTemplate hmetric)⟩

/-! ## Sorts -/

theorem whole_sort_iff {config : SortConfig} (hinput : input.text ≠ "") (houtput : output.text ≠ "") :
    Whole .sort (template input output (.sort config)) ↔ config.validate = .ok () := by
  have hnamed : .name "" ∈ template input output (.sort config) ↔ config.column = "" := by
    simp [template, making, words, reading, (tablePiece_ne_empty hinput).symm,
      (tablePiece_ne_empty houtput).symm, @eq_comm _ "" config.column]
  rw [SortConfig.validate_eq_ok_iff, ne_eq, ← hnamed]
  exact ⟨fun h => h.named, fun h => ⟨h, by simp, by simp⟩⟩

/-- Validation accepts a filter, an aggregation or a sort exactly if its statement, read by the lexical
    rules of SQL, lacks nothing. Whatever it accepts, each metric has a column of its own name in the
    statement, and this name is not empty. -/
theorem validate_iff_whole {config : BlockConfig}
    (hkind : config.kind ∈ [.filter, .aggregate, .sort]) (hinput : input.text ≠ "")
    (houtput : output.text ≠ "") :
    (config.validate = .ok () ↔ Whole config.kind (tokens (compile config input output).text)) ∧
      ∀ aggregation, config = .aggregate aggregation → config.validate = .ok () →
        ∀ metric ∈ aggregation.metrics, metric.outputName ≠ "" ∧
          [.word "AS", .name metric.outputName] <:+: tokens (compile config input output).text := by
  rw [tokens_compile]
  constructor
  · cases config with
    | filter config => exact (whole_filter_iff hinput houtput).symm
    | aggregate config => exact (whole_aggregate_iff hinput houtput).symm
    | sort config => exact (whole_sort_iff hinput houtput).symm
    | _ => simp [BlockConfig.kind] at hkind
  · rintro aggregation rfl - metric hmetric
    have hnamed : [.word "AS", .name metric.outputName] <:+: metricTemplate metric :=
      (List.suffix_append _ _).isInfix
    exact ⟨metric.outputName_ne_empty, hnamed.trans (isInfix_metricTemplate hmetric)⟩

/-- A metric with an empty name of its own has the name of its function, and a count needs no column.
    A sum does. -/
theorem whole_count :
    let count : Metric := { function := .count, givenName := some "" }
    let sum : Metric := { function := .sum, givenName := some "total" }
    let counted := BlockConfig.aggregate { groupBy := ["day"], metrics := [count] }
    let summed := BlockConfig.aggregate { groupBy := ["day"], metrics := [count, sum] }
    counted.kind ∈ [BlockKind.filter, .aggregate, .sort] ∧ (TableName.mk "orders").text ≠ "" ∧
      counted.validate = .ok () ∧
      Whole .aggregate (tokens (compile counted ⟨"orders"⟩ ⟨"out"⟩).text) ∧
      [.word "AS", .name "count"] <:+: tokens (compile counted ⟨"orders"⟩ ⟨"out"⟩).text ∧
      ¬ Whole .aggregate (tokens (compile summed ⟨"orders"⟩ ⟨"out"⟩).text) := by
  intro count sum counted summed
  have hkind : counted.kind ∈ [BlockKind.filter, .aggregate, .sort] := by decide
  have hvalid : counted.validate = .ok () := by decide
  have hinput : (TableName.mk "orders").text ≠ "" := by decide
  have houtput : (TableName.mk "out").text ≠ "" := by decide
  obtain ⟨hiff, hnames⟩ := validate_iff_whole hkind hinput houtput
  have hkind' : summed.kind ∈ [BlockKind.filter, .aggregate, .sort] := by decide
  obtain ⟨hsummed, -⟩ := validate_iff_whole hkind' hinput houtput
  exact ⟨hkind, hinput, hvalid, hiff.1 hvalid,
    (hnames _ rfl hvalid count (List.mem_singleton_self count)).2, mt hsummed.2 (by decide)⟩

end Sql

end BlockPipeline

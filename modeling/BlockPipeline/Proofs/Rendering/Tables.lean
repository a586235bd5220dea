import BlockPipeline.Proofs.Number.Numeral
import BlockPipeline.Proofs.Separated
import BlockPipeline.Rendering.Results
import Mathlib.Algebra.GroupWithZero.Nat
import Mathlib.Data.List.DropRight
import Mathlib.Data.List.Forall2
import Mathlib.Order.Bounds.Defs

set_option autoImplicit false

/-! # Tables have aligned columns

The widths of a result are the least in which every name and every cell fits. So each line of its table,
the one of dashes included, has the same length and the same column starts before the white space at its
end is taken off, and no text is cut. If names and cells hold no line break, then the lines can be told
apart in what is shown.

The widths have no bound, but what a cell can be filled up to does: a result with one longer text is not
shown at all. -/

namespace BlockPipeline

variable {width : Nat} {widths : List Nat} {cell : String} {cells : List String} {line : List Char}

/-! ## Columns -/

/-- Where a column begins: behind the columns before it, each with a separator of three characters. -/
def columnStart (widths : List Nat) (j : Nat) : Nat := 3 * j + (widths.take j).sum

/-- The length of a whole line. -/
def lineLength (widths : List Nat) : Nat := widths.sum + 3 * (widths.length - 1)

/-- The line shows each cell in full where its column begins. Blanks fill up the column, and then comes
    a separator, or the end of the line if there is no other column. -/
structure Aligned (widths : List Nat) (cells : List String) (line : List Char) : Prop where
  count : cells.length = widths.length
  length : line.length = lineLength widths
  column : ∀ j width cell, widths[j]? = some width → cells[j]? = some cell →
    cell.length ≤ width ∧ ∃ rest, line.drop (columnStart widths j) =
      cell.toList ++ List.replicate (width - cell.length) ' ' ++ rest ∧
      if j + 1 < widths.length then [' ', '|', ' '] <+: rest else rest = []

theorem columnStart_succ (width : Nat) (widths : List Nat) (j : Nat) :
    columnStart (width :: widths) (j + 1) = width + (3 + columnStart widths j) := by
  simp only [columnStart, List.take_succ_cons, List.sum_cons]
  omega

theorem length_padRight (h : cell.length ≤ width) : (padRight width cell).length = width := by
  simp only [padRight, List.length_append, List.length_replicate, String.length_toList]
  omega

theorem Aligned.nil : Aligned [] [] [] := ⟨rfl, rfl, nofun⟩

theorem Aligned.single (h : cell.length ≤ width) : Aligned [width] [cell] (padRight width cell) where
  count := rfl
  length := by simp [length_padRight h, lineLength]
  column := by
    rintro (_ | j) _ _ ⟨⟩ ⟨⟩
    exact ⟨h, [], by simp [columnStart, padRight], by simp⟩

theorem Aligned.cons {next : Nat} (hcell : cell.length ≤ width)
    (h : Aligned (next :: widths) cells line) :
    Aligned (width :: next :: widths) (cell :: cells)
      (padRight width cell ++ ([' ', '|', ' '] ++ line)) where
  count := congrArg (· + 1) h.count
  length := by
    simp only [List.length_append, length_padRight hcell, h.length, lineLength, List.sum_cons,
      List.length_cons, List.length_nil]
    omega
  column := by
    rintro (_ | j) w c hw hc
    · obtain rfl := Option.some.inj hw
      obtain rfl := Option.some.inj hc
      refine ⟨hcell, [' ', '|', ' '] ++ line, by simp [columnStart, padRight], ?_⟩
      rw [if_pos (by simp)]
      exact List.prefix_append _ _
    · obtain ⟨hfits, rest, hdrop, hrest⟩ := h.column j w c hw hc
      refine ⟨hfits, rest, ?_, ?_⟩
      · rw [columnStart_succ, ← List.drop_drop, List.drop_left' (length_padRight hcell),
          ← List.drop_drop, List.drop_left' (by rfl), hdrop]
      · simpa using hrest

/-- No cell is longer than its column is wide. -/
def Fits (widths : List Nat) (cells : List String) : Prop :=
  List.Forall₂ (fun width (cell : String) => cell.length ≤ width) widths cells

/-- The cells of a line, filled up and separated. -/
def fullLine (widths : List Nat) (cells : List String) : List Char :=
  [' ', '|', ' '].intercalate (List.zipWith padRight widths cells)

/-- Cells that fit into their columns are aligned. -/
theorem aligned_fullLine (h : Fits widths cells) : Aligned widths cells (fullLine widths cells) := by
  induction h with
  | nil => exact .nil
  | cons hcell hcells ih =>
    cases hcells with
    | nil =>
      rw [fullLine, List.zipWith_cons_cons, List.zipWith_nil_left, List.intercalate_singleton]
      exact .single hcell
    | cons hnext hmore =>
      rw [fullLine, List.zipWith_cons_cons, List.zipWith_cons_cons, List.intercalate_cons_cons,
        ← List.zipWith_cons_cons, List.append_assoc]
      exact ih.cons hcell

/-! ## Widths -/

/-- The greatest of a number and those of the items. -/
theorem isGreatest_foldl_max {α : Type} (f : α → Nat) (items : List α) (first : Nat) :
    IsGreatest {n | n = first ∨ ∃ item ∈ items, n = f item}
      (items.foldl (fun greatest item => max greatest (f item)) first) := by
  induction items generalizing first with
  | nil =>
    refine ⟨.inl rfl, ?_⟩
    rintro n (rfl | ⟨_, hmem, _⟩)
    · exact Nat.le_refl _
    · cases hmem
  | cons item items ih =>
    obtain ⟨hmem, hupper⟩ := ih (max first (f item))
    have hmax : max first (f item) ≤
        items.foldl (fun greatest item => max greatest (f item)) (max first (f item)) :=
      hupper (.inl rfl)
    refine ⟨?_, ?_⟩
    · rcases hmem with hfirst | ⟨other, hother, heq⟩
      · rcases Nat.le_total first (f item) with hle | hle
        · exact .inr ⟨item, List.mem_cons_self, hfirst.trans (Nat.max_eq_right hle)⟩
        · exact .inl (hfirst.trans (Nat.max_eq_left hle))
      · exact .inr ⟨other, List.mem_cons_of_mem _ hother, heq⟩
    · rintro n (rfl | ⟨other, hother, rfl⟩)
      · exact Nat.le_trans (Nat.le_max_left _ _) hmax
      · rcases List.mem_cons.1 hother with rfl | hother
        · exact Nat.le_trans (Nat.le_max_right _ _) hmax
        · exact hupper (.inr ⟨other, hother, rfl⟩)

/-- The width of a column: its name and its cells in the rows are no longer, and one of them is as
    long. -/
def columnWidth (rows : List Row) (name : String) : Nat :=
  rows.foldl (fun width row => max width (row.cell name).length) name.length

theorem isGreatest_columnWidth (rows : List Row) (name : String) :
    IsGreatest {n | n = name.length ∨ ∃ row ∈ rows, n = (row.cell name).length}
      (columnWidth rows name) :=
  isGreatest_foldl_max (fun row : Row => (row.cell name).length) rows name.length

/-! ## Lines -/

/-- What is printed of a line: all of it but the white space at its end. -/
structure Trimmed (line printed : List Char) : Prop where
  blanks : ∃ blanks, line = printed ++ blanks ∧ ∀ c ∈ blanks, Text.isSpace c = true
  last : ∀ c ∈ printed.getLast?, Text.isSpace c = false

theorem trimmed_trimEnd (line : List Char) : Trimmed line (Text.trimEnd line) where
  blanks := ⟨line.rtakeWhile Text.isSpace, List.rdropWhile_append_rtakeWhile.symm,
    fun _ hc => List.mem_rtakeWhile_imp hc⟩
  last c hc := by
    obtain ⟨hne, rfl⟩ := List.mem_getLast?_eq_getLast hc
    rw [← Bool.not_eq_true]
    exact List.rdropWhile_last_not Text.isSpace line hne

theorem mapM_eq_some_map {α β : Type} {f : α → Option β} {g : α → β} {xs : List α}
    (h : ∀ x ∈ xs, f x = some (g x)) : xs.mapM f = some (xs.map g) := by
  induction xs with
  | nil => rfl
  | cons x xs ih =>
    rw [List.forall_mem_cons] at h
    rw [List.mapM_cons, h.1, ih h.2]
    rfl

theorem mapM_eq_none {α β : Type} {f : α → Option β} {xs : List α} (h : ∃ x ∈ xs, f x = none) :
    xs.mapM f = none := by
  induction xs with
  | nil => simp at h
  | cons x xs ih =>
    rw [List.mapM_cons]
    rcases (List.exists_mem_cons_iff _ _ _).1 h with h | h
    · rw [h]
      rfl
    · rw [ih h]
      cases f x <;> rfl

theorem tableLine?_of_le (h : ∀ width ∈ widths, width ≤ widthLimit) (cells : List String) :
    tableLine? widths cells = some (fullLine widths cells) := by
  have hpad : ∀ entry ∈ widths.zip cells, padRight? entry.1 entry.2 =
      some (padRight entry.1 entry.2) := fun entry hmem =>
    if_pos (h entry.1 (List.of_mem_zip hmem).1)
  rw [tableLine?, mapM_eq_some_map hpad, fullLine, ← List.map_uncurry_zip_eq_zipWith]
  rfl

theorem tableText?_of_le (h : ∀ width ∈ widths, width ≤ widthLimit) (cells : List String) :
    tableText? widths cells =
      some (String.ofList (Text.trimEnd (fullLine widths cells)) ++ "\n") := by
  rw [tableText?, tableLine?_of_le h]
  rfl

theorem tableText?_eq_none (hlength : cells.length = widths.length)
    (h : ∃ width ∈ widths, widthLimit < width) : tableText? widths cells = none := by
  obtain ⟨width, hmem, hlimit⟩ := h
  obtain ⟨j, hj, rfl⟩ := List.getElem_of_mem hmem
  have hentry : (widths.zip cells)[j]? = some (widths[j], cells[j]) :=
    List.getElem?_zip_eq_some.2 ⟨List.getElem?_eq_getElem hj, List.getElem?_eq_getElem _⟩
  rw [tableText?, tableLine?, mapM_eq_none]
  · rfl
  · exact ⟨_, List.mem_of_getElem? hentry, if_neg (Nat.not_le_of_lt hlimit)⟩

/-- Lines that hold no line break are told apart by the ones behind them. -/
theorem splitOn_flatMap {lines : List (List Char)} (h : ∀ line ∈ lines, '\n' ∉ line) :
    (lines.flatMap (· ++ ['\n'])).splitOn '\n' = lines ++ [[]] := by
  rw [flatMap_append_eq_intercalate, List.splitOn_intercalate]
  · intro line hline
    rcases List.mem_append.1 hline with hline | hline
    · exact h line hline
    · rw [List.mem_singleton.1 hline]
      exact List.not_mem_nil
  · simp

theorem lineBreak_not_mem_fullLine (h : ∀ cell ∈ cells, '\n' ∉ cell.toList) :
    '\n' ∉ fullLine widths cells := by
  intro hmem
  rcases mem_or_mem_of_mem_intercalate hmem with hmem | ⟨part, hpart, hmem⟩
  · exact absurd hmem (by decide)
  · rw [← List.map_uncurry_zip_eq_zipWith] at hpart
    obtain ⟨⟨width, cell⟩, hentry, rfl⟩ := List.mem_map.1 hpart
    rcases List.mem_append.1 hmem with hmem | hmem
    · exact h cell (List.of_mem_zip hentry).2 hmem
    · exact absurd (List.eq_of_mem_replicate hmem) (by decide)

theorem Trimmed.not_mem {printed : List Char} {c : Char} (h : Trimmed line printed) (hc : c ∉ line) :
    c ∉ printed := by
  obtain ⟨blanks, rfl, -⟩ := h.blanks
  exact fun hmem => hc (List.mem_append_left _ hmem)

/-! ## Results -/

namespace BlockResult

variable {result : BlockResult}

theorem widths_eq (result : BlockResult) :
    result.widths = result.header.map (columnWidth result.rows) := by
  -- All columns are widened row by row, so the induction starts from any widths of the columns.
  have hfold (rows : List Row) (names : List String) (width : String → Nat) :
      (rows.map fun row => names.map row.cell).foldl
          (fun widths row => widths.zipWith (fun width cell => max width cell.length) row)
          (names.map width) =
        names.map fun name =>
          rows.foldl (fun width row => max width (row.cell name).length) (width name) := by
    induction rows generalizing width with
    | nil => rfl
    | cons row rows ih =>
      rw [List.map_cons, List.foldl_cons, List.zipWith_map, List.zipWith_self]
      exact ih _
  exact hfold result.rows result.header String.length

theorem fits_header (result : BlockResult) : Fits result.widths result.header := by
  rw [widths_eq, Fits, List.forall₂_map_left_iff, List.forall₂_same]
  exact fun name _ => (isGreatest_columnWidth result.rows name).2 (.inl rfl)

theorem fits_rule (result : BlockResult) : Fits result.widths result.rule := by
  rw [Fits, rule, List.forall₂_map_right_iff, List.forall₂_same]
  exact fun width _ => by simp

theorem fits_row {row : Row} (h : row ∈ result.rows) :
    Fits result.widths (result.header.map row.cell) := by
  rw [widths_eq, Fits, List.forall₂_map_left_iff, List.forall₂_map_right_iff, List.forall₂_same]
  exact fun name _ => (isGreatest_columnWidth result.rows name).2 (.inr ⟨row, h, rfl⟩)

theorem fits_of_mem {line : List String} (h : line ∈ result.header :: result.rule :: result.cells) :
    Fits result.widths line := by
  rcases List.mem_cons.1 h with rfl | h
  · exact fits_header result
  rcases List.mem_cons.1 h with rfl | h
  · exact fits_rule result
  obtain ⟨row, hrow, rfl⟩ := List.mem_map.1 h
  exact fits_row hrow

theorem text?_of_le (h : ∀ width ∈ result.widths, width ≤ widthLimit) :
    result.text? = some (String.join
      ((result.header :: result.rule :: result.cells).map (fun cells =>
        String.ofList (Text.trimEnd (fullLine result.widths cells)) ++ "\n") ++ result.note)) := by
  rw [text?, mapM_eq_some_map fun cells _ => tableText?_of_le h cells]
  rfl

theorem text?_of_lt (h : ∃ width ∈ result.widths, widthLimit < width) : result.text? = none := by
  -- The names are filled up before any row is.
  have hnone : tableText? result.widths result.header = none :=
    tableText?_eq_none (by rw [widths_eq, List.length_map]) h
  rw [text?, mapM_eq_none ⟨result.header, List.mem_cons_self, hnone⟩]
  rfl

theorem widths_le_of_text? {text : String} (h : result.text? = some text) :
    ∀ width ∈ result.widths, width ≤ widthLimit := by
  intro width hmem
  by_contra hlimit
  rw [text?_of_lt ⟨width, hmem, Nat.lt_of_not_le hlimit⟩] at h
  cases h

theorem text?_eq_none_iff : result.text? = none ↔ ∃ width ∈ result.widths, widthLimit < width := by
  refine ⟨fun hnone => ?_, text?_of_lt⟩
  by_contra hwithin
  have hle : ∀ width ∈ result.widths, width ≤ widthLimit := fun width hmem =>
    Nat.le_of_not_lt fun hlimit => hwithin ⟨width, hmem, hlimit⟩
  rw [text?_of_le hle] at hnone
  cases hnone

/-! ## Texts -/

/-- The line behind those of the rows. There is none if all rows are kept. -/
def noteLine (result : BlockResult) : List (List Char) :=
  if result.rowCount ≤ result.rows.length then []
  else [("(" ++ Text.naturalText result.rows.length ++ " of " ++ Text.naturalText result.rowCount
    ++ " rows)").toList]

theorem toList_note (result : BlockResult) :
    (String.join result.note).toList = result.noteLine.flatMap (· ++ ['\n']) := by
  by_cases h : result.rowCount ≤ result.rows.length
  · simp [note, noteLine, isComplete, h]
  · simp [note, noteLine, isComplete, h]

theorem lineBreak_not_mem_noteLine (result : BlockResult) : ∀ line ∈ result.noteLine, '\n' ∉ line := by
  have hdigits (n : Nat) : '\n' ∉ Nat.toDigits 10 n := fun hmem =>
    absurd (Number.allDigits_toDigits n _ hmem) (by decide)
  unfold noteLine
  split
  · simp
  · simp [Text.naturalText, hdigits]

/-- The text is a table of the result: a line of the names, one of dashes and one for each row, whose
    columns are as wide as the longest of their texts, and one behind them if not all rows are kept. -/
structure Tabulates (result : BlockResult) (text : String) : Prop where
  widths : List.Forall₂ (fun name width => IsGreatest
    {n : Nat | n = name.length ∨ ∃ row ∈ result.rows, n = (row.cell name).length} width)
    result.header result.widths
  lines : ∃ lines printed : List (List Char),
    List.Forall₂ (Aligned result.widths)
      (result.header :: result.rule :: result.rows.map fun row => result.header.map row.cell) lines ∧
    List.Forall₂ Trimmed lines printed ∧
    text.toList.splitOn '\n' = printed ++ result.noteLine ++ [[]]

/-- What is printed, line by line. -/
def printedLines (result : BlockResult) : List (List Char) :=
  (result.header :: result.rule :: result.cells).map fun cells =>
    Text.trimEnd (fullLine result.widths cells)

theorem toList_text {text : String} (h : result.text? = some text) :
    text.toList = (result.printedLines ++ result.noteLine).flatMap (· ++ ['\n']) := by
  rw [text?_of_le (widths_le_of_text? h)] at h
  obtain rfl := Option.some.inj h
  have hnote := toList_note result
  rw [String.toList_join] at hnote
  rw [String.toList_join, List.flatMap_append, List.flatMap_append, hnote, List.flatMap_map,
    printedLines, List.flatMap_map]
  simp

/-- Neither names nor cells hold a line break. -/
structure Unbroken (result : BlockResult) : Prop where
  names : ∀ name ∈ result.header, '\n' ∉ name.toList
  cells : ∀ row ∈ result.rows, ∀ name ∈ result.header, '\n' ∉ (row.cell name).toList

theorem Unbroken.not_mem (h : result.Unbroken) {cells : List String}
    (hcells : cells ∈ result.header :: result.rule :: result.cells) :
    ∀ cell ∈ cells, '\n' ∉ cell.toList := by
  rcases List.mem_cons.1 hcells with rfl | hcells
  · exact h.names
  rcases List.mem_cons.1 hcells with rfl | hcells
  · refine List.forall_mem_map.2 fun width _ hmem => ?_
    rw [String.toList_ofList] at hmem
    exact absurd (List.eq_of_mem_replicate hmem) (by decide)
  · obtain ⟨row, hrow, rfl⟩ := List.mem_map.1 hcells
    exact List.forall_mem_map.2 (h.cells row hrow)

theorem splitOn_text (hbreaks : result.Unbroken) {text : String} (h : result.text? = some text) :
    text.toList.splitOn '\n' = result.printedLines ++ result.noteLine ++ [[]] := by
  rw [toList_text h, splitOn_flatMap]
  intro line hline
  rcases List.mem_append.1 hline with hline | hline
  · obtain ⟨cells, hcells, rfl⟩ := List.mem_map.1 hline
    exact (trimmed_trimEnd _).not_mem (lineBreak_not_mem_fullLine (hbreaks.not_mem hcells))
  · exact lineBreak_not_mem_noteLine result line hline

theorem tabulates (hbreaks : result.Unbroken) {text : String} (h : result.text? = some text) :
    result.Tabulates text where
  widths := by
    rw [widths_eq, List.forall₂_map_right_iff, List.forall₂_same]
    exact fun name _ => isGreatest_columnWidth result.rows name
  lines := by
    refine ⟨(result.header :: result.rule :: result.cells).map (fullLine result.widths),
      result.printedLines, ?_, ?_, splitOn_text hbreaks h⟩
    · rw [List.forall₂_map_right_iff]
      exact List.forall₂_same.2 fun cells hmem => aligned_fullLine (fits_of_mem hmem)
    · rw [printedLines, List.forall₂_map_left_iff, List.forall₂_map_right_iff, List.forall₂_same]
      exact fun cells _ => trimmed_trimEnd _

/-- A result is shown as a table, unless a column is too wide to be filled up. -/
theorem text?_tabulates (h : result.Unbroken) :
    (result.text? = none ↔ ∃ width ∈ result.widths, widthLimit < width) ∧
      ∀ text, result.text? = some text → result.Tabulates text :=
  ⟨text?_eq_none_iff, fun _ htext => tabulates h htext⟩

/-- Some rows of more, with a column that is not in all of them and white space at the end of a cell. -/
theorem text?_tabulates_regions :
    let result : BlockResult := {
      columns := [⟨"région", .string⟩, ⟨"total", .number⟩]
      rows := [[("région", .string "südwest"), ("total", .ofInt 420)], [("région", .string "east ")],
        [("région", .bool true), ("total", .string "4 \t")]]
      rowCount := 40 }
    let text := "région  | total\n------- | -----\nsüdwest | 420\neast    | NULL\ntrue    | 4\n"
      ++ "(3 of 40 rows)\n"
    result.Unbroken ∧ result.text? = some text ∧ result.Tabulates text := by
  intro result text
  have hbreaks : result.Unbroken := ⟨by decide +kernel, by decide +kernel⟩
  have htext : result.text? = some text := by decide +kernel
  exact ⟨hbreaks, htext, (text?_tabulates hbreaks).2 text htext⟩

/-- A result with a cell of more characters than a cell can be filled up to. -/
theorem text?_too_wide :
    let cell := String.ofList (List.replicate 65536 'x')
    let result : BlockResult := {
      columns := [⟨"note", .string⟩], rows := [[("note", .string cell)]], rowCount := 1 }
    result.Unbroken ∧ result.text? = none := by
  intro cell result
  have hcell : Row.cell [("note", .string cell)] "note" = cell := rfl
  refine ⟨⟨by decide, ?_⟩, text?_of_lt ?_⟩
  · rintro row hrow name hname hbreak
    rw [List.mem_singleton.1 hrow, List.mem_singleton.1 hname, hcell, String.toList_ofList] at hbreak
    exact absurd (List.eq_of_mem_replicate hbreak) (by decide)
  · rw [widths_eq]
    refine ⟨_, List.mem_map_of_mem (List.mem_singleton_self "note"), ?_⟩
    have hlength : cell.length ≤ columnWidth result.rows "note" :=
      (isGreatest_columnWidth _ _).2 (.inr ⟨_, List.mem_singleton_self _, by rw [hcell]⟩)
    rw [String.length_ofList, List.length_replicate] at hlength
    exact hlength

end BlockResult

end BlockPipeline

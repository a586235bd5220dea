import BlockPipeline.Csv.Reader
import BlockPipeline.Text.Parts

set_option autoImplicit false

/-! # Written records are read back

Records are written with all their fields between quotes. Then the fields may hold commas, quotes and
line ends, and may be empty: what is read of the text are the fields that were written
(`fields_records_written`).

Reading also notes where each record begins. The fields do not depend on that, so here they are read
without it (`fieldsFrom`). -/

namespace BlockPipeline.Csv

/-! ## Writing -/

/-- The text of a field: between quotes, with the quotes inside doubled. -/
def fieldChars (field : String) : List Char := Text.quoted '"' field.toList

/-- The text of a record: its fields with a comma between each two, and a line feed. -/
def recordChars (fields : List String) : List Char :=
  [','].intercalate (fields.map fieldChars) ++ ['\n']

/-- The text of records. -/
def written (records : List (List String)) : String := String.ofList (records.flatMap recordChars)

example : written [["a", "b,c"], ["", "say \"no\""]] =
    "\"a\",\"b,c\"\n\"\",\"say \"\"no\"\"\"\n" := by decide

/-! ## Reading without places -/

/-- The fields of the records of the text that is left. -/
def fieldsFrom (p : Partial) : List Char → List (List String)
  | [] => if p.mode = .between then [] else [p.close]
  | c :: rest =>
    match p.step c with
    | some p => fieldsFrom p rest
    | none => p.close :: fieldsFrom .start rest

theorem fields_readRecords (begun here : Position) (p : Partial) (text : List Char) :
    (readRecords begun here p text).map Record.fields = fieldsFrom p text := by
  induction text generalizing begun here p with
  | nil =>
    rw [readRecords, fieldsFrom]
    split <;> rfl
  | cons c rest ih =>
    rw [readRecords, fieldsFrom]
    cases p.step c with
    | none => simp only [List.map_cons, ih]
    | some next => simp only [ih]

theorem fields_records {text : String} (h : text.toList.head? ≠ some '\ufeff') :
    (records text).map Record.fields = fieldsFrom .start text.toList := by
  unfold records
  split
  · next rest hmark =>
    rw [hmark] at h
    exact absurd rfl h
  · exact fields_readRecords _ _ _ _

/-! ## Reading what was written -/

variable {field : List Char} {done : List (List Char)} {mode : Mode} {rest : List Char}

/-- A quoted field goes on up to the quote that closes it. -/
theorem fieldsFrom_doubled (inside : List Char) :
    fieldsFrom ⟨.quoted, field, done⟩ (Text.doubled '"' inside ++ '"' :: rest) =
      fieldsFrom ⟨.quoteSeen, inside.reverse ++ field, done⟩ rest := by
  induction inside generalizing field with
  | nil => simp [Text.doubled, fieldsFrom, Partial.step]
  | cons c inside ih =>
    rw [List.reverse_cons, List.append_assoc, List.singleton_append, ← ih]
    by_cases hc : c = '"'
    · simp [Text.doubled, hc, fieldsFrom, Partial.step, Partial.push]
    · simp [Text.doubled, hc, fieldsFrom, Partial.step, Partial.push]

/-- Where a field can begin, a written field is taken whole. -/
theorem fieldsFrom_fieldChars (hmode : mode = .between ∨ mode = .fieldStart) (text : String) :
    fieldsFrom ⟨mode, [], done⟩ (fieldChars text ++ rest) =
      fieldsFrom ⟨.quoteSeen, text.toList.reverse, done⟩ rest := by
  have hopen : fieldsFrom ⟨mode, [], done⟩ (fieldChars text ++ rest) =
      fieldsFrom ⟨.quoted, [], done⟩ (Text.doubled '"' text.toList ++ '"' :: rest) := by
    rcases hmode with rfl | rfl
    · simp [fieldChars, Text.quoted, fieldsFrom, Partial.step]
    · simp [fieldChars, Text.quoted, fieldsFrom, Partial.step]
  rw [hopen, fieldsFrom_doubled, List.append_nil]

theorem fieldsFrom_comma :
    fieldsFrom ⟨.quoteSeen, field, done⟩ (',' :: rest) =
      fieldsFrom ⟨.fieldStart, [], field :: done⟩ rest := rfl

theorem fieldsFrom_lineFeed :
    fieldsFrom ⟨.quoteSeen, field, done⟩ ('\n' :: rest) =
      ((field :: done).reverse.map fun field => String.ofList field.reverse) ::
        fieldsFrom .start rest := rfl

/-- A written record is read as its fields, which follow those that have been read of it. By induction
    on the fields that are left. -/
theorem fieldsFrom_recordChars (hmode : mode = .between ∨ mode = .fieldStart) (first : String)
    (others : List String) :
    fieldsFrom ⟨mode, [], done⟩ (recordChars (first :: others) ++ rest) =
      ((done.reverse.map fun field => String.ofList field.reverse) ++ first :: others) ::
        fieldsFrom .start rest := by
  induction others generalizing first done mode with
  | nil =>
    have htext : recordChars [first] ++ rest = fieldChars first ++ '\n' :: rest := by
      simp [recordChars]
    rw [htext, fieldsFrom_fieldChars hmode, fieldsFrom_lineFeed]
    simp
  | cons second others ih =>
    have htext : recordChars (first :: second :: others) ++ rest =
        fieldChars first ++ ',' :: (recordChars (second :: others) ++ rest) := by
      simp [recordChars, List.intercalate_cons_cons]
    rw [htext, fieldsFrom_fieldChars hmode, fieldsFrom_comma, ih (.inr rfl)]
    simp

theorem fieldsFrom_written {records : List (List String)} (h : ∀ fields ∈ records, fields ≠ []) :
    fieldsFrom .start (records.flatMap recordChars) = records := by
  induction records with
  | nil => rfl
  | cons fields records ih =>
    rw [List.forall_mem_cons] at h
    cases fields with
    | nil => exact absurd rfl h.1
    | cons first others =>
      rw [List.flatMap_cons, Partial.start, fieldsFrom_recordChars (.inl rfl), ih h.2]
      rfl

theorem head?_recordChars {fields : List String} (h : fields ≠ []) :
    ∃ rest, recordChars fields = '"' :: rest := by
  cases fields with
  | nil => exact absurd rfl h
  | cons first others =>
    cases others with
    | nil => exact ⟨_, rfl⟩
    | cons second others =>
      rw [recordChars, List.map_cons, List.map_cons, List.intercalate_cons_cons]
      exact ⟨_, rfl⟩

/-- What is read of written records are their fields. -/
theorem fields_records_written {records : List (List String)} (h : ∀ fields ∈ records, fields ≠ []) :
    (Csv.records (written records)).map Record.fields = records := by
  have hchars : (written records).toList = records.flatMap recordChars := String.toList_ofList
  have hhead : (written records).toList.head? ≠ some '\ufeff' := by
    rw [hchars]
    cases records with
    | nil => simp
    | cons fields records =>
      obtain ⟨rest, hfields⟩ := head?_recordChars (h fields List.mem_cons_self)
      rw [List.flatMap_cons, hfields, List.cons_append, List.head?_cons]
      decide
  rw [fields_records hhead, hchars, fieldsFrom_written h]

end BlockPipeline.Csv

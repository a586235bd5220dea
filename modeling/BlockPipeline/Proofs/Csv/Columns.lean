import BlockPipeline.Csv.Table
import BlockPipeline.Proofs.Ascending
import Mathlib.Data.List.Forall2
import Mathlib.Data.String.Basic

set_option autoImplicit false

/-! # What the rows of a table hold

All fields of a column have the type that the column is given, so each of them is read as a value of
that type (`Reads`). A row is keyed by column name: of columns with one name it keeps the field of the
last one, and of columns with names of their own every field (`Holds`).

A table that is made of a text has one such row for each record (`Table.ofCsv_holds`). It need not have
an entry of the declared type for each column (`Table.WellTyped`): there are texts whose columns share a
name, and texts with numbers that JSON does not have. -/

namespace BlockPipeline

namespace Csv

open Number (Format)

/-! ## Fields and their values -/

/-- The value that a field stands for in a column of the type. What is not a finite number has no JSON
    number and stands for null. -/
inductive ColumnType.Reads : ColumnType → String → Json → Prop where
  | integer {field : String} {n : Int} (h : Text.integer? 64 field = some n) :
      Reads .integer field (.number (.integer n))
  | finite {field : String} {x : Number.Finite}
      (h : Format.double.ofText? field = some (.finite x)) : Reads .float field (.number (.float x))
  | notFinite {field : String} {x : Number.Floating} (h : Format.double.ofText? field = some x)
      (hx : x.finite? = none) : Reads .float field .null
  | boolean (b : Bool) : Reads .boolean (if b then "true" else "false") (.bool b)
  | text (field : String) : Reads .text field (.string field)

/-- Is the value of the JSON type that a column of the type has? -/
def ColumnType.fits : ColumnType → Json → Bool
  | .integer, .number (.integer _) => true
  | .float, .number _ => true
  | .boolean, .bool _ => true
  | .text, .string _ => true
  | _, _ => false

namespace ColumnType

variable {type : ColumnType} {field : String} {fields : List String} {value : Json}

/-- What stands for a field has the type of the column, unless it is null. -/
theorem Reads.fits (h : type.Reads field value) (hvalue : value ≠ .null) :
    type.fits value = true := by
  cases h with
  | notFinite => exact absurd rfl hvalue
  | integer | finite | boolean | text => rfl

/-- A field that spells no infinite number and no `NaN` does not stand for null. -/
theorem Reads.ne_null (h : type.Reads field value)
    (hfinite : ∀ x ∈ Format.double.ofText? field, x.finite? ≠ none) : value ≠ .null := by
  cases h with
  | notFinite hx hnone => exact absurd hnone (hfinite _ hx)
  | integer | finite | boolean | text => exact Json.noConfusion

/-- Each field of a column is read in the type of the column. -/
theorem reads_value (h : field ∈ fields) :
    (ofFields fields).Reads field ((ofFields fields).value field) := by
  unfold ofFields
  split_ifs with hinteger hfloat hboolean
  · obtain ⟨n, hn⟩ := Option.isSome_iff_exists.1 (List.all_eq_true.1 hinteger field h)
    rw [value, hn]
    exact .integer hn
  · obtain ⟨x, hx⟩ := Option.isSome_iff_exists.1 (List.all_eq_true.1 hfloat field h)
    rw [value, hx]
    cases x with
    | finite x => exact .finite hx
    | infinite negative => exact .notFinite hx rfl
    | nan => exact .notFinite hx rfl
  · have hword : field = "true" ∨ field = "false" := by
      simpa using List.all_eq_true.1 hboolean field h
    rcases hword with rfl | rfl
    · exact .boolean true
    · exact .boolean false
  · exact .text field

end ColumnType

/-! ## The row of a record -/

section Making
variable {names fields : List String} {types : List ColumnType}

theorem names_row_nodup (names : List String) (types : List ColumnType) (fields : List String) :
    ((row names types fields).map Prod.fst).Nodup :=
  (Assoc.ascending_nil.insert_all _).keys_nodup

theorem names_zip (htypes : types.length = names.length) (hfields : fields.length = names.length) :
    (names.zip (types.zipWith ColumnType.value fields)).map Prod.fst = names := by
  refine List.map_fst_zip ?_
  rw [List.length_zipWith, htypes, hfields, Nat.min_self]

theorem mem_names_row (htypes : types.length = names.length)
    (hfields : fields.length = names.length) (name : String) :
    name ∈ (row names types fields).map Prod.fst ↔ name ∈ names := by
  rw [row, Assoc.mem_keys_ofList, names_zip htypes hfields]

/-- Under a name a row has the value of the field at the last place of the name. -/
theorem find?_row (htypes : types.length = names.length) (hfields : fields.length = names.length)
    {i : Nat} {name field : String} {type : ColumnType} (hname : names[i]? = some name)
    (htype : types[i]? = some type) (hfield : fields[i]? = some field)
    (hlast : name ∉ names.drop (i + 1)) :
    Assoc.find? name (row names types fields) = some (type.value field) := by
  have hvalue : (types.zipWith ColumnType.value fields)[i]? = some (type.value field) :=
    List.getElem?_zipWith_eq_some.2 ⟨type, field, htype, hfield, rfl⟩
  refine Assoc.find?_ofList_last (List.getElem?_zip_eq_some.2 ⟨hname, hvalue⟩) ?_
  rwa [List.map_drop, names_zip htypes hfields]

end Making

/-! ## Rows that hold fields -/

/-- The row has the field under the name of the column: what it has there is the value for which the
    field stands in the type that the column declares. -/
def Entry (column : ColumnDescription) (field : String) (row : Row) : Prop :=
  ∃ (type : ColumnType) (value : Json), column.dataType = type.name ∧
    Assoc.find? column.name row = some value ∧ type.Reads field value

/-- The row holds the fields: it has one entry for each name of a column and no other, and under a name
    it has the field of the last column with this name. -/
structure Holds (columns : List ColumnDescription) (fields : List String) (row : Row) : Prop where
  length_eq : fields.length = columns.length
  names_nodup : (row.map Prod.fst).Nodup
  mem_names : ∀ name, name ∈ row.map Prod.fst ↔ name ∈ columns.map (·.name)
  entry : ∀ (i : Nat) (column : ColumnDescription) (field : String), columns[i]? = some column →
    fields[i]? = some field → column.name ∉ (columns.drop (i + 1)).map (·.name) →
    Entry column field row

section Rows
variable {columns : List ColumnDescription} {fields : List String} {row : Row}

/-- If all columns have names of their own, these are the names of the row. -/
theorem Holds.names_perm (h : Holds columns fields row) (hnames : (columns.map (·.name)).Nodup) :
    (row.map Prod.fst).Perm (columns.map (·.name)) :=
  (List.perm_ext_iff_of_nodup h.names_nodup hnames).2 h.mem_names

/-- If all columns have names of their own, the row has every field. -/
theorem Holds.entry_of_nodup (h : Holds columns fields row) (hnames : (columns.map (·.name)).Nodup)
    {i : Nat} {column : ColumnDescription} {field : String} (hcolumn : columns[i]? = some column)
    (hfield : fields[i]? = some field) : Entry column field row := by
  refine h.entry i column field hcolumn hfield fun hlater => ?_
  -- a later column of this name would make the names repeat
  obtain ⟨hi, hget⟩ := List.getElem?_eq_some_iff.1 hcolumn
  have hsplit : columns.map (·.name) = (columns.take i).map (·.name) ++
      column.name :: (columns.drop (i + 1)).map (·.name) := by
    rw [← List.map_cons, ← List.map_append, ← hget, List.getElem_cons_drop, List.take_append_drop]
  rw [hsplit] at hnames
  exact (List.nodup_cons.1 (List.nodup_append.1 hnames).2.1).1 hlater

end Rows

/-! ## Tables -/

/-- The table of a header and records of the same length. -/
def tableOf (header : List String) (records : List (List String)) : Table :=
  let types := columnTypes header.length records
  ⟨header.zipWith (fun name type => ⟨name, type.name⟩) types, records.map (row header types)⟩

section Tables
variable {header fields : List String} {records : List (List String)}

theorem length_columnTypes (width : Nat) (records : List (List String)) :
    (columnTypes width records).length = width := by
  rw [columnTypes, List.length_map, List.length_range]

theorem names_tableOf (header : List String) (records : List (List String)) :
    (tableOf header records).columns.map (·.name) = header := by
  have hlength := length_columnTypes header.length records
  have hzip : (header.zip (columnTypes header.length records)).map Prod.fst =
      header.zipWith (fun name _ => name) (columnTypes header.length records) := List.map_zipWith
  calc (tableOf header records).columns.map (·.name)
    _ = header.zipWith (fun name _ => name) (columnTypes header.length records) := List.map_zipWith
    _ = (header.zip (columnTypes header.length records)).map Prod.fst := hzip.symm
    _ = header := List.map_fst_zip (Nat.le_of_eq hlength.symm)

theorem columnTypes_getElem? {width i : Nat} (h : i < width) (records : List (List String)) :
    (columnTypes width records)[i]? = some (.ofFields (columnAt records i)) := by
  rw [columnTypes, List.getElem?_map, List.getElem?_range h, Option.map_some]

/-- A record of the table is held by the row that is made of it. -/
theorem holds_row (hfields : fields ∈ records) (hlength : fields.length = header.length) :
    Holds (tableOf header records).columns fields
      (row header (columnTypes header.length records) fields) := by
  have hwidth := length_columnTypes header.length records
  constructor
  case length_eq => rw [hlength, ← List.length_map ColumnDescription.name, names_tableOf]
  case names_nodup => exact names_row_nodup _ _ _
  case mem_names =>
    intro name
    rw [names_tableOf, mem_names_row hwidth hlength]
  case entry =>
    intro i column field hcolumn hfield hlast
    rw [List.map_drop, names_tableOf] at hlast
    obtain ⟨name, type, hname, htype, rfl⟩ := List.getElem?_zipWith_eq_some.1 hcolumn
    refine ⟨type, type.value field, rfl, find?_row hwidth hlength hname htype hfield hlast, ?_⟩
    rw [columnTypes_getElem? (List.getElem?_eq_some_iff.1 hname).1, Option.some.injEq] at htype
    -- the type was taken from all fields at this place, so this one is read in it
    rw [← htype]
    exact ColumnType.reads_value (List.mem_filterMap.2 ⟨fields, hfields, hfield⟩)

end Tables

/-! ## Reading a table -/

theorem checkLengths_eq_ok_iff {expected : Nat} (index : Nat) (records : List Record) :
    checkLengths expected index records = .ok () ↔
      ∀ record ∈ records, record.fields.length = expected := by
  induction records generalizing index with
  | nil => simp [checkLengths]
  | cons record records ih =>
    rw [checkLengths, List.forall_mem_cons, ← ih (index + 1)]
    split_ifs with hlength
    · exact (and_iff_right hlength).symm
    · exact iff_of_false (by simp) fun h => hlength h.1

end Csv

open Csv

variable {text : String} {table : Table}

/-- The trimmed fields of the records of a text. -/
def Csv.fieldsOf (text : String) : List (List String) :=
  (records text).map fun record => record.fields.map Text.trimmed

theorem Csv.ofCsv_nil (h : records text = []) : Table.ofCsv text = .error .noHeader := by
  rw [Table.ofCsv, h]
  rfl

/-- A header and records have a table if some name in the header is not empty and the records are as
    long as the header. -/
theorem Csv.ofCsv_cons {first : Record} {rest : List Record} (h : records text = first :: rest) :
    Table.ofCsv text = .ok table ↔
      (first.fields.map Text.trimmed).all String.isEmpty = false ∧
      checkLengths (first.fields.map Text.trimmed).length 1 rest = .ok () ∧
      tableOf (first.fields.map Text.trimmed)
        (rest.map fun record => record.fields.map Text.trimmed) = table := by
  rw [Table.ofCsv, h]
  dsimp only
  cases (first.fields.map Text.trimmed).all String.isEmpty with
  | true => exact iff_of_false nofun nofun
  | false =>
    cases checkLengths (first.fields.map Text.trimmed).length 1 rest with
    | error error => exact iff_of_false nofun nofun
    | ok =>
      show Except.ok (tableOf _ _) = .ok table ↔ _
      simp

/-- A text has a table if it has a header, some name in which is not empty, and all its records are as
    long as that. -/
theorem Table.ofCsv_eq_ok_iff :
    Table.ofCsv text = .ok table ↔ ∃ header records, fieldsOf text = header :: records ∧
      (∃ name ∈ header, name ≠ "") ∧ (∀ fields ∈ records, fields.length = header.length) ∧
      tableOf header records = table := by
  unfold fieldsOf
  cases hrecords : Csv.records text with
  | nil =>
    rw [ofCsv_nil hrecords]
    exact iff_of_false nofun nofun
  | cons first rest =>
    let header := first.fields.map Text.trimmed
    let fields := rest.map fun record => record.fields.map Text.trimmed
    have hnamed : header.all String.isEmpty = false ↔ ∃ name ∈ header, name ≠ "" := by
      simp
    have hlengths : checkLengths header.length 1 rest = .ok () ↔
        ∀ list ∈ fields, list.length = header.length := by
      rw [checkLengths_eq_ok_iff, List.forall_mem_map]
      simp only [List.length_map]
    rw [ofCsv_cons hrecords, hnamed, hlengths]
    constructor
    · exact fun h => ⟨header, fields, rfl, h⟩
    · rintro ⟨_, _, hsplit, h⟩
      obtain ⟨rfl, rfl⟩ := List.cons.inj hsplit
      exact h

/-- Every row has one entry for each column and no other, and under the name of a column it has a value
    of the type that the column declares. -/
structure Table.WellTyped (table : Table) : Prop where
  names : ∀ row ∈ table.rows, (row.map Prod.fst).Perm (table.columns.map (·.name))
  typed : ∀ row ∈ table.rows, ∀ column ∈ table.columns, ∃ (type : ColumnType) (value : Json),
    column.dataType = type.name ∧ Assoc.find? column.name row = some value ∧ type.fits value = true

/-- Rows that hold fields under names of their own make a table well typed, if all numbers in the fields
    are finite. -/
theorem Table.WellTyped.of_holds {records : List (List String)}
    (hnames : (table.columns.map (·.name)).Nodup)
    (hrows : ∀ row ∈ table.rows, ∃ fields ∈ records, Holds table.columns fields row)
    (hfinite : ∀ fields ∈ records, ∀ field ∈ fields,
      ∀ x ∈ Number.Format.double.ofText? field, x.finite? ≠ none) : table.WellTyped where
  names row hrow := by
    obtain ⟨fields, -, h⟩ := hrows row hrow
    exact h.names_perm hnames
  typed row hrow column hcolumn := by
    obtain ⟨fields, hfields, h⟩ := hrows row hrow
    obtain ⟨i, hi, hget⟩ := List.getElem_of_mem hcolumn
    have hfield : i < fields.length := h.length_eq ▸ hi
    obtain ⟨type, value, htype, hvalue, hreads⟩ := h.entry_of_nodup hnames
      (List.getElem?_eq_some_iff.2 ⟨hi, hget⟩) (List.getElem?_eq_getElem hfield)
    have hne : value ≠ .null :=
      hreads.ne_null (hfinite fields hfields fields[i] (List.getElem_mem hfield))
    exact ⟨type, value, htype, hvalue, hreads.fits hne⟩

/-- The table of a text has a column for each name in the header and a row for each record that follows
    it, which holds the fields of the record. It is well typed if no two columns share a name and no
    field spells an infinite number or `NaN`. -/
theorem Table.ofCsv_holds (h : Table.ofCsv text = .ok table) :
    ∃ header records, fieldsOf text = header :: records ∧ table.columns.map (·.name) = header ∧
      List.Forall₂ (Holds table.columns) records table.rows ∧
      (header.Nodup → (∀ fields ∈ records, ∀ field ∈ fields,
        ∀ x ∈ Number.Format.double.ofText? field, x.finite? ≠ none) → table.WellTyped) := by
  obtain ⟨header, records, htext, -, hlength, rfl⟩ := ofCsv_eq_ok_iff.1 h
  have hholds : ∀ fields ∈ records, Holds (tableOf header records).columns fields
      (row header (columnTypes header.length records) fields) :=
    fun fields hfields => holds_row hfields (hlength fields hfields)
  refine ⟨header, records, htext, names_tableOf header records, ?_, fun hnames hfinite => ?_⟩
  · exact List.forall₂_map_right_iff.2 (List.forall₂_same.2 hholds)
  · refine WellTyped.of_holds (by rwa [names_tableOf]) (fun row hrow => ?_) hfinite
    obtain ⟨fields, hfields, rfl⟩ := List.mem_map.1 hrow
    exact ⟨fields, hfields, hholds fields hfields⟩

theorem Table.ofCsv_holds_sales :
    ∃ table, Table.ofCsv "region, sales\n\"north, west\", 10\n" = .ok table ∧
      ∃ header records,
        fieldsOf "region, sales\n\"north, west\", 10\n" = header :: records ∧
        table.columns.map (·.name) = header ∧
        List.Forall₂ (Holds table.columns) records table.rows ∧ table.WellTyped := by
  have htable : Table.ofCsv "region, sales\n\"north, west\", 10\n" =
      .ok ⟨[⟨"region", "VARCHAR"⟩, ⟨"sales", "BIGINT"⟩],
        [[("region", .string "north, west"), ("sales", .number (.integer 10))]]⟩ := by rfl
  have hfields : fieldsOf "region, sales\n\"north, west\", 10\n" =
      [["region", "sales"], ["north, west", "10"]] := by rfl
  obtain ⟨header, records, htext, hnames, hrows, htyped⟩ := Table.ofCsv_holds htable
  obtain ⟨rfl, rfl⟩ := List.cons.inj (hfields.symm.trans htext)
  exact ⟨_, htable, _, _, htext, hnames, hrows, htyped (by decide) (by decide)⟩

/-- A column that shares its name with a later one has no entry, and an infinite number is null. -/
theorem Table.exists_not_wellTyped :
    (∃ table, Table.ofCsv "size,size\n7,large\n" = .ok table ∧ ¬table.WellTyped) ∧
      ∃ table, Table.ofCsv "price\n1.5\ninf\n" = .ok table ∧ ¬table.WellTyped := by
  constructor
  case left =>
    let table : Table :=
      ⟨[⟨"size", "BIGINT"⟩, ⟨"size", "VARCHAR"⟩], [[("size", .string "large")]]⟩
    refine ⟨table, by rfl, fun h => ?_⟩
    have hlength : 1 = 2 := (h.names _ List.mem_cons_self).length_eq
    exact absurd hlength (by decide)
  case right =>
    let table : Table := ⟨[⟨"price", "DOUBLE"⟩],
      [[("price", .number (.float ⟨false, 6755399441055744, -52⟩))], [("price", .null)]]⟩
    refine ⟨table, by rfl, fun h => ?_⟩
    obtain ⟨type, value, -, hvalue, hfits⟩ :=
      h.typed _ (List.mem_cons_of_mem _ List.mem_cons_self) _ List.mem_cons_self
    obtain rfl : Json.null = value := Option.some.inj hvalue
    cases type <;> cases hfits

end BlockPipeline

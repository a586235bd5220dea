import BlockPipeline.Proofs.Csv.Columns
import BlockPipeline.Proofs.Csv.Writing
import BlockPipeline.Proofs.Text.Stops

set_option autoImplicit false

/-! # Sheets are read back

A sheet is a rectangle of fields below a header whose names are distinct. No name and no field begins or
ends with white space, which reading would take off; apart from that they are arbitrary. What is read of
the text of a sheet is a table with its names, its records and all their fields (`Table.ofCsv_sheet`). -/

namespace BlockPipeline

open Csv

/-! ## Texts that trimming leaves as they are -/

/-- The text neither begins nor ends with white space. -/
def Text.Bare (s : String) : Prop :=
  Stops isSpace s.toList ∧ Stops isSpace s.toList.reverse

instance (s : String) : Decidable (Text.Bare s) :=
  inferInstanceAs (Decidable (Text.Stops Text.isSpace s.toList ∧
    Text.Stops Text.isSpace s.toList.reverse))

theorem Text.Bare.trimmed_eq {s : String} (h : Bare s) : trimmed s = s := by
  have hstart : s.toList.dropWhile isSpace = s.toList := h.1.dropWhile_append (List.forall_mem_nil _)
  have hend : s.toList.reverse.dropWhile isSpace = s.toList.reverse :=
    h.2.dropWhile_append (List.forall_mem_nil _)
  rw [trimmed, trim, trimEnd, hstart, hend, List.reverse_reverse, String.ofList_toList]

theorem Text.map_trimmed {fields : List String} (h : ∀ field ∈ fields, Bare field) :
    fields.map trimmed = fields :=
  (List.map_congr_left fun field hfield => (h field hfield).trimmed_eq).trans (List.map_id _)

/-! ## Sheets -/

/-- Records below a header with names of its own, some of which is not empty. -/
structure Csv.Sheet where
  header : List String
  records : List (List String)
  distinct : header.Nodup
  named : ∃ name ∈ header, name ≠ ""
  rectangular : ∀ fields ∈ records, fields.length = header.length
  bare_header : ∀ name ∈ header, Text.Bare name
  bare_records : ∀ fields ∈ records, ∀ field ∈ fields, Text.Bare field

namespace Csv.Sheet

/-- The text of a sheet: the header and the records, with every field between quotes. -/
def text (sheet : Sheet) : String := written (sheet.header :: sheet.records)

variable (sheet : Sheet)

theorem header_ne_nil : sheet.header ≠ [] := by
  obtain ⟨name, hname, -⟩ := sheet.named
  exact List.ne_nil_of_mem hname

/-- What is read of the text of a sheet are its header and its records. -/
theorem fieldsOf_text : fieldsOf sheet.text = sheet.header :: sheet.records := by
  have hne : ∀ fields ∈ sheet.header :: sheet.records, fields ≠ [] := by
    refine List.forall_mem_cons.2 ⟨sheet.header_ne_nil, fun fields hfields hnil => ?_⟩
    have hlength := sheet.rectangular fields hfields
    rw [hnil] at hlength
    exact sheet.header_ne_nil (List.length_eq_zero_iff.1 hlength.symm)
  have hbare : ∀ fields ∈ sheet.header :: sheet.records, fields.map Text.trimmed = fields :=
    List.forall_mem_cons.2 ⟨Text.map_trimmed sheet.bare_header,
      fun fields hfields => Text.map_trimmed (sheet.bare_records fields hfields)⟩
  calc fieldsOf sheet.text
    _ = ((Csv.records sheet.text).map Record.fields).map (List.map Text.trimmed) :=
      List.map_map.symm
    _ = (sheet.header :: sheet.records).map (List.map Text.trimmed) := by
      rw [text, fields_records_written hne]
    _ = sheet.header :: sheet.records := (List.map_congr_left hbare).trans (List.map_id _)

end Csv.Sheet

/-- The text of a sheet has a table, with the header as the names of its columns and with a row for each
    record. Each row has the names of the header and no other, and has every field of the record under
    the name of the field's column, in the type that the column declares. -/
theorem Table.ofCsv_sheet (sheet : Sheet) :
    ∃ table, Table.ofCsv sheet.text = .ok table ∧ table.columns.map (·.name) = sheet.header ∧
      List.Forall₂ (fun fields row => (row.map Prod.fst).Perm sheet.header ∧
        ∀ (i : Nat) (column : ColumnDescription) (field : String), table.columns[i]? = some column →
          fields[i]? = some field → Entry column field row) sheet.records table.rows := by
  have hnames := names_tableOf sheet.header sheet.records
  have hdistinct : ((tableOf sheet.header sheet.records).columns.map (·.name)).Nodup :=
    hnames.symm ▸ sheet.distinct
  refine ⟨tableOf sheet.header sheet.records, ?_, hnames, ?_⟩
  · exact ofCsv_eq_ok_iff.2 ⟨_, _, sheet.fieldsOf_text, sheet.named, sheet.rectangular, rfl⟩
  · refine List.forall₂_map_right_iff.2 (List.forall₂_same.2 fun fields hfields => ?_)
    have hholds := holds_row hfields (sheet.rectangular fields hfields)
    have hperm := hholds.names_perm hdistinct
    rw [hnames] at hperm
    exact ⟨hperm, fun i column field => hholds.entry_of_nodup hdistinct⟩

/-- A sheet with commas, quotes, line ends and an empty field. -/
def Csv.Sheet.guests : Sheet where
  header := ["guest", "note, if any", "age", "paid"]
  records := [["\"Jo\" Smith", "", "41", "true"], ["Ann", "two\nlines", "-7", "false"]]
  distinct := by decide
  named := by decide
  rectangular := by decide
  bare_header := by decide
  bare_records := by decide

theorem Table.ofCsv_guests :
    ∃ table, Table.ofCsv ("\"guest\",\"note, if any\",\"age\",\"paid\"\n"
        ++ "\"\"\"Jo\"\" Smith\",\"\",\"41\",\"true\"\n\"Ann\",\"two\nlines\",\"-7\",\"false\"\n") =
        .ok table ∧ table.columns.map (·.name) = Sheet.guests.header ∧
      List.Forall₂ (fun fields row => (row.map Prod.fst).Perm Sheet.guests.header ∧
        ∀ (i : Nat) (column : ColumnDescription) (field : String), table.columns[i]? = some column →
          fields[i]? = some field → Entry column field row) Sheet.guests.records table.rows := by
  have htext : Sheet.guests.text = "\"guest\",\"note, if any\",\"age\",\"paid\"\n"
      ++ "\"\"\"Jo\"\" Smith\",\"\",\"41\",\"true\"\n\"Ann\",\"two\nlines\",\"-7\",\"false\"\n" := by
    decide
  rw [← htext]
  exact Table.ofCsv_sheet Sheet.guests

end BlockPipeline

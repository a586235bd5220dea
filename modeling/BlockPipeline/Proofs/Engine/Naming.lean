import BlockPipeline.Proofs.Engine.Copy

set_option autoImplicit false

/-! # Tables are called by their names

In a statement a table name stands as it is, if it cannot be taken for anything else, and otherwise
between quotes. The engine takes either for the name that was meant, so different tables are never
called the same (`tableToken_faithful`). The tables of blocks need no quotes. -/

namespace BlockPipeline

namespace Sql

/-- The texts differ in the case of ASCII letters at most. -/
def EqUpToCase (s t : String) : Prop := s.toList.map Char.toUpper = t.toList.map Char.toUpper

variable {name : TableName}

/-- The search finds a word in whatever case. -/
theorem isReserved_iff_exists (name : String) :
    isReserved name = true ↔ ∃ word ∈ reservedWords, EqUpToCase name word := by
  have hupper : ∀ word ∈ reservedWords, word.toList.map Char.toUpper = word.toList := by
    decide +kernel
  rw [isReserved_iff]
  constructor
  · intro hmem
    refine ⟨_, hmem, ?_⟩
    rw [EqUpToCase, hupper _ hmem, String.toList_ofList]
  · rintro ⟨word, hmem, heq⟩
    rwa [heq, hupper word hmem, String.ofList_toList]

theorem isBare_iff : isBare name = true ↔
    name.isPlain = true ∧ ∀ word ∈ reservedWords, ¬ EqUpToCase name.text word := by
  rw [isBare, Bool.and_eq_true, Bool.not_eq_true', ← Bool.not_eq_true, isReserved_iff_exists]
  simp only [not_exists, not_and]

theorem tableToken_chars_eq_iff :
    (tableToken name).chars = name.text.toList ↔ isBare name = true := by
  unfold tableToken
  split
  · next hbare => exact iff_of_true rfl hbare
  · next hbare => exact iff_of_false (Text.quoted_ne '"' name.text.toList) hbare

end Sql

namespace Memory

theorem tableToken_chars_injective :
    Function.Injective fun name : TableName => (Sql.tableToken name).chars := by
  intro first second h
  have htext : first.text = second.text := by
    rw [← tableName_tableToken first, ← tableName_tableToken second]
    exact congrArg tableName h
  exact not_imp_not.1 TableName.text_ne htext

/-- Every name is read back from the way it stands in a statement, and so different names stand in
    different ways. A name stands without quotes if and only if it is a plain identifier and no
    reserved word in whatever case, which the search among these words decides. Those of the tables
    of blocks do, and they are different for different blocks. -/
theorem tableToken_faithful :
    (∀ name : TableName, tableName (Sql.tableToken name).chars = name.text) ∧
    (Function.Injective fun name : TableName => (Sql.tableToken name).chars) ∧
    (∀ name : TableName, (Sql.tableToken name).chars = name.text.toList ↔
      name.isPlain = true ∧ ∀ word ∈ Sql.reservedWords, ¬ Sql.EqUpToCase name.text word) ∧
    (∀ name, Sql.isReserved name = true ↔
      ∃ word ∈ Sql.reservedWords, Sql.EqUpToCase name word) ∧
    (∀ id, (TableName.derived id).isPlain = true ∧
      (Sql.tableToken (.derived id)).chars = (TableName.derived id).text.toList) ∧
    Function.Injective TableName.derived :=
  ⟨tableName_tableToken, tableToken_chars_injective,
    fun _ => Sql.tableToken_chars_eq_iff.trans Sql.isBare_iff, Sql.isReserved_iff_exists,
    fun id => ⟨TableName.isPlain_derived id, Sql.tableToken_chars_eq_iff.2 (Sql.isBare_derived id)⟩,
    TableName.derived_injective⟩

example : (Sql.tableToken ⟨"a\"\"b"⟩).chars = "\"a\"\"\"\"b\"".toList := by decide +kernel

end Memory

end BlockPipeline

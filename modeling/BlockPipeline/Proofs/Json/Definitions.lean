import BlockPipeline.Pipeline.Definition
import BlockPipeline.Proofs.Json.Configs
import BlockPipeline.Proofs.Text.Uuid

set_option autoImplicit false

/-! # Definitions are read back

A definition is read back from its text as it was, if the numbers that its filters compare with are
integers of 64 bits, with or without a sign (`ofText_text`). Nothing is asked of its texts, of the
fields that are left out, or of the graph that it describes. -/

namespace BlockPipeline

open Json

/-! ## Records -/

theorem Uuid.decode_toJson (id : Uuid) : Uuid.decode (.ofJson id.toJson) = .ok id := by
  simp only [Uuid.decode, Uuid.toJson, Node.ofJson, Node.stringAs, bind, Except.bind, id.ofText?_text]
  rfl

theorem Metadata.written (metadata : Metadata) : Metadata.record.Written
    (optionalField "name" (metadata.name.map .string)
      ++ optionalField "description" (metadata.description.map .string)) metadata where
  stores := .append (.optional rfl rfl rfl fun _ _ => rfl) (.optional rfl rfl rfl fun _ _ => rfl)
  nodup := by
    cases hname : metadata.name <;> cases hdescription : metadata.description <;>
      simp [optionalField]
  required := by simp [Metadata.record, Field.optional]

theorem BlockDefinition.written (block : BlockDefinition) : BlockDefinition.record.Written
    ([("id", block.id.toJson)] ++ optionalField "label" (block.label.map .string)
      ++ [("config", block.config.toJson)]) block where
  stores := .append
    (.append (.field rfl block.id.decode_toJson .nil) (.optional rfl rfl rfl fun _ _ => rfl))
    (.field rfl block.config.decode_toJson .nil)
  nodup := by cases hlabel : block.label <;> simp [optionalField]
  required := by simp [BlockDefinition.record, Field.optional, Field.required]

theorem Connection.written (link : Connection) : Connection.record.Written
    [("source", link.source.toJson), ("target", link.target.toJson)] link where
  stores := .field rfl link.source.decode_toJson (.field rfl link.target.decode_toJson .nil)
  nodup := by simp
  required := by simp [Connection.record, Field.required]

theorem Definition.written (definition : Definition) : Definition.record.Written
    [("metadata", definition.metadata.toJson),
      ("blocks", .array (definition.blocks.map BlockDefinition.toJson)),
      ("connections", .array (definition.connections.map Connection.toJson))] definition where
  stores := .field rfl definition.metadata.written.decode
    (.field rfl (Node.asList_map fun block _ => block.written.decode)
      (.field rfl (Node.asList_map fun link _ => link.written.decode) .nil))
  nodup := by simp
  required := by simp [Definition.record, Field.optional]

/-! ## Texts -/

/-- All numbers that the filters compare with are integers of 64 bits. -/
def Definition.isIntegral (definition : Definition) : Bool :=
  definition.blocks.all (·.config.isIntegral)

theorem Metadata.readable (metadata : Metadata) : Readable 1 metadata.toJson :=
  .object (ReadableFields.append (.optional fun _ _ => .string _) (.optional fun _ _ => .string _))

theorem BlockDefinition.readable {block : BlockDefinition} (h : block.config.isIntegral = true) :
    Readable 4 block.toJson :=
  .object (ReadableFields.append
    (.append (.cons (.string _) .nil) (.optional fun _ _ => .string _))
    (.cons (BlockConfig.readable h) .nil))

theorem Connection.readable (link : Connection) : Readable 1 link.toJson :=
  .object (ReadableFields.cons (.string _) (.cons (.string _) .nil))

theorem Definition.readable {definition : Definition} (h : definition.isIntegral = true) :
    Readable 6 definition.toJson := by
  have hblocks : ∀ block ∈ definition.blocks, Readable 4 block.toJson := fun block hmem =>
    BlockDefinition.readable (List.all_eq_true.1 h block hmem)
  have hlinks : ∀ link ∈ definition.connections, Readable 4 link.toJson := fun link _ =>
    link.readable.mono (by omega)
  exact .object (ReadableFields.cons (definition.metadata.readable.mono (by omega))
    (.cons (readable_list hblocks) (.cons (readable_list hlinks) .nil)))

/-- A definition is read back from its text. -/
theorem Definition.ofText_text {definition : Definition} (h : definition.isIntegral = true) :
    Definition.ofText definition.text = .ok definition := by
  have hlayout : Document.ofText definition.text = ⟨.ofJson definition.toJson, false⟩ :=
    (Definition.readable h).ofText_chars (by decide) .pretty
  have hroot : Definition.record.decode (.ofJson definition.toJson) = .ok definition :=
    definition.written.decode
  simp only [Definition.ofText, decodeText, hlayout, hroot]
  rfl

/-- The least and the greatest number, escapes, fields that are there and that are not, blocks of all
    kinds, two of them under one identifier, and a connection from a block that there is not. -/
theorem Definition.mixed_ofText_text :
    let definition : Definition := {
      metadata := { description := some "\"quoted\" \\ \x00\x1f\n\t é 😀" }
      blocks := [
        ⟨⟨0⟩, none, .load { tableName := "" }⟩,
        ⟨⟨1⟩, some "", .load { fileName := some "a/b.csv", tableName := "a b" }⟩,
        ⟨⟨2⟩, some "\x7d, \x7b", .filter
          { operator := .notContains, value := some (.number (.integer (-9223372036854775808))) }⟩,
        ⟨⟨2⟩, none, .filter { column := "n", value := some (.number (.integer 18446744073709551615)) }⟩,
        ⟨⟨- 1⟩, none, .filter { value := some (.bool false) }⟩,
        ⟨⟨3⟩, none, .aggregate ⟨["a", ""],
          [{ function := .count }, { column := "n", function := .max, givenName := some "most" }]⟩⟩,
        ⟨⟨4⟩, none, .aggregate {}⟩,
        ⟨⟨5⟩, none, .sort { column := "n", direction := .descending }⟩,
        ⟨⟨6⟩, none, .chart { chartType := .pie, xAxis := "a", title := some "null" }⟩,
        ⟨⟨7⟩, none, .insight { context := "type" }⟩]
      connections := [⟨⟨1⟩, ⟨2⟩⟩, ⟨⟨9⟩, ⟨1⟩⟩] }
    definition.isIntegral = true ∧ Definition.ofText definition.text = .ok definition :=
  ⟨by decide, Definition.ofText_text (by decide)⟩

end BlockPipeline

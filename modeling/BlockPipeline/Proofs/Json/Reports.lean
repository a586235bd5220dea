import BlockPipeline.Proofs.Json.Definitions
import BlockPipeline.Proofs.Temporal.Writing
import BlockPipeline.Run.Report

set_option autoImplicit false

/-! # Blocks and reports are read back

A status and an outcome are told by a name, and only a failure has a message beside it. An outcome has no
object of its own: its fields stand in the visit, next to the block. What is left out, an output table or
a trigger, is taken for none. So a block with integers in its filter and a report with instants in the
range are read back from their texts as they were (`decodeText_block_report`). -/

namespace BlockPipeline

open Json Temporal

/-! ## Blocks -/

/-- A status is read back from its object: the state tells whether a message belongs to it. -/
theorem BlockStatus.decode_toJson (status : BlockStatus) :
    BlockStatus.decode (.ofJson status.toJson) = .ok status := by
  cases status <;> rfl

theorem Block.written (block : Block) : Block.record.Written block.fields block where
  stores := .append
    (.append (.field rfl block.id.decode_toJson (.field rfl rfl
      (.field rfl block.config.decode_toJson (.field rfl block.status.decode_toJson .nil))))
      (.optional rfl rfl rfl fun _ _ => rfl))
    (.field rfl rfl .nil)
  nodup := by cases htable : block.outputTable <;> simp [Block.fields, optionalField, htable]
  required := by simp [Block.record, Block.fields, Field.required, Field.nullable]

theorem BlockStatus.readable (status : BlockStatus) : Readable 1 status.toJson := by
  cases status with
  | error message => exact .object (ReadableFields.cons (.string _) (.cons (.string _) .nil))
  | _ => exact .object (ReadableFields.cons (.string _) .nil)

theorem Block.readable {block : Block} (h : block.config.isIntegral = true) :
    Readable 4 block.toJson :=
  .object (ReadableFields.append
    (.append (.cons (.string _) (.cons (.string _) (.cons (BlockConfig.readable h)
      (.cons (block.status.readable.mono (by omega)) .nil))))
      (.optional fun _ _ => .string _))
    (.cons (.bool _) .nil))

/-! ## Reports -/

theorem Temporal.Timestamp.decode_toJson {t : Timestamp} (h : t.inRange = true) :
    Timestamp.decode (.ofJson t.toJson) = .ok t := by
  simp only [Timestamp.decode, Timestamp.toJson, Node.ofJson, Node.stringAs, bind, Except.bind,
    Timestamp.ofText?_text h]
  rfl

theorem Outcome.ofFields_fields (outcome : Outcome) : ofFields outcome.fields = .ok outcome := by
  cases outcome <;> rfl

/-- The block is picked out, and the fields of the outcome are left as they were. -/
theorem Visit.splitFields_fields (block : BlockId) (outcome : Outcome) :
    splitFields (Node.ofFields (("block_id", block.toJson) :: outcome.fields)) none
      = .ok (some block, outcome.fields) := by
  simp only [Node.ofFields, splitFields, block.decode_toJson]
  cases outcome <;> rfl

theorem Visit.decode_toJson (visit : Visit) : Visit.decode (.ofJson visit.toJson) = .ok visit := by
  simp only [Visit.decode, Visit.toJson, Node.ofJson, splitFields_fields, bind, Except.bind,
    Ending.whenRead, faulting, visit.outcome.ofFields_fields]
  rfl

theorem Report.written {report : Report} (hstarted : report.startedAt.inRange = true)
    (hfinished : report.finishedAt.inRange = true) : Report.record.Written
    ([("run_id", report.runId.toJson)] ++ optionalField "trigger" (report.trigger.map Uuid.toJson)
      ++ [("started_at", report.startedAt.toJson), ("finished_at", report.finishedAt.toJson),
        ("blocks", .array (report.visits.map Visit.toJson))]) report where
  stores := .append
    (.append (.field rfl report.runId.decode_toJson .nil)
      (.optional rfl rfl rfl fun id _ => congrArg (some <$> ·) id.decode_toJson))
    (.field rfl (Timestamp.decode_toJson hstarted) (.field rfl (Timestamp.decode_toJson hfinished)
      (.field rfl (Node.asList_map fun visit _ => visit.decode_toJson) .nil)))
  nodup := by cases htrigger : report.trigger <;> simp [optionalField]
  required := by simp [Report.record, Field.required, Field.nullable]

theorem Outcome.readableFields (outcome : Outcome) : ReadableFields 1 outcome.fields := by
  cases outcome with
  | failed message => exact .cons (.string _) (.cons (.string _) .nil)
  | _ => exact .cons (.string _) .nil

theorem Visit.readable (visit : Visit) : Readable 2 visit.toJson :=
  .object (ReadableFields.cons (.string _) visit.outcome.readableFields)

theorem Report.readable (report : Report) : Readable 4 report.toJson :=
  .object (ReadableFields.append
    (.append (.cons (.string _) .nil) (.optional fun _ _ => .string _))
    (.cons (.string _) (.cons (.string _) (.cons (readable_list fun visit _ => visit.readable) .nil))))

/-! ## Texts -/

/-- What is decoded from the text of a value is what is decoded from the value. -/
theorem Json.Readable.decodeText_chars {α : Type} {decode : Node → Decoded α} {value : Json} {a : α}
    {room : Nat} (h : Readable room value) (hroom : room ≤ Reader.depthLimit)
    (hdecode : decode (.ofJson value) = .ok a) (style : Style) :
    decodeText decode (String.ofList (value.chars style 0)) = .ok a := by
  simp only [decodeText, h.ofText_chars hroom style, hdecode]
  rfl

/-- Blocks and reports are read back from either form of their texts, whatever became of the blocks. -/
theorem decodeText_block_report (style : Style) :
    (∀ block : Block, block.config.isIntegral = true →
      decodeText Block.decode (String.ofList (block.toJson.chars style 0)) = .ok block) ∧
    (∀ report : Report, report.startedAt.inRange = true → report.finishedAt.inRange = true →
      Report.ofText (String.ofList (report.toJson.chars style 0)) = .ok report) := by
  constructor
  · intro block hintegral
    exact (Block.readable hintegral).decodeText_chars (by decide) block.written.decode style
  · intro report hstarted hfinished
    exact report.readable.decodeText_chars (by decide) (Report.written hstarted hfinished).decode style

/-- A failed block that has an output table still, and a report of all outcomes. It begins before 1970
    and ends with the last instant that is shown. -/
theorem failed_block_report :
    let block : Block := {
      id := ⟨1⟩, label := "\"quoted\"", outputTable := some ⟨""⟩, isStale := true
      config := .filter { column := "n", value := some (.number (.integer (-9223372036854775808))) }
      status := .error "state" }
    let report : Report := {
      runId := ⟨2⟩, trigger := some ⟨1⟩, startedAt := ⟨-1⟩, finishedAt := ⟨Timestamp.last⟩
      visits := [⟨⟨1⟩, .failed "\x00\n"⟩, ⟨⟨3⟩, .skipped⟩, ⟨⟨4⟩, .succeeded⟩] }
    (block.config.isIntegral = true ∧
      decodeText Block.decode (String.ofList (block.toJson.chars .compact 0)) = .ok block) ∧
    (report.startedAt.inRange = true ∧ report.finishedAt.inRange = true ∧
      Report.ofText (String.ofList (report.toJson.chars .compact 0)) = .ok report) := by
  refine ⟨⟨by decide, ?_⟩, by decide, by decide, ?_⟩
  · exact (decodeText_block_report .compact).1 _ (by decide)
  · exact (decodeText_block_report .compact).2 _ (by decide) (by decide)

end BlockPipeline

import BlockPipeline.Proofs.Json.Records
import BlockPipeline.Proofs.Json.Values

set_option autoImplicit false

/-! # Configurations are read back

The fields of each kind of configuration are those of its record. Beside them stands the name of the
kind, under a name that no field of any kind has, so the kind is found and the fields are left as they
were (`splitFields_ofFields`). This holds of the objects, whatever number a filter compares with. Their
text can be read back too if that number is an integer of 64 bits (`BlockConfig.readable`). -/

namespace BlockPipeline

open Json

/-! ## Names -/

instance : LawfulNamed FilterOperator := ⟨fun a => by cases a <;> rfl⟩

instance : LawfulNamed AggregateFunction := ⟨fun a => by cases a <;> rfl⟩

instance : LawfulNamed SortDirection := ⟨fun a => by cases a <;> rfl⟩

instance : LawfulNamed ChartType := ⟨fun a => by cases a <;> rfl⟩

/-! ## Records -/

theorem LoadConfig.written (c : LoadConfig) :
    LoadConfig.record.Written (BlockConfig.load c).fields c where
  stores := .append (.optional rfl rfl rfl fun _ _ => rfl) (.field rfl rfl .nil)
  nodup := by cases hname : c.fileName <;> simp [BlockConfig.fields, optionalField, hname]
  required := by simp [LoadConfig.record, Field.optional]

theorem FilterConfig.written (c : FilterConfig) :
    FilterConfig.record.Written (BlockConfig.filter c).fields c where
  stores := .append (.field rfl rfl (.field rfl (Node.asNamedValue_name c.operator) .nil))
    (.optional rfl rfl rfl fun value _ => by cases value <;> rfl)
  nodup := by cases hvalue : c.value <;> simp [BlockConfig.fields, optionalField, hvalue]
  required := by simp [FilterConfig.record, Field.optional]

/-- The fields of a metric. -/
theorem Metric.written (metric : Metric) : Metric.record.Written
    ([("column", .string metric.column), ("func", .string (Named.name metric.function))]
      ++ optionalField "alias" (metric.givenName.map .string)) metric where
  stores := .append (.field rfl rfl (.field rfl (Node.asNamedValue_name metric.function) .nil))
    (.optional rfl rfl rfl fun _ _ => rfl)
  nodup := by cases hname : metric.givenName <;> simp [optionalField]
  required := by simp [Metric.record, Field.optional, Field.required]

theorem AggregateConfig.written (c : AggregateConfig) :
    AggregateConfig.record.Written (BlockConfig.aggregate c).fields c where
  stores := .field rfl (Node.asList_map fun _ _ => rfl)
    (.field rfl (Node.asList_map fun metric _ => metric.written.decodeRead) .nil)
  nodup := by simp [BlockConfig.fields]
  required := by simp [AggregateConfig.record, Field.optional]

theorem SortConfig.written (c : SortConfig) :
    SortConfig.record.Written (BlockConfig.sort c).fields c where
  stores := .field rfl rfl (.field rfl (Node.asNamedValue_name c.direction) .nil)
  nodup := by simp [BlockConfig.fields]
  required := by simp [SortConfig.record, Field.optional]

theorem ChartConfig.written (c : ChartConfig) :
    ChartConfig.record.Written (BlockConfig.chart c).fields c where
  stores := .append
    (.field rfl (Node.asNamedValue_name c.chartType) (.field rfl rfl (.field rfl rfl .nil)))
    (.optional rfl rfl rfl fun _ _ => rfl)
  nodup := by cases htitle : c.title <;> simp [BlockConfig.fields, optionalField, htitle]
  required := by simp [ChartConfig.record, Field.optional]

theorem InsightConfig.written (c : InsightConfig) :
    InsightConfig.record.Written (BlockConfig.insight c).fields c where
  stores := .field rfl rfl .nil
  nodup := by simp [BlockConfig.fields]
  required := by simp [InsightConfig.record, Field.optional]

/-! ## The kind beside the fields -/

theorem decodeKind_name (kind : BlockKind) :
    BlockConfig.decodeKind (.string kind.name) = .ok kind := by
  cases kind <;> rfl

theorem type_not_mem_fields (config : BlockConfig) (value : Json) :
    ("type", value) ∉ config.fields := by
  cases config <;> simp [BlockConfig.fields, optionalField]

namespace BlockConfig

theorem ofContent_fields (config : BlockConfig) :
    ofContent config.kind (.object config.fields) = .ok config := by
  cases config with
  | load c => exact congrArg (load <$> ·) c.written.decodeRead
  | filter c => exact congrArg (filter <$> ·) c.written.decodeRead
  | aggregate c => exact congrArg (aggregate <$> ·) c.written.decodeRead
  | sort c => exact congrArg (sort <$> ·) c.written.decodeRead
  | chart c => exact congrArg (chart <$> ·) c.written.decodeRead
  | insight c => exact congrArg (insight <$> ·) c.written.decodeRead

/-- Fields that are not called `type` are left as they are. -/
theorem splitFields_ofFields {fields : List (String × Json)}
    (h : ∀ value, ("type", value) ∉ fields) (kind : Option BlockKind) :
    splitFields (Node.ofFields fields) kind = .ok (kind, fields) := by
  induction fields with
  | nil => rfl
  | cons field fields ih =>
    obtain ⟨name, value⟩ := field
    have hname : name ≠ "type" := by
      rintro rfl
      exact h value List.mem_cons_self
    have hmore := ih fun other hmem => h other (List.mem_cons_of_mem _ hmem)
    rw [Node.ofFields, splitFields, Node.read_ofJson, hmore]
    · rfl
    · exact hname

/-- A configuration is read back from its object. -/
theorem decode_toJson (config : BlockConfig) :
    decode (.ofJson config.toJson) = .ok config := by
  have hsplit : splitFields (Node.ofFields (("type", .string config.kind.name) :: config.fields)) none
      = .ok (some config.kind, config.fields) := by
    simp only [Node.ofFields, splitFields, Node.ofJson, decodeKind_name]
    exact splitFields_ofFields (type_not_mem_fields config) _
  simp only [toJson, Node.ofJson, decode, hsplit]
  exact ofContent_fields config

end BlockConfig

/-! ## Fields that can be read -/

/-- The values of all fields can be read. -/
def ReadableFields (room : Nat) (fields : List (String × Json)) : Prop :=
  ∀ field ∈ fields, Readable room field.2

namespace ReadableFields

variable {room : Nat} {name : String} {value : Json} {fields more : List (String × Json)}

theorem nil : ReadableFields room [] := fun _ hfield => nomatch hfield

theorem cons (hvalue : Readable room value) (h : ReadableFields room fields) :
    ReadableFields room ((name, value) :: fields) := List.forall_mem_cons.2 ⟨hvalue, h⟩

theorem append (h : ReadableFields room fields) (hmore : ReadableFields room more) :
    ReadableFields room (fields ++ more) := List.forall_mem_append.2 ⟨h, hmore⟩

theorem optional {α : Type} {toJson : α → Json} {a : Option α}
    (h : ∀ b ∈ a, Readable room (toJson b)) :
    ReadableFields room (optionalField name (a.map toJson)) := by
  cases a with
  | none => exact nil
  | some b => exact nil.cons (h b rfl)

end ReadableFields

theorem readable_list {α : Type} {room : Nat} {toJson : α → Json} {items : List α}
    (h : ∀ item ∈ items, Readable room (toJson item)) :
    Readable (room + 1) (.array (items.map toJson)) := .array (List.forall_mem_map.2 h)

/-! ## Numbers -/

/-- If the value is a number, it is an integer of 64 bits. -/
def FilterValue.isIntegral : FilterValue → Bool
  | .number n => n.isIntegral
  | _ => true

/-- A number that a filter compares with is an integer of 64 bits. -/
def BlockConfig.isIntegral : BlockConfig → Bool
  | .filter c => c.value.all FilterValue.isIntegral
  | _ => true

theorem FilterValue.readable {value : FilterValue} (h : value.isIntegral = true) (room : Nat) :
    Readable room value.toJson := by
  cases value with
  | bool b => exact .bool b
  | number n => exact .number h
  | text s => exact .string s

theorem Metric.readable (metric : Metric) : Readable 1 metric.toJson :=
  .object (ReadableFields.append (.cons (.string _) (.cons (.string _) .nil))
    (.optional fun _ _ => .string _))

theorem BlockConfig.readableFields {config : BlockConfig} (h : config.isIntegral = true) :
    ReadableFields 2 config.fields := by
  cases config with
  | load c => exact .append (.optional fun _ _ => .string _) (.cons (.string _) .nil)
  | filter c =>
    refine .append (.cons (.string _) (.cons (.string _) .nil)) (.optional fun value hvalue => ?_)
    exact FilterValue.readable ((Option.all_eq_true _ _).1 h value hvalue) 2
  | aggregate c =>
    exact .cons (readable_list fun _ _ => .string _)
      (.cons (readable_list fun metric _ => metric.readable) .nil)
  | sort c => exact .cons (.string _) (.cons (.string _) .nil)
  | chart c =>
    exact .append (.cons (.string _) (.cons (.string _) (.cons (.string _) .nil)))
      (.optional fun _ _ => .string _)
  | insight c => exact .cons (.string _) .nil

theorem BlockConfig.readable {config : BlockConfig} (h : config.isIntegral = true) :
    Readable 3 config.toJson := .object (ReadableFields.cons (.string _) (readableFields h))

end BlockPipeline

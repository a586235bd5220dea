import BlockPipeline.Json.Sorted
import BlockPipeline.Proofs.Session.Patch

set_option autoImplicit false

/-! # Configurations in key order

A configuration that is kept as a value has its fields in key order, and so have the metrics in it. Only
what the names stand for matters to decoding, so it is read back all the same
(`BlockConfig.ofJson_sorted`). -/

namespace BlockPipeline

open Json

namespace Json

theorem sortedItems_map {α : Type} (toJson : α → Json) (items : List α) :
    sortedItems (items.map toJson) = items.map fun item => sorted (toJson item) := by
  induction items with
  | nil => rfl
  | cons item items ih => rw [List.map_cons, sortedItems, ih, List.map_cons]

theorem keys_sortedFields (fields : List (String × Json)) :
    (sortedFields fields).map Prod.fst = fields.map Prod.fst := by
  induction fields with
  | nil => rfl
  | cons field fields ih => rw [sortedFields, List.map_cons, ih, List.map_cons]

theorem find?_sortedFields (name : String) (fields : List (String × Json)) :
    Assoc.find? name (sortedFields fields) = (Assoc.find? name fields).map sorted := by
  induction fields with
  | nil => rfl
  | cons field fields ih =>
    obtain ⟨key, value⟩ := field
    rw [sortedFields, Assoc.find?, Assoc.find?, ih]
    split <;> rfl

/-- A record overlaid with its own fields stays the same. -/
theorem Record.Slotted.overlays_self {σ : Type} {r : Record σ} {slots : List (Slot σ)}
    (h : r.Slotted slots) {fields : List (String × Json)} {value : σ} (hwritten : r.Written fields value) :
    ∀ slot ∈ slots, slot.Overlays fields value value := by
  intro slot hslot
  have hinitial := (h.decodeRead_iff hwritten.nodup).1 hwritten.decodeRead slot hslot
  cases hfind : Assoc.find? slot.name fields with
  | some found => exact (Slot.overlays_of_some hfind).2 ((Slot.overlays_of_some hfind).1 hinitial)
  | none => exact (Slot.overlays_of_none hfind).2 rfl

end Json

/-! ## Metrics -/

theorem Metric.writtenSorted (metric : Metric) : Metric.record.Written
    (optionalField "alias" (metric.givenName.map .string)
      ++ [("column", .string metric.column), ("func", .string (Named.name metric.function))]) metric where
  stores := .append (.optional rfl rfl rfl fun _ _ => rfl)
    (.field rfl rfl (.field rfl (Node.asNamedValue_name metric.function) .nil))
  nodup := by cases hname : metric.givenName <;> simp [optionalField]
  required := by simp [Metric.record, Field.optional, Field.required]

theorem Metric.sorted_toJson (metric : Metric) : metric.toJson.sorted =
    .object (optionalField "alias" (metric.givenName.map .string)
      ++ [("column", .string metric.column), ("func", .string (Named.name metric.function))]) := by
  have halias : "alias" < "column" := by decide +kernel
  have hfunc : ¬ "func" < "column" := by decide +kernel
  rw [toJson, sorted]
  cases metric.givenName with
  | none =>
    simp [optionalField, sortedFields, sorted, Assoc.ofList, Assoc.insert, hfunc]
  | some name =>
    simp [optionalField, sortedFields, sorted, Assoc.ofList, Assoc.insert, hfunc, halias]

/-! ## Configurations -/

namespace BlockConfig

/-- A configuration overlaid with its own fields stays the same, also if their values are sorted. -/
theorem overlaid_sortedFields (config : BlockConfig) :
    config.Overlaid (sortedFields config.fields) config := by
  -- only the metrics of an aggregation are objects
  cases config with
  | load c =>
    have hsame : sortedFields (load c).fields = (load c).fields := by
      cases hname : c.fileName <;> simp [fields, optionalField, hname, sortedFields, sorted]
    rw [hsame]
    exact .load (LoadConfig.slotted.overlays_self c.written)
  | filter c =>
    have hsame : sortedFields (filter c).fields = (filter c).fields := by
      rcases hvalue : c.value with _ | _ | _ | _ <;>
        simp [fields, optionalField, hvalue, sortedFields, FilterValue.toJson, sorted]
    rw [hsame]
    exact .filter (FilterConfig.slotted.overlays_self c.written)
  | aggregate c =>
    have hgroup : Node.asList Node.asString (.ofJson (sorted (.array (c.groupBy.map .string)))) =
        .ok c.groupBy := by
      rw [sorted, sortedItems_map]
      exact Node.asList_map fun _ _ => rfl
    have hmetrics : Node.asList Metric.record.decodeRead
        (.ofJson (sorted (.array (c.metrics.map Metric.toJson)))) = .ok c.metrics := by
      rw [sorted, sortedItems_map]
      refine Node.asList_map fun metric _ => ?_
      rw [metric.sorted_toJson]
      exact metric.writtenSorted.decodeRead
    refine .aggregate ?_
    rw [AggregateConfig.slots, List.forall_mem_cons, List.forall_mem_singleton]
    exact ⟨hgroup, hmetrics⟩
  | sort c => exact .sort (SortConfig.slotted.overlays_self c.written)
  | chart c =>
    have hsame : sortedFields (chart c).fields = (chart c).fields := by
      cases htitle : c.title <;> simp [fields, optionalField, htitle, sortedFields, sorted]
    rw [hsame]
    exact .chart (ChartConfig.slotted.overlays_self c.written)
  | insight c => exact .insight (InsightConfig.slotted.overlays_self c.written)

/-- A configuration is read back from its value with all fields in key order. -/
theorem ofJson_sorted (config : BlockConfig) : ofJson config.toJson.sorted = .ok config := by
  let entries := sortedFields (("type", .string config.kind.name) :: config.fields)
  have hkeys : (entries.map Prod.fst).Nodup := by
    rw [keys_sortedFields]
    exact config.keys_nodup
  have hnodup : ((Assoc.ofList entries).map Prod.fst).Nodup :=
    (Assoc.ascending_nil.insert_all entries).keys_nodup
  have htype : ("type", .string config.kind.name) ∈ Assoc.ofList entries :=
    Assoc.mem_of_find? (Assoc.find?_ofList hkeys "type")
  rw [toJson, sorted, ofJson_of_type hnodup htype]
  refine (ofContent_overlaid (hnodup.sublist (List.filter_sublist.map _)) fun name hname => ?_).2
    config.overlaid_sortedFields
  rw [← Assoc.erase, Assoc.find?_erase_of_ne hname, Assoc.find?_ofList hkeys, find?_sortedFields,
    Assoc.find?, if_neg (Ne.symm hname), find?_sortedFields]
  cases Assoc.find? name config.fields <;> rfl

end BlockConfig

end BlockPipeline

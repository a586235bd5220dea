import BlockPipeline.Proofs.Ascending
import BlockPipeline.Proofs.Attempt
import BlockPipeline.Proofs.Json.Configs
import BlockPipeline.Proofs.Json.Overlay
import BlockPipeline.Session.Basic
import Mathlib.Data.String.Basic

set_option autoImplicit false

/-! # Patches

A patch is laid over the fields of a configuration in a table, with the name of the kind, and the table
is decoded. The name of the kind is found in it, as a patch may repeat it but not change it. What is
left holds the fields of the configuration, except where the patch holds others, so it is decoded to
the configuration overlaid with the patch, of the same kind (`patchedConfig_eq_ok_iff`). -/

namespace BlockPipeline

open Json

/-! ## The slots of each kind -/

/-- The slots of a load configuration. -/
def LoadConfig.slots : List (Slot LoadConfig) := [
  ⟨"file_name", Node.asOption Node.asString, fileName, fun s c => { c with fileName := s }⟩,
  ⟨"table_name", Node.asString, tableName, fun s c => { c with tableName := s }⟩]

/-- The slots of a filter configuration. -/
def FilterConfig.slots : List (Slot FilterConfig) := [
  ⟨"column", Node.asString, column, fun s c => { c with column := s }⟩,
  ⟨"operator", Node.asNamedValue, operator, fun o c => { c with operator := o }⟩,
  ⟨"value", Node.asOption FilterValue.decode, value, fun v c => { c with value := v }⟩]

/-- The slots of an aggregate configuration. -/
def AggregateConfig.slots : List (Slot AggregateConfig) := [
  ⟨"group_by", Node.asList Node.asString, groupBy, fun s c => { c with groupBy := s }⟩,
  ⟨"metrics", Node.asList Metric.record.decodeRead, metrics, fun m c => { c with metrics := m }⟩]

/-- The slots of a sort configuration. -/
def SortConfig.slots : List (Slot SortConfig) := [
  ⟨"column", Node.asString, column, fun s c => { c with column := s }⟩,
  ⟨"direction", Node.asNamedValue, direction, fun d c => { c with direction := d }⟩]

/-- The slots of a chart configuration. -/
def ChartConfig.slots : List (Slot ChartConfig) := [
  ⟨"chart_type", Node.asNamedValue, chartType, fun t c => { c with chartType := t }⟩,
  ⟨"x_axis", Node.asString, xAxis, fun s c => { c with xAxis := s }⟩,
  ⟨"y_axis", Node.asString, yAxis, fun s c => { c with yAxis := s }⟩,
  ⟨"title", Node.asOption Node.asString, title, fun s c => { c with title := s }⟩]

/-- The slots of an insight configuration. -/
def InsightConfig.slots : List (Slot InsightConfig) := [
  ⟨"context", Node.asString, context, fun s c => { c with context := s }⟩]

theorem LoadConfig.slotted : LoadConfig.record.Slotted LoadConfig.slots where
  fields_eq := rfl
  names_nodup := by simp [slots]
  get_set := by simp [slots]
  get_other := by simp [slots]
  ext before after h := by cases before; cases after; simp_all [slots]

theorem FilterConfig.slotted : FilterConfig.record.Slotted FilterConfig.slots where
  fields_eq := rfl
  names_nodup := by simp [slots]
  get_set := by simp [slots]
  get_other := by simp [slots]
  ext before after h := by cases before; cases after; simp_all [slots]

theorem AggregateConfig.slotted : AggregateConfig.record.Slotted AggregateConfig.slots where
  fields_eq := rfl
  names_nodup := by simp [slots]
  get_set := by simp [slots]
  get_other := by simp [slots]
  ext before after h := by cases before; cases after; simp_all [slots]

theorem SortConfig.slotted : SortConfig.record.Slotted SortConfig.slots where
  fields_eq := rfl
  names_nodup := by simp [slots]
  get_set := by simp [slots]
  get_other := by simp [slots]
  ext before after h := by cases before; cases after; simp_all [slots]

theorem ChartConfig.slotted : ChartConfig.record.Slotted ChartConfig.slots where
  fields_eq := rfl
  names_nodup := by simp [slots]
  get_set := by simp [slots]
  get_other := by simp [slots]
  ext before after h := by cases before; cases after; simp_all [slots]

theorem InsightConfig.slotted : InsightConfig.record.Slotted InsightConfig.slots where
  fields_eq := rfl
  names_nodup := by simp [slots]
  get_set := by simp [slots]
  get_other := by simp [slots]
  ext before after h := by cases before; cases after; simp_all [slots]

namespace BlockConfig

/-- The second configuration is of the kind of the first, and its fields are those of the table, or
    those of the first where the table has none. -/
inductive Overlaid (table : List (String × Json)) : BlockConfig → BlockConfig → Prop where
  | load {c c' : LoadConfig} (slots : ∀ slot ∈ LoadConfig.slots, slot.Overlays table c c') :
    Overlaid table (.load c) (.load c')
  | filter {c c' : FilterConfig} (slots : ∀ slot ∈ FilterConfig.slots, slot.Overlays table c c') :
    Overlaid table (.filter c) (.filter c')
  | aggregate {c c' : AggregateConfig}
    (slots : ∀ slot ∈ AggregateConfig.slots, slot.Overlays table c c') :
    Overlaid table (.aggregate c) (.aggregate c')
  | sort {c c' : SortConfig} (slots : ∀ slot ∈ SortConfig.slots, slot.Overlays table c c') :
    Overlaid table (.sort c) (.sort c')
  | chart {c c' : ChartConfig} (slots : ∀ slot ∈ ChartConfig.slots, slot.Overlays table c c') :
    Overlaid table (.chart c) (.chart c')
  | insight {c c' : InsightConfig} (slots : ∀ slot ∈ InsightConfig.slots, slot.Overlays table c c') :
    Overlaid table (.insight c) (.insight c')

/-- What a patch makes of a configuration: it is an object that names no other kind, and its fields
    replace those of the configuration. -/
inductive Patched (config : BlockConfig) : Json → BlockConfig → Prop where
  | object {fields : List (String × Json)} {config' : BlockConfig}
    (kept : ∀ value, ("type", value) ∈ fields → value = .string config.kind.name)
    (overlaid : config.Overlaid (Assoc.ofList fields) config') : Patched config (.object fields) config'

variable {config config' : BlockConfig} {kind : BlockKind} {patch : Json}
  {table fields : List (String × Json)}

theorem Overlaid.kind_eq (h : config.Overlaid table config') : config'.kind = config.kind := by
  cases h <;> rfl

theorem Patched.kind_eq (h : config.Patched patch config') : config'.kind = config.kind := by
  cases h with
  | object _ overlaid => exact overlaid.kind_eq

/-! ## Decoding beside the kind -/

/-- A kind of configuration that is decoded from its slots. -/
theorem map_decodeRead_iff {σ : Type} {r : Record σ} {slots : List (Slot σ)} (h : r.Slotted slots)
    {before : σ} {written : List (String × Json)} (hwritten : r.Written written before)
    (hnodup : (table.map Prod.fst).Nodup) (hslots : ∀ slot ∈ slots, slot.name ≠ "type")
    (hfind : ∀ name ≠ "type", Assoc.find? name table =
      (Assoc.find? name fields).or (Assoc.find? name written)) (make : σ → BlockConfig) :
    make <$> r.decodeRead (.ofJson (.object table)) = .ok config' ↔
      ∃ after, (∀ slot ∈ slots, slot.Overlays fields before after) ∧ make after = config' := by
  have hdecode (after : σ) : r.decodeRead (.ofJson (.object table)) = .ok after ↔
      ∀ slot ∈ slots, slot.Overlays fields before after :=
    h.decodeRead_overlay hwritten hnodup fun slot hslot => hfind slot.name (hslots slot hslot)
  simp only [map_eq_ok_iff, hdecode]

/-- A table that holds the fields of a configuration, except where a patch holds others. -/
theorem ofContent_overlaid (hnodup : (table.map Prod.fst).Nodup)
    (hfind : ∀ name ≠ "type", Assoc.find? name table =
      (Assoc.find? name fields).or (Assoc.find? name config.fields)) :
    ofContent config.kind (.object table) = .ok config' ↔ config.Overlaid fields config' := by
  cases config with
  | load c =>
    refine (map_decodeRead_iff LoadConfig.slotted c.written hnodup (by simp [LoadConfig.slots]) hfind
      load).trans ⟨?_, ?_⟩
    · rintro ⟨c', h, rfl⟩
      exact .load h
    · intro h
      cases h with
      | load h => exact ⟨_, h, rfl⟩
  | filter c =>
    refine (map_decodeRead_iff FilterConfig.slotted c.written hnodup (by simp [FilterConfig.slots])
      hfind filter).trans ⟨?_, ?_⟩
    · rintro ⟨c', h, rfl⟩
      exact .filter h
    · intro h
      cases h with
      | filter h => exact ⟨_, h, rfl⟩
  | aggregate c =>
    refine (map_decodeRead_iff AggregateConfig.slotted c.written hnodup
      (by simp [AggregateConfig.slots]) hfind aggregate).trans ⟨?_, ?_⟩
    · rintro ⟨c', h, rfl⟩
      exact .aggregate h
    · intro h
      cases h with
      | aggregate h => exact ⟨_, h, rfl⟩
  | sort c =>
    refine (map_decodeRead_iff SortConfig.slotted c.written hnodup (by simp [SortConfig.slots]) hfind
      sort).trans ⟨?_, ?_⟩
    · rintro ⟨c', h, rfl⟩
      exact .sort h
    · intro h
      cases h with
      | sort h => exact ⟨_, h, rfl⟩
  | chart c =>
    refine (map_decodeRead_iff ChartConfig.slotted c.written hnodup (by simp [ChartConfig.slots])
      hfind chart).trans ⟨?_, ?_⟩
    · rintro ⟨c', h, rfl⟩
      exact .chart h
    · intro h
      cases h with
      | chart h => exact ⟨_, h, rfl⟩
  | insight c =>
    refine (map_decodeRead_iff InsightConfig.slotted c.written hnodup (by simp [InsightConfig.slots])
      hfind insight).trans ⟨?_, ?_⟩
    · rintro ⟨c', h, rfl⟩
      exact .insight h
    · intro h
      cases h with
      | insight h => exact ⟨_, h, rfl⟩

/-- The name of the kind is taken out of the table. -/
theorem splitFields_of_type (hnodup : (table.map Prod.fst).Nodup)
    (htype : ("type", .string kind.name) ∈ table) :
    splitFields (Node.ofFields table) none = .ok (some kind, Assoc.erase "type" table) := by
  induction table with
  | nil => cases htype
  | cons field table ih =>
    obtain ⟨name, value⟩ := field
    obtain ⟨hnew, hrest⟩ := List.nodup_cons.1 hnodup
    by_cases hname : name = "type"
    · subst hname
      -- there is no second one
      have hnone : ∀ other, ("type", other) ∉ table :=
        fun other hmem => hnew (List.mem_map.2 ⟨_, hmem, rfl⟩)
      have hvalue : value = .string kind.name := by
        rcases List.mem_cons.1 htype with hsame | hmem
        · exact (Prod.mk.inj hsame).2.symm
        · exact absurd hmem (hnone _)
      have herase : Assoc.erase "type" table = table := by
        refine List.filter_eq_self.2 ?_
        rintro ⟨other, json⟩ hmem
        refine decide_eq_true ?_
        rintro rfl
        exact hnone json hmem
      rw [hvalue, Assoc.erase, List.filter_cons_of_neg (by simp), ← Assoc.erase, herase]
      simp only [Node.ofFields, splitFields, Node.ofJson, decodeKind_name]
      exact splitFields_ofFields hnone _
    · have hmem : ("type", .string kind.name) ∈ table := by
        refine (List.mem_cons.1 htype).resolve_left fun hsame => ?_
        exact hname (Prod.mk.inj hsame).1.symm
      rw [Assoc.erase, List.filter_cons_of_pos (by simpa using hname), ← Assoc.erase, Node.ofFields,
        splitFields, Node.read_ofJson, ih hrest hmem]
      · rfl
      · exact hname

theorem ofJson_of_type (hnodup : (table.map Prod.fst).Nodup)
    (htype : ("type", .string kind.name) ∈ table) :
    ofJson (.object table) = ofContent kind (.object (Assoc.erase "type" table)) := by
  simp only [ofJson, Node.ofJson, decode, splitFields_of_type hnodup htype]
  rfl

/-! ## The table of a patch -/

theorem otherKind?_eq_none_iff : Session.otherKind? kind fields = none ↔
    ∀ value, ("type", value) ∈ fields → value = .string kind.name := by
  rw [Session.otherKind?, Option.map_eq_none_iff, List.find?_eq_none]
  constructor
  · intro h value hmem
    simpa using h _ hmem
  · rintro h ⟨name, value⟩ hmem
    simp only [decide_eq_true_eq, not_and, not_not]
    rintro rfl
    exact h value hmem

/-- A configuration is written with its kind, and no name occurs twice. -/
theorem keys_nodup (config : BlockConfig) :
    ((("type", Json.string config.kind.name) :: config.fields).map Prod.fst).Nodup := by
  refine List.nodup_cons.2 ⟨fun hmem => ?_, ?_⟩
  · obtain ⟨⟨name, value⟩, hfield, rfl⟩ := List.mem_map.1 hmem
    exact type_not_mem_fields config value hfield
  · cases config with
    | load c => exact c.written.nodup
    | filter c => exact c.written.nodup
    | aggregate c => exact c.written.nodup
    | sort c => exact c.written.nodup
    | chart c => exact c.written.nodup
    | insight c => exact c.written.nodup

/-- If the patch names no other kind, it is decoded as overlaid. -/
theorem ofJson_patched (hkept : ∀ value, ("type", value) ∈ fields → value = .string config.kind.name) :
    ofJson (Session.patched config fields) = .ok config' ↔
      config.Overlaid (Assoc.ofList fields) config' := by
  let written := ("type", Json.string config.kind.name) :: config.fields
  let table := fields.foldl (fun table field => Assoc.insert field.1 field.2 table)
    (Assoc.ofList written)
  have hnodup : (table.map Prod.fst).Nodup :=
    ((Assoc.ascending_nil.insert_all written).insert_all fields).keys_nodup
  have hfind (name : String) : Assoc.find? name table =
      (Assoc.find? name (Assoc.ofList fields)).or (Assoc.find? name written) := by
    rw [Assoc.find?_foldl_insert, Assoc.find?_ofList config.keys_nodup]
  have htype : ("type", .string config.kind.name) ∈ table := by
    refine Assoc.mem_of_find? ?_
    rw [hfind]
    cases hnamed : Assoc.find? "type" (Assoc.ofList fields) with
    | none => rfl
    | some value =>
      have hmem := Assoc.mem_foldl_insert (Assoc.mem_of_find? hnamed)
      rw [hkept value (hmem.resolve_right List.not_mem_nil)]
      rfl
  show ofJson (.object table) = .ok config' ↔ _
  rw [ofJson_of_type hnodup htype]
  refine ofContent_overlaid (hnodup.sublist (List.filter_sublist.map _)) fun name hname => ?_
  rw [Assoc.find?_erase_of_ne hname, hfind, Assoc.find?, if_neg (Ne.symm hname)]

/-- A patch succeeds if it is as told, and makes what is told. -/
theorem patchedConfig_eq_ok_iff :
    Session.patchedConfig config patch = .ok config' ↔ config.Patched patch config' := by
  cases patch with
  | object fields =>
    have hpatched : config.Patched (.object fields) config' ↔
        (∀ value, ("type", value) ∈ fields → value = .string config.kind.name) ∧
          config.Overlaid (Assoc.ofList fields) config' := by
      constructor
      · rintro ⟨hkept, hoverlaid⟩
        exact ⟨hkept, hoverlaid⟩
      · rintro ⟨hkept, hoverlaid⟩
        exact .object hkept hoverlaid
    rw [hpatched, ← otherKind?_eq_none_iff, Session.patchedConfig]
    cases hother : Session.otherKind? config.kind fields with
    | some other => simp
    | none =>
      rw [← ofJson_patched (otherKind?_eq_none_iff.1 hother)]
      cases ofJson (Session.patched config fields) with
      | ok made => simp [Except.mapError]
      | error error => simp [Except.mapError]
  | _ =>
    constructor
    · intro h
      cases h
    · intro h
      cases h

end BlockConfig

end BlockPipeline

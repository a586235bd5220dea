import BlockPipeline.Assoc
import BlockPipeline.Proofs.Attempt
import BlockPipeline.Proofs.Json.Records
import Mathlib.Data.List.Nodup

set_option autoImplicit false

/-! # Some fields of a record replaced

A record none of whose fields must be there is told by its `Slot`s: each has a name in the object, a
decoder for its value, and a place in the record. Decoding an object leaves every slot whose name is
missing at its initial value and puts what is decoded into the others; names that no slot has are
passed over (`Slotted.decodeRead_iff`). So if a table holds the fields of one record, except where a
patch holds others, it is decoded to that record with the slots of the patch replaced
(`Slotted.decodeRead_overlay`). -/

namespace BlockPipeline

namespace Json

/-! ## What is passed over -/

mutual

/-- The tree of a value has no faults. -/
theorem Node.skip_ofJson : ∀ value : Json, (Node.ofJson value).skip = .ok ()
  | .null => rfl
  | .bool _ => rfl
  | .number _ => rfl
  | .string _ => rfl
  | .array items => by
    rw [Node.ofJson, Node.skip, Node.skipItems_ofItems items]
    rfl
  | .object fields => by
    rw [Node.ofJson, Node.skip, Node.skipFields_ofFields fields]
    rfl

theorem Node.skipItems_ofItems : ∀ items : List Json, Node.skipItems (Node.ofItems items) = .ok ()
  | [] => rfl
  | item :: items => by
    rw [Node.ofItems, Node.skipItems, Node.skip_ofJson item]
    exact Node.skipItems_ofItems items

theorem Node.skipFields_ofFields : ∀ fields : List (String × Json),
    Node.skipFields (Node.ofFields fields) = .ok ()
  | [] => rfl
  | (_, value) :: fields => by
    rw [Node.ofFields, Node.skipFields, Node.skip_ofJson value]
    exact Node.skipFields_ofFields fields

end

/-! ## Slots -/

variable {σ : Type}

/-- A field that may be left out: how its value is decoded, and where it is kept in the record. -/
structure Slot (σ : Type) where
  {α : Type}
  name : String
  decode : Node → Decoded α
  get : σ → α
  set : α → σ → σ

namespace Slot

/-- The field that decoding looks for. -/
def field (slot : Slot σ) : Field σ := .optional slot.name slot.decode slot.set

/-- The value of the slot is that of the table, or the former one if the table has none. -/
def Overlays (slot : Slot σ) (table : List (String × Json)) (before after : σ) : Prop :=
  match Assoc.find? slot.name table with
  | some value => slot.decode (.ofJson value) = .ok (slot.get after)
  | none => slot.get after = slot.get before

variable {slot : Slot σ} {table : List (String × Json)} {name : String} {value : Json}
  {before before' after : σ}

theorem overlays_of_some (hfind : Assoc.find? slot.name table = some value) :
    slot.Overlays table before after ↔ slot.decode (.ofJson value) = .ok (slot.get after) := by
  rw [Overlays, hfind]

theorem overlays_of_none (hfind : Assoc.find? slot.name table = none) :
    slot.Overlays table before after ↔ slot.get after = slot.get before := by
  rw [Overlays, hfind]

/-- A slot overlaid twice is overlaid once with what the second table has, or else the first one. -/
theorem Overlays.trans {first second both : List (String × Json)} (h : slot.Overlays first before before')
    (h' : slot.Overlays second before' after)
    (hboth : Assoc.find? slot.name both =
      (Assoc.find? slot.name second).or (Assoc.find? slot.name first)) :
    slot.Overlays both before after := by
  cases hsecond : Assoc.find? slot.name second with
  | some value =>
    rw [hsecond, Option.some_or] at hboth
    exact (overlays_of_some hboth).2 ((overlays_of_some hsecond).1 h')
  | none =>
    rw [hsecond, Option.none_or] at hboth
    have hget := (overlays_of_none hsecond).1 h'
    cases hfirst : Assoc.find? slot.name first with
    | some value =>
      rw [overlays_of_some (hboth.trans hfirst), hget]
      exact (overlays_of_some hfirst).1 h
    | none =>
      rw [overlays_of_none (hboth.trans hfirst), hget]
      exact (overlays_of_none hfirst).1 h

/-- What the table gives to other names does not matter, nor what else there was in the record. -/
theorem overlays_cons_of_ne (hname : slot.name ≠ name) (hget : slot.get before' = slot.get before) :
    slot.Overlays ((name, value) :: table) before after ↔ slot.Overlays table before' after := by
  rw [Overlays, Overlays, Assoc.find?, if_neg (Ne.symm hname), hget]

end Slot

namespace Record

variable {r : Record σ} {slots : List (Slot σ)} {table : List (String × Json)} {before after : σ}

/-- The slots are the fields of the record, they are apart from each other, and there is nothing else
    in the record. -/
structure Slotted (r : Record σ) (slots : List (Slot σ)) : Prop where
  fields_eq : r.fields = slots.map Slot.field
  names_nodup : (slots.map Slot.name).Nodup
  get_set : ∀ slot ∈ slots, ∀ value before, slot.get (slot.set value before) = value
  get_other : ∀ slot ∈ slots, ∀ other ∈ slots, other.name ≠ slot.name → ∀ value before,
    other.get (slot.set value before) = other.get before
  ext : ∀ before after, (∀ slot ∈ slots, slot.get after = slot.get before) → after = before

namespace Slotted

theorem find?_fields (h : r.Slotted slots) (name : String) :
    r.fields.find? (·.name == name) = (slots.find? (·.name == name)).map Slot.field := by
  rw [h.fields_eq, List.find?_map]
  rfl

/-- A name that a slot has is decoded for this slot, and the others are left to the rest. -/
theorem overlays_cons (h : r.Slotted slots) {slot : Slot σ} (hslot : slot ∈ slots) {value : Json}
    (hnew : Assoc.find? slot.name table = none) :
    (∀ other ∈ slots, other.Overlays ((slot.name, value) :: table) before after) ↔
      ∃ a, slot.decode (.ofJson value) = .ok a ∧
        ∀ other ∈ slots, other.Overlays table (slot.set a before) after := by
  have hself : Assoc.find? slot.name ((slot.name, value) :: table) = some value := if_pos rfl
  have hother (a : slot.α) (other : Slot σ) (hmem : other ∈ slots) (hne : other ≠ slot) :
      other.Overlays ((slot.name, value) :: table) before after ↔
        other.Overlays table (slot.set a before) after := by
    have hname : other.name ≠ slot.name :=
      fun hsame => hne (List.inj_on_of_nodup_map h.names_nodup hmem hslot hsame)
    exact Slot.overlays_cons_of_ne hname (h.get_other slot hslot other hmem hname a before)
  constructor
  · intro hall
    refine ⟨slot.get after, (Slot.overlays_of_some hself).1 (hall slot hslot), fun other hmem => ?_⟩
    by_cases hsame : other = slot
    · subst hsame
      exact (Slot.overlays_of_none hnew).2 (h.get_set other hslot _ before).symm
    · exact (hother _ other hmem hsame).1 (hall other hmem)
  · rintro ⟨a, hdecode, hall⟩ other hmem
    by_cases hsame : other = slot
    · subst hsame
      have hget := (Slot.overlays_of_none hnew).1 (hall other hmem)
      rw [h.get_set other hslot] at hget
      rw [Slot.overlays_of_some hself, hget]
      exact hdecode
    · exact (hother a other hmem hsame).2 (hall other hmem)

/-- Storing the fields of an object overlays the record with them. -/
theorem storeFields_iff (h : r.Slotted slots) {seen : List String}
    (hnodup : (table.map Prod.fst).Nodup) (hnew : ∀ name ∈ table.map Prod.fst, name ∉ seen) :
    (∃ names, r.storeFields (Node.ofFields table) seen before = .ok (names, after)) ↔
      ∀ slot ∈ slots, slot.Overlays table before after := by
  -- on the fields, with the names that have been seen before them
  induction table generalizing seen before with
  | nil =>
    constructor
    · rintro ⟨names, hstore⟩ slot -
      obtain ⟨-, rfl⟩ := Prod.mk.inj (Except.ok.inj hstore)
      rfl
    · intro hall
      exact ⟨seen, by rw [h.ext before after hall]; rfl⟩
  | cons field table ih =>
    obtain ⟨name, value⟩ := field
    obtain ⟨hname, hrest⟩ := List.nodup_cons.1 hnodup
    rw [List.map_cons, List.forall_mem_cons] at hnew
    rw [Node.ofFields, Record.storeFields, h.find?_fields]
    cases hfind : slots.find? (·.name == name) with
    | none =>
      simp only [Option.map_none, Node.skip_ofJson]
      refine (ih hrest hnew.2).trans (forall₂_congr fun slot hslot => ?_)
      have hne : slot.name ≠ name := by simpa using List.find?_eq_none.1 hfind slot hslot
      exact (Slot.overlays_cons_of_ne hne rfl).symm
    | some slot =>
      have hslot : slot ∈ slots := List.mem_of_find?_eq_some hfind
      obtain rfl : slot.name = name := by simpa using List.find?_some hfind
      have hmore : ∀ other ∈ table.map Prod.fst, other ∉ slot.name :: seen := by
        intro other hother hmem
        rcases List.mem_cons.1 hmem with rfl | hmem
        · exact hname hother
        · exact hnew.2 other hother hmem
      simp only [Option.map_some, if_neg hnew.1, Slot.field, Field.optional, bind_eq_ok_iff,
        map_eq_ok_iff]
      rw [h.overlays_cons hslot (Assoc.find?_eq_none_iff.2 hname)]
      constructor
      · rintro ⟨names, change, ⟨a, hdecode, rfl⟩, hstore⟩
        exact ⟨a, hdecode, (ih hrest hmore).1 ⟨names, hstore⟩⟩
      · rintro ⟨a, hdecode, hall⟩
        obtain ⟨names, hstore⟩ := (ih hrest hmore).2 hall
        exact ⟨names, _, ⟨a, hdecode, rfl⟩, hstore⟩

/-- An object is decoded to the initial record overlaid with its fields. -/
theorem decodeRead_iff (h : r.Slotted slots) (hnodup : (table.map Prod.fst).Nodup) :
    r.decodeRead (.ofJson (.object table)) = .ok after ↔
      ∀ slot ∈ slots, slot.Overlays table r.initial after := by
  have hnone (names : List String) : r.fields.find? (fun field => field.absence == .never
      && !names.contains field.name) = none := by
    rw [List.find?_eq_none, h.fields_eq]
    simp [Slot.field, Field.optional]
  rw [← h.storeFields_iff hnodup fun _ _ => List.not_mem_nil, Node.ofJson, Record.decodeRead,
    Record.ofFields]
  simp only [hnone, bind_eq_ok_iff, Ending.whenRead, faulting]
  constructor
  · rintro ⟨⟨names, value⟩, hstore, -, -, hvalue⟩
    obtain rfl := Except.ok.inj hvalue
    exact ⟨names, hstore⟩
  · rintro ⟨names, hstore⟩
    exact ⟨(names, after), hstore, (), trivial, rfl⟩

/-- A table that holds the fields of a record, except where a patch holds others, is decoded to that
    record overlaid with the patch. -/
theorem decodeRead_overlay (h : r.Slotted slots) {fields patch : List (String × Json)}
    (hfields : r.Written fields before) (hnodup : (table.map Prod.fst).Nodup)
    (hfind : ∀ slot ∈ slots, Assoc.find? slot.name table =
      (Assoc.find? slot.name patch).or (Assoc.find? slot.name fields)) :
    r.decodeRead (.ofJson (.object table)) = .ok after ↔
      ∀ slot ∈ slots, slot.Overlays patch before after := by
  have hwritten := (h.decodeRead_iff hfields.nodup).1 hfields.decodeRead
  rw [h.decodeRead_iff hnodup]
  refine forall₂_congr fun slot hslot => ?_
  have htable := hfind slot hslot
  have hbefore := hwritten slot hslot
  cases hpatch : Assoc.find? slot.name patch with
  | some value =>
    rw [hpatch, Option.some_or] at htable
    rw [Slot.overlays_of_some htable, Slot.overlays_of_some hpatch]
  | none =>
    rw [hpatch, Option.none_or] at htable
    rw [Slot.overlays_of_none hpatch]
    -- the table gives the slot what the record was written with
    cases hfound : Assoc.find? slot.name fields with
    | some value =>
      rw [Slot.overlays_of_some hfound] at hbefore
      rw [Slot.overlays_of_some (htable.trans hfound), hbefore, Except.ok.injEq, eq_comm]
    | none =>
      rw [Slot.overlays_of_none hfound] at hbefore
      rw [Slot.overlays_of_none (htable.trans hfound), hbefore]

end Slotted

end Record

end Json

end BlockPipeline

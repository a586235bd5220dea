import BlockPipeline.Block.ConfigJson

set_option autoImplicit false

/-! # Records are read back

A record is written as an object that holds each of its fields at most once and the required ones in
any case (`Record.Written`). Stored one after the other, the fields turn the initial record into the
one that was written, and that is what decoding the object gives (`Written.decode`). -/

namespace BlockPipeline

/-- Members are told apart by their names. -/
class LawfulNamed (α : Type) [Named α] : Prop where
  ofName?_name : ∀ a : α, Named.ofName? (Named.name a) = some a

namespace Json

variable {σ α : Type}

/-! ## Parts -/

namespace Node

theorem variant_name [Named α] [LawfulNamed α] (a : α) : variant (Named.name a) = .ok a := by
  rw [variant, LawfulNamed.ofName?_name]

theorem asNamedValue_name [Named α] [LawfulNamed α] (a : α) :
    asNamedValue (ofJson (.string (Named.name a))) = .ok a := variant_name a

theorem asNatural_ofNat (expected : String) (n : Nat) :
    asNatural expected (ofJson (.ofNat n)) = .ok n := by
  simp only [ofNat, ofJson, asNatural]
  rw [if_pos (Int.natCast_nonneg n), Int.toNat_natCast]

/-- A list is read back if all its items are. -/
theorem asList_map {decode : Node → Decoded α} {toJson : α → Json} {items : List α}
    (h : ∀ item ∈ items, decode (ofJson (toJson item)) = .ok item) :
    asList decode (ofJson (.array (items.map toJson))) = .ok items := by
  have hitems : decodeItems decode (ofItems (items.map toJson)) = .ok items := by
    induction items with
    | nil => rfl
    | cons item items ih =>
      have hitem := h item List.mem_cons_self
      have hmore := ih fun other hmem => h other (List.mem_cons_of_mem _ hmem)
      simp only [List.map_cons, ofItems, decodeItems, hitem, hmore]
      rfl
  simp only [ofJson, asList, hitems]
  rfl

end Node

/-! ## Fields -/

namespace Record

variable {r : Record σ} {fields more : List (String × Json)} {before between after : σ}
  {name : String} {value : Json} {absence : Absence}

/-- Stored one after the other, the fields turn a record into another one. -/
inductive Stores (r : Record σ) : List (String × Json) → σ → σ → Prop
  | nil {value : σ} : r.Stores [] value value
  | cons {name : String} {value : Json} {fields : List (String × Json)} {field : Field σ}
    {change : σ → σ} {before after : σ} (hfind : r.fields.find? (·.name == name) = some field)
    (hstore : field.store (.ofJson value) = .ok change)
    (hrest : r.Stores fields (change before) after) :
    r.Stores ((name, value) :: fields) before after

theorem Stores.append (h : r.Stores fields before between) (h' : r.Stores more between after) :
    r.Stores (fields ++ more) before after := by
  induction h with
  | nil => exact h'
  | cons hfind hstore _ ih => exact .cons hfind hstore (ih h')

/-- A field whose value is decoded and set. -/
theorem Stores.field {decode : Node → Decoded α} {set : α → σ → σ} {a : α}
    (hfind : r.fields.find? (·.name == name) = some ⟨name, absence, fun node => set <$> decode node⟩)
    (h : decode (.ofJson value) = .ok a) (hrest : r.Stores fields (set a before) after) :
    r.Stores ((name, value) :: fields) before after :=
  .cons hfind (congrArg (set <$> ·) h) hrest

/-- A field that is left out if there is nothing to write, and then there is nothing to set either. -/
theorem Stores.optional {decode : Node → Decoded α} {set : Option α → σ → σ} {toJson : α → Json}
    {a : Option α} (hfind : r.fields.find? (·.name == name)
      = some ⟨name, absence, fun node => set <$> node.asOption decode⟩)
    (hnone : set none before = before) (hset : set a before = after)
    (h : ∀ b ∈ a, (Node.ofJson (toJson b)).asOption decode = .ok (some b)) :
    r.Stores (optionalField name (a.map toJson)) before after := by
  subst hset
  cases a with
  | none =>
    rw [hnone]
    exact .nil
  | some b => exact .field hfind (h b rfl) .nil

theorem Stores.storeFields (h : r.Stores fields before after) {seen : List String}
    (hnodup : (fields.map Prod.fst).Nodup) (hnew : ∀ name ∈ fields.map Prod.fst, name ∉ seen) :
    r.storeFields (Node.ofFields fields) seen before
      = .ok ((fields.map Prod.fst).reverse ++ seen, after) := by
  -- on the fields, with the names that have been seen before them
  induction h generalizing seen with
  | nil => rfl
  | @cons name value fields field change before after hfind hstore _ ih =>
    rw [List.map_cons, List.nodup_cons] at hnodup
    rw [List.map_cons, List.forall_mem_cons] at hnew
    have hmore : ∀ other ∈ fields.map Prod.fst, other ∉ name :: seen := by
      intro other hother hmem
      rcases List.mem_cons.1 hmem with rfl | hmem
      · exact hnodup.1 hother
      · exact hnew.2 other hother hmem
    simp only [Node.ofFields, Record.storeFields, hfind, if_neg hnew.1, hstore]
    rw [List.map_cons, List.reverse_cons, List.append_assoc, List.singleton_append]
    exact ih hnodup.2 hmore

/-! ## Objects -/

/-- The record is written as an object of these fields. -/
structure Written (r : Record σ) (fields : List (String × Json)) (value : σ) : Prop where
  stores : r.Stores fields r.initial value
  nodup : (fields.map Prod.fst).Nodup
  required : ∀ field ∈ r.fields, field.absence = .never → field.name ∈ fields.map Prod.fst

theorem Written.ofFields {value : σ} (h : r.Written fields value) :
    r.ofFields (Node.ofFields fields) .closed = .ok value := by
  have hstores : r.storeFields (Node.ofFields fields) [] r.initial
      = .ok ((fields.map Prod.fst).reverse ++ [], value) :=
    h.stores.storeFields h.nodup fun _ _ => List.not_mem_nil
  have hnone : r.fields.find? (fun field => field.absence == .never
      && !((fields.map Prod.fst).reverse ++ []).contains field.name) = none := by
    rw [List.find?_eq_none]
    intro field hmem hmissing
    rw [Bool.and_eq_true, beq_iff_eq, Bool.not_eq_true', ← Bool.not_eq_true,
      List.contains_iff_mem] at hmissing
    exact hmissing.2 (by simpa using h.required field hmem hmissing.1)
  simp only [Record.ofFields, hstores]
  simp only [bind, Except.bind, Ending.whenRead, faulting, hnone]
  rfl

/-- A record is read back from its object. -/
theorem Written.decode {value : σ} (h : r.Written fields value) :
    r.decode (.ofJson (.object fields)) = .ok value := h.ofFields

theorem Written.decodeRead {value : σ} (h : r.Written fields value) :
    r.decodeRead (.ofJson (.object fields)) = .ok value := h.ofFields

end Record

end Json

end BlockPipeline

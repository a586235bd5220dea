set_option autoImplicit false

/-! # Tables of entries in key order

A table is a list of entries whose keys ascend. `insert` puts an entry where its key belongs and
replaces the entry of an equal key. The look-up laws hold of every list, in order or not; that every
entry is found takes that no key has two. -/

namespace BlockPipeline.Assoc

variable {κ ν : Type} [DecidableEq κ]

/-- The value of a key. -/
def find? (key : κ) : List (κ × ν) → Option ν
  | [] => none
  | (k, v) :: rest => if k = key then some v else find? key rest

/-- Is there an entry of this key? -/
def contains (key : κ) (table : List (κ × ν)) : Bool := (find? key table).isSome

/-- Sets the value of a key. -/
def insert [LT κ] [DecidableRel (α := κ) (· < ·)] (key : κ) (value : ν) :
    List (κ × ν) → List (κ × ν)
  | [] => [(key, value)]
  | (k, v) :: rest =>
    if k = key then (key, value) :: rest
    else if key < k then (key, value) :: (k, v) :: rest
    else (k, v) :: insert key value rest

/-- Removes a key. -/
def erase (key : κ) (table : List (κ × ν)) : List (κ × ν) := table.filter (·.1 ≠ key)

/-- Changes all values. -/
def mapValues {μ : Type} (f : ν → μ) (table : List (κ × ν)) : List (κ × μ) :=
  table.map fun entry => (entry.1, f entry.2)

/-- Changes the value of a key, if there is one. -/
def modify (key : κ) (change : ν → ν) (table : List (κ × ν)) : List (κ × ν) :=
  table.map fun entry => if entry.1 = key then (entry.1, change entry.2) else entry

/-- The table of the entries, the last one of equal keys winning. -/
def ofList [LT κ] [DecidableRel (α := κ) (· < ·)] (entries : List (κ × ν)) : List (κ × ν) :=
  entries.foldl (fun table entry => insert entry.1 entry.2 table) []

/-! ## Look-up laws -/

section
variable [LT κ] [DecidableRel (α := κ) (· < ·)]

theorem find?_insert_self (key : κ) (value : ν) (table : List (κ × ν)) :
    find? key (insert key value table) = some value := by
  induction table with
  | nil => simp [insert, find?]
  | cons entry rest ih =>
    obtain ⟨k, v⟩ := entry
    unfold insert
    split
    · simp [find?]
    · split
      · simp [find?]
      · next h _ => simp [find?, h, ih]

theorem find?_insert_of_ne {key other : κ} (h : other ≠ key) (value : ν) (table : List (κ × ν)) :
    find? other (insert key value table) = find? other table := by
  induction table with
  | nil => simp [insert, find?, h.symm]
  | cons entry rest ih =>
    obtain ⟨k, v⟩ := entry
    unfold insert
    split
    · next hk => subst hk; simp [find?, h.symm]
    · split
      · simp [find?, h.symm]
      · simp [find?, ih]

end

theorem find?_erase_self (key : κ) (table : List (κ × ν)) : find? key (erase key table) = none := by
  induction table with
  | nil => rfl
  | cons entry rest ih =>
    obtain ⟨k, v⟩ := entry
    by_cases h : k = key
    · simpa [erase, h] using ih
    · simpa [erase, h, find?] using ih

theorem find?_erase_of_ne {key other : κ} (h : other ≠ key) (table : List (κ × ν)) :
    find? other (erase key table) = find? other table := by
  induction table with
  | nil => rfl
  | cons entry rest ih =>
    obtain ⟨k, v⟩ := entry
    by_cases hk : k = key
    · subst hk; simpa [erase, find?, h.symm] using ih
    · by_cases ho : k = other
      · simp [erase, find?, ho, h]
      · simpa [erase, hk, find?, ho] using ih

theorem find?_modify (key other : κ) (change : ν → ν) (table : List (κ × ν)) :
    find? other (modify key change table) =
      (find? other table).map fun value => if other = key then change value else value := by
  induction table with
  | nil => rfl
  | cons entry rest ih =>
    obtain ⟨k, v⟩ := entry
    unfold modify at ih ⊢
    rw [List.map_cons]
    by_cases hk : k = key
    · by_cases ho : k = other
      · simp [find?, ← ho, hk]
      · simpa [find?, hk, hk ▸ ho] using ih
    · by_cases ho : k = other
      · simp [find?, ← ho, hk]
      · simpa [find?, hk, ho] using ih

/-- Of two changes of one value the second starts from what the first has made. -/
theorem modify_modify (key : κ) (first second : ν → ν) (table : List (κ × ν)) :
    modify key second (modify key first table) = modify key (second ∘ first) table := by
  rw [modify, modify, List.map_map]
  refine List.map_congr_left fun entry _ => ?_
  rw [Function.comp_apply]
  by_cases hk : entry.1 = key
  · simp [hk]
  · simp [hk]

/-- A change of a value that has just been set under a new key is a change of what is set. -/
theorem modify_insert [LT κ] [DecidableRel (α := κ) (· < ·)] {key : κ} {table : List (κ × ν)}
    (hnew : key ∉ table.map Prod.fst) (change : ν → ν) (value : ν) :
    modify key change (insert key value table) = insert key (change value) table := by
  have hothers : modify key change table = table := by
    refine (List.map_congr_left fun entry hentry => if_neg ?_).trans (List.map_id _)
    rintro rfl
    exact hnew (List.mem_map_of_mem hentry)
  induction table with
  | nil => simp [insert, modify]
  | cons entry rest ih =>
    obtain ⟨k, v⟩ := entry
    rw [List.map_cons, List.mem_cons, not_or] at hnew
    have hrest : modify key change rest = rest := (List.cons.inj hothers).2
    unfold insert
    rw [if_neg (Ne.symm hnew.1), if_neg (Ne.symm hnew.1)]
    split
    · rw [modify, List.map_cons, if_pos rfl, ← modify, hothers]
    · rw [modify, List.map_cons, if_neg (Ne.symm hnew.1), ← modify, ih hnew.2 hrest]

theorem find?_mapValues {μ : Type} (f : ν → μ) (key : κ) (table : List (κ × ν)) :
    find? key (mapValues f table) = (find? key table).map f := by
  induction table with
  | nil => rfl
  | cons entry rest ih =>
    obtain ⟨k, v⟩ := entry
    unfold mapValues at ih ⊢
    rw [List.map_cons, find?, find?, ih]
    by_cases hk : k = key
    · rw [if_pos hk, if_pos hk, Option.map_some]
    · rw [if_neg hk, if_neg hk]

/-! ## Entries -/

theorem mem_of_find? {key : κ} {value : ν} {table : List (κ × ν)}
    (h : find? key table = some value) : (key, value) ∈ table := by
  induction table with
  | nil => cases h
  | cons entry rest ih =>
    obtain ⟨k, v⟩ := entry
    unfold find? at h
    split at h
    · next hk =>
        obtain rfl := Option.some.inj h
        rw [hk]
        exact List.mem_cons_self
    · exact List.mem_cons_of_mem _ (ih h)

theorem mem_keys_iff {key : κ} {table : List (κ × ν)} :
    key ∈ table.map Prod.fst ↔ ∃ value, find? key table = some value := by
  induction table with
  | nil => simp [find?]
  | cons entry rest ih =>
    obtain ⟨k, v⟩ := entry
    rw [List.map_cons, List.mem_cons, ih, find?]
    by_cases hk : k = key
    · simp [hk]
    · simp [hk, Ne.symm hk]

theorem find?_eq_none_iff {key : κ} {table : List (κ × ν)} :
    find? key table = none ↔ key ∉ table.map Prod.fst := by
  rw [mem_keys_iff, ← Option.isSome_iff_exists, Option.not_isSome_iff_eq_none]

/-- If no key has two entries, every entry is found. -/
theorem find?_eq_some_iff {key : κ} {value : ν} {table : List (κ × ν)}
    (h : (table.map Prod.fst).Nodup) : find? key table = some value ↔ (key, value) ∈ table := by
  refine ⟨mem_of_find?, fun hmem => ?_⟩
  induction table with
  | nil => cases hmem
  | cons entry rest ih =>
    obtain ⟨k, v⟩ := entry
    obtain ⟨hnew, hrest⟩ := List.nodup_cons.1 h
    rcases List.mem_cons.1 hmem with hsame | hmem
    · cases hsame
      exact if_pos rfl
    · have hk : k ≠ key := by
        rintro rfl
        exact hnew (List.mem_map.2 ⟨_, hmem, rfl⟩)
      rw [find?, if_neg hk]
      exact ih hrest hmem

/-- An entry of a new key is one entry more. -/
theorem insert_perm [LT κ] [DecidableRel (α := κ) (· < ·)] {key : κ} {value : ν}
    {table : List (κ × ν)} (h : key ∉ table.map Prod.fst) :
    (insert key value table).Perm ((key, value) :: table) := by
  induction table with
  | nil => exact List.Perm.refl _
  | cons entry rest ih =>
    obtain ⟨k, v⟩ := entry
    rw [List.map_cons, List.mem_cons, not_or] at h
    unfold insert
    rw [if_neg (Ne.symm h.1)]
    split
    · exact List.Perm.refl _
    · exact ((ih h.2).cons _).trans (List.Perm.swap _ _ _)

theorem mapValues_mapValues {α μ ρ : Type} (f : ν → μ) (f' : μ → ρ) (table : List (α × ν)) :
    mapValues f' (mapValues f table) = mapValues (f' ∘ f) table := by
  rw [mapValues, mapValues, List.map_map]
  rfl

theorem keys_mapValues {α μ : Type} (f : ν → μ) (table : List (α × ν)) :
    (mapValues f table).map Prod.fst = table.map Prod.fst := by
  rw [mapValues, List.map_map]
  rfl

end BlockPipeline.Assoc

import BlockPipeline.Assoc
import BlockPipeline.Uuid
import Mathlib.Data.List.Nodup
import Mathlib.Order.RelClasses

set_option autoImplicit false

/-! # Tables whose keys ascend

A table whose keys ascend is known by what is found in it (`Ascending.ext`). Setting and removing keys
keeps it in order, and setting a key to the value that it has changes nothing. -/

namespace BlockPipeline

namespace Assoc

variable {κ ν : Type} [DecidableEq κ] {key : κ} {value : ν} {table other : List (κ × ν)}

/-- If no key has two entries, a change that leaves the value of its key as it is leaves the table as
    it is. -/
theorem modify_eq_self (h : (table.map Prod.fst).Nodup) {change : ν → ν}
    (hsame : ∀ value, find? key table = some value → change value = value) :
    modify key change table = table := by
  have hentries : ∀ entry ∈ table,
      (if entry.1 = key then (entry.1, change entry.2) else entry) = id entry := by
    rintro ⟨k, v⟩ hentry
    show (if k = key then (k, change v) else (k, v)) = (k, v)
    by_cases hk : k = key
    · subst hk
      rw [if_pos rfl, hsame v ((find?_eq_some_iff h).2 hentry)]
    · rw [if_neg hk]
  rw [modify, List.map_congr_left hentries, List.map_id]

/-- If no key has two entries, the table is what is found of its keys. -/
theorem filterMap_keys (h : (table.map Prod.fst).Nodup) :
    ((table.map Prod.fst).filterMap fun key => (find? key table).map fun value => (key, value)) =
      table := by
  have hentries : ∀ entry ∈ table,
      ((find? entry.1 table).map fun value => (entry.1, value)) = some entry := by
    intro entry hentry
    rw [(find?_eq_some_iff h).2 hentry, Option.map_some]
  rw [List.filterMap_map]
  exact (List.filterMap_congr hentries).trans List.filterMap_some

/-- Tables of the same keys in which the same is found are equal. -/
theorem eq_of_keys (h : (table.map Prod.fst).Nodup)
    (hkeys : other.map Prod.fst = table.map Prod.fst)
    (hsame : ∀ key, find? key other = find? key table) : other = table := by
  have hother : (other.map Prod.fst).Nodup := hkeys ▸ h
  rw [← filterMap_keys hother, ← filterMap_keys h, hkeys]
  simp only [hsame]

variable [LT κ]

/-- The keys ascend. -/
def Ascending (table : List (κ × ν)) : Prop := table.Pairwise (·.1 < ·.1)

omit [DecidableEq κ] in
theorem ascending_nil : Ascending ([] : List (κ × ν)) := List.Pairwise.nil

theorem Ascending.erase (h : Ascending table) (key : κ) : Ascending (erase key table) :=
  List.Pairwise.filter _ h

variable [DecidableRel (α := κ) (· < ·)]

theorem mem_insert {entry : κ × ν} (h : entry ∈ insert key value table) :
    entry = (key, value) ∨ entry ∈ table := by
  induction table with
  | nil => exact .inl (List.mem_singleton.1 h)
  | cons first rest ih =>
    obtain ⟨k, v⟩ := first
    unfold insert at h
    split_ifs at h
    · exact (List.mem_cons.1 h).imp_right (List.mem_cons_of_mem _)
    · exact List.mem_cons.1 h
    · rcases List.mem_cons.1 h with hfirst | hrest
      · exact .inr (hfirst ▸ List.mem_cons_self)
      · exact (ih hrest).imp_right (List.mem_cons_of_mem _)

/-- Entries that are put in one after the other are found before those of the table. -/
theorem find?_foldl_insert (entries table : List (κ × ν)) (key : κ) :
    find? key (entries.foldl (fun table entry => Assoc.insert entry.1 entry.2 table) table) =
      (find? key (ofList entries)).or (find? key table) := by
  unfold ofList
  induction entries generalizing table with
  | nil => rfl
  | cons entry entries ih =>
    rw [List.foldl_cons, ih, List.foldl_cons, ih (Assoc.insert entry.1 entry.2 []), Option.or_assoc]
    by_cases hsame : key = entry.1
    · rw [hsame, find?_insert_self, find?_insert_self, Option.some_or]
    · rw [find?_insert_of_ne hsame, find?_insert_of_ne hsame, find?, Option.none_or]

/-- An entry says what is found of its key, unless a later one does. -/
theorem find?_ofList_cons (entry : κ × ν) (entries : List (κ × ν)) (key : κ) :
    find? key (ofList (entry :: entries)) =
      (find? key (ofList entries)).or (if entry.1 = key then some entry.2 else none) := by
  have hlater : find? key (ofList (entry :: entries)) =
      (find? key (ofList entries)).or (find? key (insert entry.1 entry.2 [])) :=
    find?_foldl_insert entries _ key
  rw [hlater]
  by_cases hk : entry.1 = key
  · rw [← hk, find?_insert_self, if_pos rfl]
  · rw [find?_insert_of_ne (Ne.symm hk), if_neg hk, find?]

/-- If no key has two entries, the table of the entries says what they say. -/
theorem find?_ofList {entries : List (κ × ν)} (h : (entries.map Prod.fst).Nodup) (key : κ) :
    find? key (ofList entries) = find? key entries := by
  induction entries with
  | nil => rfl
  | cons entry entries ih =>
    obtain ⟨hnew, hrest⟩ := List.nodup_cons.1 h
    rw [find?_ofList_cons, ih hrest, find?]
    by_cases hk : entry.1 = key
    · rw [if_pos hk, if_pos hk, ← hk, find?_eq_none_iff.2 hnew, Option.none_or]
    · rw [if_neg hk, if_neg hk, Option.or_none]

/-- The table of the entries has their keys. -/
theorem mem_keys_ofList {entries : List (κ × ν)} :
    key ∈ (ofList entries).map Prod.fst ↔ key ∈ entries.map Prod.fst := by
  induction entries with
  | nil => rfl
  | cons entry entries ih =>
    rw [List.map_cons, List.mem_cons, ← ih, mem_keys_iff, mem_keys_iff, find?_ofList_cons]
    by_cases hk : entry.1 = key
    · cases find? key (ofList entries) <;> simp [hk]
    · rw [if_neg hk, Option.or_none, or_iff_right (Ne.symm hk)]

/-- Of the entries of one key the last one is found. By induction on the entries: those that follow
    the first one are put in after it. -/
theorem find?_ofList_last {entries : List (κ × ν)} {i : Nat}
    (hentry : entries[i]? = some (key, value))
    (hlast : key ∉ (entries.drop (i + 1)).map Prod.fst) :
    find? key (ofList entries) = some value := by
  induction entries generalizing i with
  | nil => cases hentry
  | cons first rest ih =>
    rw [find?_ofList_cons]
    cases i with
    | zero =>
      obtain rfl : first = (key, value) := Option.some.inj hentry
      have hnone : find? key (ofList rest) = none :=
        find?_eq_none_iff.2 fun hmem => hlast (mem_keys_ofList.1 hmem)
      rw [hnone, Option.none_or, if_pos rfl]
    | succ i => rw [ih hentry hlast, Option.some_or]

/-- The entries of a table into which entries were put are among both. -/
theorem mem_foldl_insert {entries : List (κ × ν)} {entry : κ × ν}
    (h : entry ∈ entries.foldl (fun table entry => Assoc.insert entry.1 entry.2 table) table) :
    entry ∈ entries ∨ entry ∈ table := by
  induction entries generalizing table with
  | nil => exact .inr h
  | cons first rest ih =>
    rcases ih h with h | h
    · exact .inl (List.mem_cons_of_mem _ h)
    · rcases mem_insert h with rfl | h
      · exact .inl List.mem_cons_self
      · exact .inr h

variable [IsStrictTotalOrder κ (· < ·)]

omit [DecidableEq κ] [DecidableRel (α := κ) (· < ·)] in
theorem Ascending.keys_nodup (h : Ascending table) : (table.map Prod.fst).Nodup := by
  refine List.pairwise_map.2 (List.Pairwise.imp ?_ h)
  intro a b hlt heq
  rw [heq] at hlt
  exact irrefl _ hlt

theorem Ascending.insert (h : Ascending table) (key : κ) (value : ν) :
    Ascending (Assoc.insert key value table) := by
  induction table with
  | nil => exact List.pairwise_singleton _ _
  | cons first rest ih =>
    obtain ⟨k, v⟩ := first
    obtain ⟨hfirst, hrest⟩ := List.pairwise_cons.1 h
    unfold Assoc.insert
    split_ifs with hsame hbefore
    · subst hsame
      exact List.pairwise_cons.2 ⟨hfirst, hrest⟩
    · refine List.pairwise_cons.2 ⟨?_, h⟩
      intro entry hentry
      rcases List.mem_cons.1 hentry with rfl | hentry
      · exact hbefore
      · exact IsTrans.trans _ _ _ hbefore (hfirst entry hentry)
    · refine List.pairwise_cons.2 ⟨?_, ih hrest⟩
      intro entry hentry
      rcases mem_insert hentry with rfl | hentry
      · by_contra hnot
        exact hsame (Std.Trichotomous.trichotomous (r := (· < ·)) k key hnot hbefore)
      · exact hfirst entry hentry

theorem Ascending.insert_all (h : Ascending table) (entries : List (κ × ν)) :
    Ascending (entries.foldl (fun table entry => Assoc.insert entry.1 entry.2 table) table) := by
  induction entries generalizing table with
  | nil => exact h
  | cons entry entries ih => exact ih (h.insert entry.1 entry.2)

omit [DecidableRel (α := κ) (· < ·)] in
/-- Tables in which the same is found are equal. -/
theorem Ascending.ext (h : Ascending table) (h' : Ascending other)
    (hsame : ∀ key, find? key table = find? key other) : table = other := by
  have hperm : table.Perm other := by
    refine (List.perm_ext_iff_of_nodup h.keys_nodup.of_map h'.keys_nodup.of_map).2 ?_
    rintro ⟨k, v⟩
    rw [← find?_eq_some_iff h.keys_nodup, ← find?_eq_some_iff h'.keys_nodup, hsame]
  refine List.Perm.eq_of_pairwise ?_ h h' hperm
  intro a b _ _ hab hba
  exact absurd (IsTrans.trans _ _ _ hab hba) (irrefl a.1)

/-- Setting a key to the value that it has changes nothing. -/
theorem Ascending.insert_eq_self (h : Ascending table) (hfind : find? key table = some value) :
    Assoc.insert key value table = table := by
  refine (h.insert key value).ext h ?_
  intro other
  by_cases hsame : other = key
  · rw [hsame, find?_insert_self, hfind]
  · exact find?_insert_of_ne hsame value table

end Assoc

instance : IsStrictTotalOrder Uuid (· < ·) where
  trichotomous a b hab hba := by
    have hle : a.value.toNat = b.value.toNat := Nat.le_antisymm (Nat.not_lt.1 hba) (Nat.not_lt.1 hab)
    cases a
    cases b
    rw [Uuid.mk.injEq]
    exact BitVec.eq_of_toNat_eq hle
  irrefl a := Nat.lt_irrefl a.value.toNat
  trans _ _ _ hab hbc := Nat.lt_trans hab hbc

end BlockPipeline

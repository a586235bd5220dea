set_option autoImplicit false

/-! # Looking up in fixed lists

Kinds, operators, policies and the like are finite sets whose members have a name in text, by which
they are found. A list whose items ascend is searched by looking at the item in the middle and going on
in one half. What that search finds is what is there (`Bisection.contains_iff`). -/

namespace BlockPipeline

/-! ## Named values -/

/-- A finite type whose members have names. -/
class Named (α : Type) where
  /-- The members, in the order in which they are listed to a reader. -/
  all : List α
  name : α → String

/-- The member of that name. -/
def Named.ofName? {α : Type} [Named α] (text : String) : Option α :=
  (Named.all : List α).find? fun a => Named.name a == text

/-- The names of all members. -/
def Named.names (α : Type) [Named α] : List String := (Named.all : List α).map Named.name

namespace Bisection

/-! ## Search by halving -/

variable {α : Type} [LT α]

/-- Where the search ends among the `size` items from the position `base` on. An item beyond the wanted
    one is left out with all that follow it; of any other item, all in front of it are left out. -/
def position [DecidableLT α] (items : List α) (wanted : α) (base size : Nat) : Nat :=
  if size ≤ 1 then base
  else
    let middle := base + size / 2
    let base := if (items[middle]?).any (wanted < ·) then base else middle
    position items wanted base (size - size / 2)
termination_by size

/-- Does the search find the item? -/
def contains [DecidableEq α] [DecidableLT α] (items : List α) (wanted : α) : Bool :=
  items[position items wanted 0 items.length]? = some wanted

/-! ## Ascending lists -/

variable {items : List α} {wanted : α} {base size k : Nat}

/-- An item beyond the wanted one stands behind it. -/
theorem lt_iff_of_getElem [Std.Asymm (α := α) (· < ·)] (h : items.Pairwise (· < ·))
    {middle : Nat} (hk : k < items.length) (hmiddle : middle < items.length) :
    items[k] < items[middle] ↔ k < middle := by
  have hascend := List.pairwise_iff_getElem.1 h
  refine ⟨fun hlt => ?_, hascend k middle hk hmiddle⟩
  rcases Nat.lt_trichotomy k middle with hbefore | rfl | hbehind
  · exact hbefore
  · exact absurd hlt (Std.Asymm.asymm _ _ hlt)
  · exact absurd hlt (Std.Asymm.asymm _ _ (hascend middle k hmiddle hk hbehind))

/-- The search ends at the wanted item, since the part that is left always holds it. -/
theorem position_eq [DecidableLT α] [Std.Asymm (α := α) (· < ·)] (h : items.Pairwise (· < ·))
    (hk : k < items.length) (hbase : base ≤ k) (hsize : k < base + size)
    (hlength : base + size ≤ items.length) :
    position items items[k] base size = k := by
  induction size using Nat.strongRecOn generalizing base with
  | _ size ih =>
    rw [position]
    split
    · omega
    · next hmany =>
      have hmiddle : base + size / 2 < items.length := by omega
      simp only [List.getElem?_eq_getElem hmiddle, Option.any_some, decide_eq_true_eq,
        lt_iff_of_getElem h hk hmiddle]
      split
      · exact ih _ (by omega) hbase (by omega) (by omega)
      · exact ih _ (by omega) (by omega) (by omega) (by omega)

theorem contains_iff [DecidableEq α] [DecidableLT α] [Std.Asymm (α := α) (· < ·)]
    (h : items.Pairwise (· < ·)) : contains items wanted = true ↔ wanted ∈ items := by
  rw [contains, decide_eq_true_iff]
  constructor
  · exact List.mem_of_getElem?
  · intro hmem
    obtain ⟨k, hk, rfl⟩ := List.getElem_of_mem hmem
    rw [position_eq h hk (Nat.zero_le k) (by omega) (by omega), List.getElem?_eq_getElem hk]

end Bisection

end BlockPipeline

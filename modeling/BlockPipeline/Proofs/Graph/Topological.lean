import BlockPipeline.Proofs.Graph.Downstream
import Mathlib.Data.List.TakeWhile

set_option autoImplicit false

/-! # The topological order

In a well-formed graph the way back from a block is as long as there are blocks at most, so `chain`,
which is cut off at that length, misses nothing (`chain_eq`). The order is built block by block: behind
the blocks already in order goes the way down to the next one, as far as it is new. Every order on the
way is `Ordered`, so in the end all blocks are listed, each once and after the one that feeds it.

That gives an induction on graphs: what holds of a block whenever it holds of the block that feeds it
holds of all blocks (`WellFormed.induction`). -/

namespace BlockPipeline.Graph

variable {g : Graph} {a b id : BlockId}

/-! ## The way back from a block -/

theorem climb_succ (g : Graph) (steps : Nat) (id : BlockId) :
    g.climb (steps + 1) id = id :: ((g.inputOf id).map (g.climb steps)).getD [] := by
  rw [climb]
  cases g.inputOf id <;> rfl

/-- What is met on the way back reaches the block, or is the block. -/
theorem reaches_of_mem_climb {steps : Nat} (h : a ∈ g.climb steps b) :
    Relation.ReflTransGen g.Feeds a b := by
  induction steps generalizing b with
  | zero => simp [climb] at h
  | succ steps ih =>
    rw [climb_succ, List.mem_cons] at h
    rcases h with rfl | h
    · exact .refl
    · cases hinput : g.inputOf b with
      | none => simp [hinput] at h
      | some feeder =>
        rw [hinput] at h
        exact (ih h).tail hinput

theorem climb_subset (h : g.WellFormed) (hid : id ∈ g.ids) (steps : Nat) :
    g.climb steps id ⊆ g.ids := by
  intro a ha
  rcases (reaches_of_mem_climb ha).cases_head with rfl | ⟨c, hac, _⟩
  · exact hid
  · exact h.feeder_mem hac

/-- On the way back, what is met later reaches what is met before. -/
theorem climb_pairwise (steps : Nat) (id : BlockId) :
    (g.climb steps id).Pairwise fun a b => g.Reaches b a := by
  induction steps generalizing id with
  | zero => exact .nil
  | succ steps ih =>
    rw [climb_succ]
    cases hinput : g.inputOf id with
    | none => simp
    | some feeder =>
      refine List.pairwise_cons.2 ⟨fun b hb => ?_, ih feeder⟩
      exact Relation.TransGen.tail' (reaches_of_mem_climb hb) hinput

theorem climb_nodup (h : g.WellFormed) (steps : Nat) (id : BlockId) :
    (g.climb steps id).Nodup :=
  (climb_pairwise steps id).imp fun hr => (h.reaches_ne hr).symm

/-- The blocks on the way back are distinct, so there are not more of them than there are blocks. -/
theorem climb_length_le (h : g.WellFormed) (hid : id ∈ g.ids) (steps : Nat) :
    (g.climb steps id).length ≤ g.ids.length := by
  have hsub : (g.climb steps id).Subperm g.ids :=
    List.Nodup.subperm (climb_nodup h steps id) (climb_subset h hid steps)
  exact hsub.length_le

theorem take_climb_succ (g : Graph) (steps : Nat) (id : BlockId) :
    (g.climb (steps + 1) id).take steps = g.climb steps id := by
  induction steps generalizing id with
  | zero => rfl
  | succ steps ih =>
    rw [climb_succ, climb_succ g steps, List.take_succ_cons]
    cases g.inputOf id with
    | none => simp
    | some feeder => simpa using ih feeder

/-- The way back is the block and the way back from what feeds it. This fails of a way that is cut
    off too early; the bound on its length excludes that. -/
theorem chain_eq (h : g.WellFormed) (hid : id ∈ g.ids) :
    g.chain id = id :: ((g.inputOf id).map g.chain).getD [] := by
  have hlong : g.climb (g.ids.length + 1) id = g.chain id := by
    rw [chain, ← take_climb_succ g g.ids.length, List.take_of_length_le (climb_length_le h hid _)]
  rw [← hlong, climb_succ]
  rfl

/-- On the way back from a block lie the block itself and all that reach it. -/
theorem mem_chain (h : g.WellFormed) (hid : id ∈ g.ids) :
    a ∈ g.chain id ↔ Relation.ReflTransGen g.Feeds a id := by
  refine ⟨reaches_of_mem_climb, fun hr => ?_⟩
  -- along the connections: the way back from a block goes on with that from its feeder
  induction hr with
  | refl =>
    rw [chain_eq h hid]
    exact List.mem_cons_self
  | tail _ hf ih =>
    have hinput : g.inputOf _ = some _ := hf
    rw [chain_eq h hid, hinput]
    exact List.mem_cons_of_mem _ (ih (h.feeder_mem hf))

/-! ## The order -/

/-- Distinct blocks of the graph, each after the one that feeds it. -/
structure Ordered (g : Graph) (order : List BlockId) : Prop where
  nodup : order.Nodup
  subset : order ⊆ g.ids
  follows : g.Follows [] order

/-- What is new of the way down to a block, from the top. -/
theorem chain_follows (h : g.WellFormed) {ordered done : List BlockId} (hsub : ordered ⊆ done)
    (hid : id ∈ g.ids) : g.Follows done ((g.chain id).takeWhile (· ∉ ordered)).reverse := by
  -- on the way back: the block itself comes last, after the way down to what feeds it
  induction hchain : g.chain id generalizing id with
  | nil => trivial
  | cons first rest ih =>
    rw [chain_eq h hid] at hchain
    obtain ⟨rfl, hrest⟩ := List.cons.inj hchain
    by_cases hin : id ∈ ordered
    · rw [List.takeWhile_cons_of_neg (by simpa using hin)]
      trivial
    rw [List.takeWhile_cons_of_pos (by simpa using hin), List.reverse_cons, follows_append]
    cases hinput : g.inputOf id with
    | none =>
      rw [hinput] at hrest
      subst hrest
      refine ⟨trivial, fun feeder hf => ?_, trivial⟩
      rw [Feeds, hinput] at hf
      cases hf
    | some feeder =>
      rw [hinput] at hrest
      subst hrest
      have hfeeder := h.feeder_mem hinput
      refine ⟨ih hfeeder rfl, fun other hf => ?_, trivial⟩
      obtain rfl := feeder_unique hinput hf
      rw [List.reverse_reverse, List.mem_append]
      -- the feeder is in order already, or it is new and stands right before the block
      by_cases hdone : feeder ∈ ordered
      · exact .inr (hsub hdone)
      · refine .inl ?_
        rw [Option.map_some, Option.getD_some, chain_eq h hfeeder,
          List.takeWhile_cons_of_pos (by simpa using hdone)]
        exact List.mem_cons_self

theorem Ordered.extend (h : g.WellFormed) {ordered : List BlockId} (hordered : g.Ordered ordered)
    (hid : id ∈ g.ids) : g.Ordered (g.extendOrder ordered id) ∧ id ∈ g.extendOrder ordered id := by
  have hnew : ∀ other ∈ (g.chain id).takeWhile (· ∉ ordered), other ∉ ordered := by
    intro other hother
    simpa using List.mem_takeWhile_imp hother
  have hchain : ((g.chain id).takeWhile (· ∉ ordered)).Sublist (g.chain id) :=
    (List.takeWhile_prefix _).sublist
  refine ⟨⟨?_, ?_, ?_⟩, ?_⟩
  · refine hordered.nodup.append (List.nodup_reverse.2 ((climb_nodup h _ id).sublist hchain)) ?_
    intro other hother hmem
    exact hnew other (List.mem_reverse.1 hmem) hother
  · intro other hother
    rcases List.mem_append.1 hother with hother | hother
    · exact hordered.subset hother
    · exact climb_subset h hid _ (hchain.subset (List.mem_reverse.1 hother))
  · rw [extendOrder, follows_append]
    refine ⟨hordered.follows, chain_follows h (fun other hother => ?_) hid⟩
    exact List.mem_append_left _ (List.mem_reverse.2 hother)
  · rw [extendOrder, List.mem_append, List.mem_reverse, chain_eq h hid]
    by_cases hin : id ∈ ordered
    · exact .inl hin
    · refine .inr ?_
      rw [List.takeWhile_cons_of_pos (by simpa using hin)]
      exact List.mem_cons_self

theorem Ordered.extend_all (h : g.WellFormed) {ids ordered : List BlockId} (hids : ids ⊆ g.ids)
    (hordered : g.Ordered ordered) :
    g.Ordered (ids.foldl g.extendOrder ordered) ∧ ordered ⊆ ids.foldl g.extendOrder ordered ∧
      ids ⊆ ids.foldl g.extendOrder ordered := by
  induction ids generalizing ordered with
  | nil => exact ⟨hordered, List.Subset.refl _, List.nil_subset _⟩
  | cons id rest ih =>
    obtain ⟨hnext, hid⟩ := hordered.extend h (hids List.mem_cons_self)
    obtain ⟨hall, hkept, hrest⟩ := ih (fun other hother => hids (List.mem_cons_of_mem _ hother)) hnext
    refine ⟨hall, fun other hother => hkept (List.mem_append_left _ hother), ?_⟩
    exact List.cons_subset.2 ⟨hkept hid, hrest⟩

/-- Each block is listed once, after the one that feeds it. -/
theorem topologicalOrder_ordered (h : g.WellFormed) : g.Ordered g.topologicalOrder :=
  (Ordered.extend_all h (List.Subset.refl _) ⟨List.nodup_nil, List.nil_subset _, trivial⟩).1

theorem mem_topologicalOrder (h : g.WellFormed) : id ∈ g.topologicalOrder ↔ id ∈ g.ids := by
  obtain ⟨hordered, -, hall⟩ :=
    Ordered.extend_all h (List.Subset.refl g.ids) ⟨List.nodup_nil, List.nil_subset _, trivial⟩
  exact ⟨fun hid => hordered.subset hid, fun hid => hall hid⟩

theorem topologicalOrder_perm (h : g.WellFormed) : g.topologicalOrder.Perm g.ids :=
  (List.perm_ext_iff_of_nodup (topologicalOrder_ordered h).nodup h.ids_nodup).2 fun _ =>
    mem_topologicalOrder h

/-! ## Induction along the connections -/

theorem Follows.induction {motive : BlockId → Prop} {done order : List BlockId}
    (h : g.Follows done order) (hdone : ∀ id ∈ done, motive id)
    (hstep : ∀ id, (∀ feeder, g.Feeds feeder id → motive feeder) → motive id) :
    ∀ id ∈ order, motive id := by
  induction order generalizing done with
  | nil => simp
  | cons first rest ih =>
    have hfirst : motive first := hstep first fun feeder hf => hdone feeder (h.1 feeder hf)
    have hdone' : ∀ id ∈ first :: done, motive id := List.forall_mem_cons.2 ⟨hfirst, hdone⟩
    exact List.forall_mem_cons.2 ⟨hfirst, ih h.2 hdone'⟩

/-- What holds of a block whenever it holds of the block that feeds it holds of all blocks. -/
theorem WellFormed.induction {motive : BlockId → Prop} (h : g.WellFormed)
    (hstep : ∀ id, (∀ feeder, g.Feeds feeder id → motive feeder) → motive id) :
    ∀ id ∈ g.ids, motive id := fun id hid =>
  (topologicalOrder_ordered h).follows.induction (by simp) hstep id ((mem_topologicalOrder h).2 hid)

/-- The step is for blocks of the graph only. -/
theorem WellFormed.induction_mem {motive : BlockId → Prop} (h : g.WellFormed)
    (hstep : ∀ id ∈ g.ids, (∀ feeder, g.Feeds feeder id → motive feeder) → motive id) :
    ∀ id ∈ g.ids, motive id := by
  have hall : ∀ id ∈ g.ids, id ∈ g.ids → motive id := by
    refine h.induction fun id ih hid => ?_
    exact hstep id hid fun feeder hf => ih feeder hf (h.feeder_mem hf)
  exact fun id hid => hall id hid hid

end BlockPipeline.Graph

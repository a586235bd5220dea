import BlockPipeline.Proofs.Graph.Topological
import BlockPipeline.Proofs.Session.Reachable

set_option autoImplicit false

/-! # The levels of a graph

A `Way` is a number of connections that lead from one block to another. There is only one way between
two blocks, since a block has one input, and its length is the difference of their depths: the `depth`
of a block is the number of blocks above it.

A search goes down level by level. Its queue is ordered by depth and spans two levels at most
(`Leveled`): what joins it is one level below the block that leaves it. So whatever is found is found
in the order of its depth, and below one block this is the order of the distance from it.

`Searches` is the search without a count. That there is a derivation means that the queue becomes
empty, and `search` with enough of a count finds the same. -/

namespace BlockPipeline.Graph

variable {g : Graph} {a b id : BlockId} {discovered queue : List BlockId} {n : Nat}

/-! ## Ways -/

/-- A number of connections leads from one block to another. -/
inductive Way (g : Graph) (a : BlockId) : Nat → BlockId → Prop where
  | start : Way g a 0 a
  | onward {n : Nat} {b c : BlockId} (way : Way g a n b) (feeds : g.Feeds b c) : Way g a (n + 1) c

theorem Way.reflTransGen (h : g.Way a n b) : Relation.ReflTransGen g.Feeds a b := by
  induction h with
  | start => exact .refl
  | onward _ hf ih => exact ih.tail hf

theorem exists_way (h : Relation.ReflTransGen g.Feeds a b) : ∃ n, g.Way a n b := by
  induction h with
  | refl => exact ⟨0, .start⟩
  | tail _ hf ih =>
    obtain ⟨n, hway⟩ := ih
    exact ⟨n + 1, hway.onward hf⟩

/-- A block is reached from another if there is a way that is not empty. -/
theorem reaches_iff_way : g.Reaches a b ↔ ∃ n, g.Way a (n + 1) b := by
  rw [Reaches, Relation.TransGen.tail'_iff]
  constructor
  · rintro ⟨c, hr, hf⟩
    obtain ⟨n, hway⟩ := exists_way hr
    exact ⟨n, hway.onward hf⟩
  · rintro ⟨n, hway⟩
    cases hway with
    | onward hway hf => exact ⟨_, hway.reflTransGen, hf⟩

/-! ## Depths -/

/-- The number of blocks above a block. -/
def depth (g : Graph) (id : BlockId) : Nat := (g.chain id).length - 1

theorem depth_of_feeds (h : g.WellFormed) (hf : g.Feeds a b) : g.depth b = g.depth a + 1 := by
  have hinput : g.inputOf b = some a := hf
  have hb : (g.chain b).length = (g.chain a).length + 1 := by
    rw [chain_eq h (h.fed_mem hf), hinput]
    rfl
  have ha : 0 < (g.chain a).length := by
    rw [chain_eq h (h.feeder_mem hf)]
    exact Nat.zero_lt_succ _
  rw [depth, depth]
  omega

theorem Way.depth_eq (h : g.WellFormed) (hway : g.Way a n b) : g.depth b = g.depth a + n := by
  induction hway with
  | start => rfl
  | onward _ hf ih =>
    rw [depth_of_feeds h hf, ih]
    rfl

theorem depth_le_of_reaches (h : g.WellFormed) (hr : Relation.ReflTransGen g.Feeds a b) :
    g.depth a ≤ g.depth b := by
  obtain ⟨n, hway⟩ := exists_way hr
  have heq := hway.depth_eq h
  omega

/-! ## Searching level by level -/

/-- A queue is ordered by depth and spans two levels at most. -/
structure Leveled (g : Graph) (queue : List BlockId) : Prop where
  ascending : queue.Pairwise fun a b => g.depth a ≤ g.depth b
  close : ∀ a ∈ queue, ∀ b ∈ queue, g.depth b ≤ g.depth a + 1

theorem Leveled.next (h : g.WellFormed) {first : BlockId} {new : List BlockId}
    (hqueue : g.Leveled (first :: queue)) (hnew : ∀ b ∈ new, g.Feeds first b) :
    g.Leveled (queue ++ new) := by
  obtain ⟨hfirst, hrest⟩ := List.pairwise_cons.1 hqueue.ascending
  have hclose := hqueue.close first List.mem_cons_self
  have hbelow : ∀ b ∈ new, g.depth b = g.depth first + 1 := fun b hb => depth_of_feeds h (hnew b hb)
  constructor
  · refine List.pairwise_append.2 ⟨hrest, ?_, ?_⟩
    · refine List.pairwise_of_forall_mem_list fun a ha b hb => ?_
      rw [hbelow a ha, hbelow b hb]
    · intro a ha b hb
      rw [hbelow b hb]
      exact hclose a (List.mem_cons_of_mem _ ha)
  · intro a ha b hb
    rcases List.mem_append.1 ha with ha | ha <;> rcases List.mem_append.1 hb with hb | hb
    · exact hqueue.close a (List.mem_cons_of_mem _ ha) b (List.mem_cons_of_mem _ hb)
    · rw [hbelow b hb]
      exact Nat.succ_le_succ (hfirst a ha)
    · rw [hbelow a ha]
      exact Nat.le_succ_of_le (hclose b (List.mem_cons_of_mem _ hb))
    · rw [hbelow a ha, hbelow b hb]
      exact Nat.le_succ _

/-- What a search finds is ordered by depth. -/
theorem search_ascending (h : g.WellFormed) (count : Nat) (hqueue : g.Leveled queue) :
    (g.search count discovered queue).Pairwise fun a b => g.depth a ≤ g.depth b := by
  induction count generalizing discovered queue with
  | zero => exact .nil
  | succ count ih =>
    cases queue with
    | nil => exact .nil
    | cons first queue =>
      have hnext : g.Leveled (queue ++ undiscovered discovered (g.successors first)) :=
        hqueue.next h fun b hb => (mem_successors h).1 (mem_undiscovered.1 hb).1
      refine List.pairwise_cons.2 ⟨fun b hb => ?_, ih hnext⟩
      -- what is found later is below something in the queue, and nothing in it is above the first
      obtain ⟨a, ha, hr⟩ := reaches_of_mem_search h hb
      refine Nat.le_trans ?_ (depth_le_of_reaches h hr)
      rcases List.mem_append.1 ha with ha | ha
      · exact (List.pairwise_cons.1 hqueue.ascending).1 a ha
      · have hf := (mem_successors h).1 (mem_undiscovered.1 ha).1
        exact Nat.le_of_lt (depth_of_feeds h hf ▸ Nat.lt_succ_self _)

/-! ## Searching without a count -/

/-- Going through a queue until it is empty finds these blocks. -/
inductive Searches (g : Graph) : List BlockId → List BlockId → List BlockId → Prop where
  | done {discovered : List BlockId} : Searches g discovered [] []
  | visit {discovered queue found : List BlockId} {id : BlockId}
    (rest : Searches g (discovered ++ undiscovered discovered (g.successors id))
      (queue ++ undiscovered discovered (g.successors id)) found) :
    Searches g discovered (id :: queue) (id :: found)

/-- With enough of a count the queue becomes empty. -/
theorem Counted.searches (h : g.WellFormed) {count : Nat}
    (hcounted : g.Counted count discovered queue) :
    g.Searches discovered queue (g.search count discovered queue) := by
  induction count generalizing discovered queue with
  | zero =>
    obtain rfl := hcounted.queue_eq_nil
    exact .done
  | succ count ih =>
    cases queue with
    | nil => exact .done
    | cons first queue => exact .visit (ih (hcounted.next h))

/-! ## The blocks below a block -/

/-- The list is that of the blocks below a block, the nearest first. -/
structure ListsBelow (g : Graph) (id : BlockId) (below : List BlockId) : Prop where
  /-- The search from the block ends, and finds the block and after it the list. -/
  searched : id ∈ g.ids → g.Searches [id] [id] (id :: below)
  nodup : below.Nodup
  /-- The blocks listed are those to which one or more connections lead. -/
  mem_iff : ∀ b, b ∈ below ↔ ∃ n, g.Way id (n + 1) b
  not_self : id ∉ below
  unknown : id ∉ g.ids → below = []
  /-- Of two blocks the one listed first is not farther away. -/
  nearest_first : below.Pairwise fun b c => ∀ m n, g.Way id m b → g.Way id n c → m ≤ n
  /-- The input of each block is listed before it, or is the block itself. -/
  after_feeder : ∀ front b back, below = front ++ b :: back →
    ∃ feeder, g.inputOf b = some feeder ∧ (feeder = id ∨ feeder ∈ front)

/-- However a graph came about, the blocks below a block are listed, whatever the block. -/
theorem listsBelow_downstreamOf (h : g.Occurs) (id : BlockId) :
    g.ListsBelow id (g.downstreamOf id) := by
  have hwf := h.wellFormed
  have hmem : ∀ b, b ∈ g.downstreamOf id ↔ ∃ n, g.Way id (n + 1) b := by
    intro b
    rw [mem_downstreamOf hwf, reaches_iff_way]
  have hascending : (g.downstreamOf id).Pairwise fun b c => g.depth b ≤ g.depth c := by
    by_cases hid : id ∈ g.ids
    · have hstart : g.Leveled [id] := ⟨List.pairwise_singleton _ _, by simp⟩
      have hfound : (g.reachedFrom id).Pairwise fun b c => g.depth b ≤ g.depth c :=
        search_ascending hwf g.ids.length hstart
      rw [downstreamOf_eq hwf hid] at hfound
      exact hfound.of_cons
    · rw [downstreamOf_of_not_mem hwf hid]
      exact .nil
  refine
    { searched := fun hid => ?_
      nodup := downstreamOf_nodup hwf id
      mem_iff := hmem
      not_self := fun hself => hwf.acyclic id ((mem_downstreamOf hwf).1 hself)
      unknown := downstreamOf_of_not_mem hwf
      nearest_first := hascending.imp fun {b c} hle m n hb hc => ?_
      after_feeder := fun front b back hsplit => ?_ }
  · rw [← downstreamOf_eq hwf hid]
    exact (counted_start hid).searches hwf
  · rw [hb.depth_eq hwf, hc.depth_eq hwf] at hle
    exact Nat.le_of_add_le_add_left hle
  · have hb : b ∈ g.downstreamOf id := by simp [hsplit]
    obtain ⟨n, hway⟩ := (hmem b).1 hb
    cases hway with
    | @onward _ feeder _ _ hf =>
      have hfollows := downstreamOf_follows hwf id
      rw [hsplit] at hfollows
      refine ⟨feeder, hf, ?_⟩
      simpa [or_comm] using hfollows.feeder_mem hf

/-- Two blocks below a load block, and one below each of these; before, the last of them was connected
    to another block, and one more block was in the way. The list takes them level by level. -/
theorem listsBelow_of_replaced :
    let load : BlockId := ⟨1⟩
    let left : BlockId := ⟨2⟩
    let right : BlockId := ⟨3⟩
    let lowLeft : BlockId := ⟨4⟩
    let lowRight : BlockId := ⟨5⟩
    let between : BlockId := ⟨6⟩
    let g := [Edit.addKind load .load, .addKind left .filter, .addKind right .filter,
      .addKind lowLeft .filter, .addKind lowRight .filter, .addKind between .filter,
      .connect load left, .connect left lowLeft, .connect lowLeft lowRight, .connect load between,
      .connect between right, .remove between, .connect load right,
      .connect right lowRight].foldl Edit.apply empty
    g.Occurs ∧ g.downstreamOf load = [right, left, lowRight, lowLeft] ∧
      g.ListsBelow load (g.downstreamOf load) := by
  intro load left right lowLeft lowRight between g
  have hoccurs : g.Occurs := .edited (.edits .empty (by decide +kernel))
  exact ⟨hoccurs, by decide +kernel, listsBelow_downstreamOf hoccurs load⟩

end BlockPipeline.Graph

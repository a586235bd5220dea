import BlockPipeline.Pipeline.Traversal
import BlockPipeline.Proofs.Graph.Feeding

set_option autoImplicit false

/-! # The blocks below a block

`search` keeps a queue of blocks and what has been discovered: the queue and the blocks that have left
it. Whatever it discovers for the first time joins the queue, so no block is met twice, and each is met
after one that feeds it. Every block that leaves the queue is counted, and there are not more of them
than blocks in the graph; so the search ends because the queue is empty, and what has been met is
closed under `Feeds`. Hence `reachedFrom` lists what can be reached, without saying anything about
the shape of the graph (`mem_reachedFrom`).

`Follows` is the order in which runs and plans take up blocks: each one after what feeds it. -/

namespace BlockPipeline.Graph

variable {g : Graph} {a b id : BlockId} {discovered queue : List BlockId}

/-! ## Orders that follow the connections -/

/-- Each block of the list comes after the block that feeds it, which stands before it in the list
    or is done already. -/
def Follows (g : Graph) : List BlockId → List BlockId → Prop
  | _, [] => True
  | done, id :: rest =>
    (∀ feeder, g.Feeds feeder id → feeder ∈ done) ∧ g.Follows (id :: done) rest

theorem follows_append {done front back : List BlockId} :
    g.Follows done (front ++ back) ↔
      g.Follows done front ∧ g.Follows (front.reverse ++ done) back := by
  induction front generalizing done with
  | nil => simp [Follows]
  | cons id rest ih =>
    rw [List.cons_append, Follows, Follows, ih, and_assoc, List.reverse_cons, List.append_assoc,
      List.singleton_append]

/-- The feeder of a block stands before it. -/
theorem Follows.feeder_mem {done front back : List BlockId}
    (h : g.Follows done (front ++ b :: back)) (hf : g.Feeds a b) : a ∈ front ∨ a ∈ done := by
  simpa using (follows_append.1 h).2.1 a hf

/-- What is new and comes later in an order is still new when the first of the order is done. -/
theorem not_mem_cons_of_new {first : BlockId} {done rest : List BlockId}
    (hnodup : (first :: rest).Nodup) (hnew : ∀ id ∈ first :: rest, id ∉ done) :
    ∀ id ∈ rest, id ∉ first :: done := by
  intro id hid hmem
  rcases List.mem_cons.1 hmem with rfl | hmem
  · exact (List.nodup_cons.1 hnodup).1 hid
  · exact hnew id (List.mem_cons_of_mem first hid) hmem

/-! ## Searching -/

theorem mem_successors (h : g.WellFormed) : b ∈ g.successors a ↔ g.Feeds a b := by
  rw [h.feeds_iff]
  simp only [successors, List.mem_map, List.mem_filter, beq_iff_eq]
  constructor
  · rintro ⟨⟨source, target⟩, ⟨hmem, rfl⟩, rfl⟩
    exact hmem
  · intro hmem
    exact ⟨⟨a, b⟩, ⟨hmem, rfl⟩, rfl⟩

theorem mem_undiscovered {ids : List BlockId} :
    id ∈ undiscovered discovered ids ↔ id ∈ ids ∧ id ∉ discovered := by
  induction ids generalizing discovered with
  | nil => simp [undiscovered]
  | cons first rest ih =>
    rw [undiscovered, List.mem_cons]
    by_cases hfirst : first ∈ discovered
    · rw [if_pos hfirst, ih]
      constructor
      · exact fun ⟨hmem, hnew⟩ => ⟨.inr hmem, hnew⟩
      · rintro ⟨rfl | hmem, hnew⟩
        · exact absurd hfirst hnew
        · exact ⟨hmem, hnew⟩
    · rw [if_neg hfirst, List.mem_cons, ih, List.mem_cons, not_or]
      constructor
      · rintro (rfl | ⟨hmem, -, hnew⟩)
        · exact ⟨.inl rfl, hfirst⟩
        · exact ⟨.inr hmem, hnew⟩
      · rintro ⟨hmem, hnew⟩
        by_cases hsame : id = first
        · exact .inl hsame
        · exact .inr ⟨hmem.resolve_left hsame, hsame, hnew⟩

theorem undiscovered_nodup (discovered ids : List BlockId) :
    (undiscovered discovered ids).Nodup := by
  induction ids generalizing discovered with
  | nil => exact List.nodup_nil
  | cons first rest ih =>
    rw [undiscovered]
    split
    · exact ih discovered
    · refine List.nodup_cons.2 ⟨fun hmem => ?_, ih _⟩
      exact (mem_undiscovered.1 hmem).2 List.mem_cons_self

/-- What a search finds can be reached from the queue. -/
theorem reaches_of_mem_search (h : g.WellFormed) {count : Nat}
    (hb : b ∈ g.search count discovered queue) :
    ∃ a ∈ queue, Relation.ReflTransGen g.Feeds a b := by
  induction count generalizing discovered queue with
  | zero => cases hb
  | succ count ih =>
    cases queue with
    | nil => cases hb
    | cons first queue =>
      rw [search, List.mem_cons] at hb
      rcases hb with rfl | hb
      · exact ⟨b, List.mem_cons_self, .refl⟩
      · obtain ⟨a, ha, hr⟩ := ih hb
        rcases List.mem_append.1 ha with ha | ha
        · exact ⟨a, List.mem_cons_of_mem _ ha, hr⟩
        · have hf := (mem_successors h).1 (mem_undiscovered.1 ha).1
          exact ⟨first, List.mem_cons_self, .head hf hr⟩

/-- What a search keeps: no block stands in the queue twice, and all of the queue has been
    discovered. -/
structure Queued (discovered queue : List BlockId) : Prop where
  nodup : queue.Nodup
  subset : queue ⊆ discovered

theorem Queued.next {first : BlockId} (h : Queued discovered (first :: queue)) (ids : List BlockId) :
    Queued (discovered ++ undiscovered discovered ids) (queue ++ undiscovered discovered ids) := by
  obtain ⟨-, hqueue⟩ := List.nodup_cons.1 h.nodup
  refine ⟨hqueue.append (undiscovered_nodup _ _) fun other hother hnew => ?_, fun other hother => ?_⟩
  · exact (mem_undiscovered.1 hnew).2 (h.subset (List.mem_cons_of_mem _ hother))
  · rcases List.mem_append.1 hother with hother | hother
    · exact List.mem_append_left _ (h.subset (List.mem_cons_of_mem _ hother))
    · exact List.mem_append_right _ hother

/-- What a search finds is queued already or is new, and nothing is found twice. -/
theorem search_nodup (count : Nat) (h : Queued discovered queue) :
    (g.search count discovered queue).Nodup ∧
      ∀ b ∈ g.search count discovered queue, b ∈ queue ∨ b ∉ discovered := by
  induction count generalizing discovered queue with
  | zero => exact ⟨List.nodup_nil, by simp [search]⟩
  | succ count ih =>
    cases queue with
    | nil => exact ⟨List.nodup_nil, by simp [search]⟩
    | cons first queue =>
      obtain ⟨hnodup, hfound⟩ := ih (h.next (g.successors first))
      have hfirst : first ∈ discovered := h.subset List.mem_cons_self
      rw [search]
      refine ⟨List.nodup_cons.2 ⟨fun hmem => ?_, hnodup⟩, fun b hb => ?_⟩
      · -- the first block has left the queue, and being discovered it does not join it again
        rcases hfound first hmem with hqueued | hnew
        · rcases List.mem_append.1 hqueued with hqueued | hnew
          · exact (List.nodup_cons.1 h.nodup).1 hqueued
          · exact (mem_undiscovered.1 hnew).2 hfirst
        · exact hnew (List.mem_append_left _ hfirst)
      · rcases List.mem_cons.1 hb with rfl | hb
        · exact .inl List.mem_cons_self
        · rcases hfound b hb with hqueued | hnew
          · rcases List.mem_append.1 hqueued with hqueued | hnew
            · exact .inl (List.mem_cons_of_mem _ hqueued)
            · exact .inr (mem_undiscovered.1 hnew).2
          · exact .inr fun hmem => hnew (List.mem_append_left _ hmem)

/-- What a search keeps of its count: it is enough for all blocks that have not left the queue, and
    those that have left it feed only what has been discovered. -/
structure Counted (g : Graph) (count : Nat) (discovered queue : List BlockId) : Prop
    extends Queued discovered queue where
  distinct : discovered.Nodup
  within : discovered ⊆ g.ids
  enough : g.ids.length + queue.length ≤ count + discovered.length
  closed : ∀ a ∈ discovered, a ∉ queue → ∀ b, g.Feeds a b → b ∈ discovered

/-- At the start of a search from a block. -/
theorem counted_start (hid : id ∈ g.ids) : g.Counted g.ids.length [id] [id] where
  nodup := List.nodup_singleton id
  subset := List.Subset.refl _
  distinct := List.nodup_singleton id
  within := by simpa using hid
  enough := Nat.le_refl _
  closed _ ha hleft := absurd ha hleft

theorem Counted.next (h : g.WellFormed) {count : Nat} {first : BlockId}
    (hcounted : g.Counted (count + 1) discovered (first :: queue)) :
    g.Counted count (discovered ++ undiscovered discovered (g.successors first))
      (queue ++ undiscovered discovered (g.successors first)) := by
  have henough := hcounted.enough
  refine
    { toQueued := hcounted.toQueued.next _
      distinct := hcounted.distinct.append (undiscovered_nodup _ _) fun a ha hnew => ?_
      within := List.append_subset.2 ⟨hcounted.within, fun a hnew => ?_⟩
      enough := ?_
      closed := fun a ha hleft b hf => ?_ }
  · exact (mem_undiscovered.1 hnew).2 ha
  · exact h.fed_mem ((mem_successors h).1 (mem_undiscovered.1 hnew).1)
  · rw [List.length_append, List.length_append]
    rw [List.length_cons] at henough
    omega
  · rw [List.mem_append, not_or] at hleft
    have ha : a ∈ discovered := (List.mem_append.1 ha).resolve_right hleft.2
    -- what leaves the queue now feeds what has just been discovered
    by_cases hfirst : a = first
    · subst hfirst
      by_cases hb : b ∈ discovered
      · exact List.mem_append_left _ hb
      · exact List.mem_append_right _ (mem_undiscovered.2 ⟨(mem_successors h).2 hf, hb⟩)
    · refine List.mem_append_left _ (hcounted.closed a ha (fun hmem => ?_) b hf)
      exact hleft.1 ((List.mem_cons.1 hmem).resolve_left hfirst)

/-- When the count is used up, the queue is empty. -/
theorem Counted.queue_eq_nil (h : g.Counted 0 discovered queue) : queue = [] := by
  have hlength := (h.distinct.subperm h.within).length_le
  have henough := h.enough
  exact List.eq_nil_of_length_eq_zero (by omega)

/-- With an empty queue nothing is missing. -/
theorem Counted.feeds_of_nil {count : Nat} (h : g.Counted count discovered [])
    (ha : a ∈ discovered ∨ a ∈ ([] : List BlockId)) (hf : g.Feeds a b) :
    b ∈ discovered ∨ b ∈ ([] : List BlockId) :=
  .inl (h.closed a (ha.resolve_right List.not_mem_nil) List.not_mem_nil b hf)

/-- A search finds its queue, and nothing that has been discovered or found feeds anything else. -/
theorem search_closed (h : g.WellFormed) {count : Nat} (hcounted : g.Counted count discovered queue) :
    queue ⊆ g.search count discovered queue ∧
      ∀ a b, a ∈ discovered ∨ a ∈ g.search count discovered queue → g.Feeds a b →
        b ∈ discovered ∨ b ∈ g.search count discovered queue := by
  -- on the count; what joins the queue now is found by the rest of the search
  induction count generalizing discovered queue with
  | zero =>
    obtain rfl := hcounted.queue_eq_nil
    exact ⟨List.nil_subset _, fun a b => hcounted.feeds_of_nil⟩
  | succ count ih =>
    cases queue with
    | nil => exact ⟨List.nil_subset _, fun a b => hcounted.feeds_of_nil⟩
    | cons first queue =>
      obtain ⟨hqueue, hclosed⟩ := ih (hcounted.next h)
      rw [search]
      refine ⟨List.cons_subset.2 ⟨List.mem_cons_self, fun a ha => ?_⟩, fun a b ha hf => ?_⟩
      · exact List.mem_cons_of_mem _ (hqueue (List.mem_append_left _ ha))
      · have ha : a ∈ discovered ++ undiscovered discovered (g.successors first) ∨
            a ∈ g.search count (discovered ++ undiscovered discovered (g.successors first))
              (queue ++ undiscovered discovered (g.successors first)) := by
          rcases ha with ha | ha
          · exact .inl (List.mem_append_left _ ha)
          · rcases List.mem_cons.1 ha with rfl | ha
            · exact .inl (List.mem_append_left _ (hcounted.subset List.mem_cons_self))
            · exact .inr ha
        rcases hclosed a b ha hf with hb | hb
        · rcases List.mem_append.1 hb with hb | hb
          · exact .inl hb
          · exact .inr (List.mem_cons_of_mem _ (hqueue (List.mem_append_right _ hb)))
        · exact .inr (List.mem_cons_of_mem _ hb)

/-- A search meets each block after the one that feeds it, if the queue does. -/
theorem search_follows (h : g.WellFormed) (count : Nat) {done : List BlockId}
    (hqueue : ∀ id ∈ queue, ∀ feeder, g.Feeds feeder id → feeder ∈ done) :
    g.Follows done (g.search count discovered queue) := by
  induction count generalizing discovered queue done with
  | zero => trivial
  | succ count ih =>
    cases queue with
    | nil => trivial
    | cons first queue =>
      refine ⟨hqueue first List.mem_cons_self, ih fun id hid feeder hf => ?_⟩
      rcases List.mem_append.1 hid with hid | hid
      · exact List.mem_cons_of_mem _ (hqueue id (List.mem_cons_of_mem _ hid) feeder hf)
      · have hfirst := (mem_successors h).1 (mem_undiscovered.1 hid).1
        rw [feeder_unique hf hfirst]
        exact List.mem_cons_self

/-! ## From a block down -/

theorem mem_reachedFrom (h : g.WellFormed) (hid : id ∈ g.ids) :
    b ∈ g.reachedFrom id ↔ Relation.ReflTransGen g.Feeds id b := by
  constructor
  · intro hb
    obtain ⟨a, ha, hr⟩ := reaches_of_mem_search h hb
    rwa [List.mem_singleton.1 ha] at hr
  · intro hr
    obtain ⟨hqueue, hclosed⟩ := search_closed h (counted_start hid)
    -- along the way: nothing that has been found feeds anything else
    induction hr with
    | refl => exact hqueue (List.mem_singleton_self id)
    | tail _ hf ih =>
      rcases hclosed _ _ (.inr ih) hf with hb | hb
      · exact hqueue hb
      · exact hb

/-- The block itself is met first. -/
theorem reachedFrom_eq (h : g.WellFormed) (hid : id ∈ g.ids) :
    ∃ rest, g.reachedFrom id = id :: rest ∧ id ∉ rest ∧ rest.Nodup ∧ g.Follows [id] rest := by
  obtain ⟨count, hcount⟩ := Nat.exists_eq_succ_of_ne_zero (Nat.ne_of_gt (List.length_pos_of_mem hid))
  obtain ⟨hnodup, -⟩ := search_nodup g.ids.length (counted_start hid).toQueued
  rw [hcount] at hnodup
  have hnodup := List.nodup_cons.1 hnodup
  refine ⟨_, by rw [reachedFrom, hcount]; rfl, hnodup.1, hnodup.2, search_follows h count ?_⟩
  intro other hother feeder hf
  have hnew : other ∈ undiscovered [id] (g.successors id) := hother
  rw [feeder_unique hf ((mem_successors h).1 (mem_undiscovered.1 hnew).1)]
  exact List.mem_singleton_self id

/-- What is below a block is what is met after it. -/
theorem downstreamOf_eq (h : g.WellFormed) (hid : id ∈ g.ids) :
    g.reachedFrom id = id :: g.downstreamOf id := by
  obtain ⟨rest, hrest, hnot, -⟩ := reachedFrom_eq h hid
  have hne : ∀ other ∈ rest, other ≠ id := fun other hother hsame => hnot (hsame ▸ hother)
  rw [downstreamOf, if_pos (h.contains_iff.2 hid), hrest, List.filter_cons_of_neg (by simp),
    List.filter_eq_self.2 (by simpa using hne)]

theorem downstreamOf_of_not_mem (h : g.WellFormed) (hid : id ∉ g.ids) : g.downstreamOf id = [] := by
  rw [downstreamOf, if_neg fun hmem => hid (h.contains_iff.1 hmem)]

/-- The blocks listed are those that can be reached. -/
theorem mem_downstreamOf (h : g.WellFormed) : b ∈ g.downstreamOf a ↔ g.Reaches a b := by
  by_cases ha : a ∈ g.ids
  · obtain ⟨rest, hrest, hnot, -⟩ := reachedFrom_eq h ha
    have hsame : g.downstreamOf a = rest :=
      (List.cons.inj ((downstreamOf_eq h ha).symm.trans hrest)).2
    rw [hsame]
    constructor
    · intro hb
      have hr : Relation.ReflTransGen g.Feeds a b :=
        (mem_reachedFrom h ha).1 (hrest ▸ List.mem_cons_of_mem _ hb)
      refine (Relation.reflTransGen_iff_eq_or_transGen.1 hr).resolve_left fun heq => ?_
      exact hnot (heq ▸ hb)
    · intro hr
      have hb := (mem_reachedFrom h ha).2 hr.to_reflTransGen
      rw [hrest] at hb
      exact (List.mem_cons.1 hb).resolve_left (h.reaches_ne hr).symm
  · rw [downstreamOf_of_not_mem h ha]
    constructor
    · intro hb
      cases hb
    · intro hr
      obtain ⟨_, hf, _⟩ := Relation.TransGen.head'_iff.1 hr
      exact absurd (h.feeder_mem hf) ha

theorem downstreamOf_follows (h : g.WellFormed) (id : BlockId) :
    g.Follows [id] (g.downstreamOf id) := by
  by_cases hid : id ∈ g.ids
  · obtain ⟨rest, hrest, -, -, hfollows⟩ := reachedFrom_eq h hid
    rwa [(List.cons.inj ((downstreamOf_eq h hid).symm.trans hrest)).2]
  · rw [downstreamOf_of_not_mem h hid]
    trivial

theorem downstreamOf_nodup (h : g.WellFormed) (id : BlockId) : (g.downstreamOf id).Nodup := by
  by_cases hid : id ∈ g.ids
  · obtain ⟨rest, hrest, -, hnodup, -⟩ := reachedFrom_eq h hid
    rwa [(List.cons.inj ((downstreamOf_eq h hid).symm.trans hrest)).2]
  · rw [downstreamOf_of_not_mem h hid]
    exact List.nodup_nil

/-! ## What the search depends on -/

variable {g' : Graph}

theorem search_congr (hlinks : g'.links = g.links) (count : Nat) (discovered queue : List BlockId) :
    g'.search count discovered queue = g.search count discovered queue := by
  induction count generalizing discovered queue with
  | zero => rfl
  | succ count ih =>
    cases queue with
    | nil => rfl
    | cons id queue =>
      have hsuccessors : g'.successors id = g.successors id := by
        rw [successors, successors, hlinks]
      simp only [search, hsuccessors, ih]

/-- The blocks below a block depend on the order, the connections and what blocks there are. -/
theorem downstreamOf_congr (hids : g'.ids = g.ids) (hlinks : g'.links = g.links)
    (hcontains : g'.contains id = g.contains id) : g'.downstreamOf id = g.downstreamOf id := by
  rw [downstreamOf, downstreamOf, hcontains, reachedFrom, reachedFrom, hids, search_congr hlinks]

end BlockPipeline.Graph

import BlockPipeline.Pipeline.Graph
import Mathlib.Data.List.Nodup
import Mathlib.Data.List.Perm.Subperm
import Mathlib.Logic.Relation

set_option autoImplicit false

/-! # Which block feeds which

`Feeds` is the relation between a block and the blocks that it feeds, read off `inputOf`, and
`Reaches` is its transitive closure. `WellFormed` collects the rules that every edit keeps: the blocks
that are stored are those of the pipeline order, each under its own identifier and once, connections
join blocks that are there, a block has one input at most, a load block has none, and no block reaches
itself. -/

namespace BlockPipeline.Graph

/-- One block is the input of another. -/
def Feeds (g : Graph) (feeder fed : BlockId) : Prop := g.inputOf fed = some feeder

instance (g : Graph) (feeder fed : BlockId) : Decidable (g.Feeds feeder fed) :=
  inferInstanceAs (Decidable (g.inputOf fed = some feeder))

/-- One block can be reached from another by one or more connections. -/
def Reaches (g : Graph) : BlockId → BlockId → Prop := Relation.TransGen g.Feeds

/-- The rules that every edit keeps. -/
structure WellFormed (g : Graph) : Prop where
  keys_nodup : (g.stored.map Prod.fst).Nodup
  /-- The pipeline order lists what is stored, and nothing else. -/
  ids_perm : g.ids.Perm (g.stored.map Prod.fst)
  own_id : ∀ entry ∈ g.stored, entry.2.id = entry.1
  targets_nodup : (g.links.map Connection.target).Nodup
  ends_mem : ∀ link ∈ g.links, link.source ∈ g.ids ∧ link.target ∈ g.ids
  target_kind : ∀ link ∈ g.links, ∀ block, g.find? link.target = some block →
    block.kind.isSource = false
  acyclic : ∀ id, ¬ g.Reaches id id

variable {g g' : Graph} {id a b : BlockId} {block : Block}

/-! ## Blocks by identifier -/

theorem get_eq_ok_iff : g.get id = .ok block ↔ g.find? id = some block := by
  unfold get
  split <;> simp_all

namespace WellFormed

theorem ids_nodup (h : g.WellFormed) : g.ids.Nodup := h.ids_perm.nodup_iff.2 h.keys_nodup

theorem mem_ids_iff (h : g.WellFormed) : id ∈ g.ids ↔ ∃ block, g.find? id = some block := by
  rw [h.ids_perm.mem_iff, Assoc.mem_keys_iff]
  rfl

theorem contains_iff (h : g.WellFormed) : g.contains id = true ↔ id ∈ g.ids := by
  rw [contains, Option.isSome_iff_exists, h.mem_ids_iff]

/-- The block found under an identifier bears it. -/
theorem id_of_find? (h : g.WellFormed) (hfind : g.find? id = some block) : block.id = id :=
  h.own_id _ (Assoc.mem_of_find? hfind)

theorem find?_eq_some_iff (h : g.WellFormed) : g.find? id = some block ↔ (id, block) ∈ g.stored :=
  Assoc.find?_eq_some_iff h.keys_nodup

theorem mem_blocks_iff (h : g.WellFormed) : block ∈ g.blocks ↔ g.find? block.id = some block := by
  rw [blocks, List.mem_filterMap]
  constructor
  · rintro ⟨id, -, hfind⟩
    rwa [h.id_of_find? hfind]
  · intro hfind
    exact ⟨block.id, h.mem_ids_iff.2 ⟨block, hfind⟩, hfind⟩

/-- The blocks in pipeline order bear the identifiers in pipeline order. -/
theorem map_id_blocks (h : g.WellFormed) : g.blocks.map Block.id = g.ids := by
  rw [blocks, List.map_filterMap]
  refine (List.filterMap_congr fun id hid => ?_).trans List.filterMap_some
  obtain ⟨block, hfind⟩ := h.mem_ids_iff.1 hid
  rw [hfind, Option.map_some, h.id_of_find? hfind]

end WellFormed

/-! ## Connections -/

theorem link_of_feeds (h : g.Feeds a b) : ⟨a, b⟩ ∈ g.links := by
  obtain ⟨link, hfind, hsource⟩ := Option.map_eq_some_iff.1 h
  have htarget : link.target = b := by simpa using List.find?_some hfind
  subst hsource htarget
  exact List.mem_of_find?_eq_some hfind

/-- With one connection into a block at most, the first one found is the only one. -/
theorem feeds_iff_link (h : (g.links.map Connection.target).Nodup) :
    g.Feeds a b ↔ ⟨a, b⟩ ∈ g.links := by
  refine ⟨link_of_feeds, fun hmem => ?_⟩
  have hsome : (g.links.find? (·.target == b)).isSome := by
    rw [List.find?_isSome]
    exact ⟨_, hmem, by simp⟩
  obtain ⟨link, hfind⟩ := Option.isSome_iff_exists.1 hsome
  have htarget : link.target = b := by simpa using List.find?_some hfind
  have hsame : link = ⟨a, b⟩ :=
    List.inj_on_of_nodup_map h (List.mem_of_find?_eq_some hfind) hmem htarget
  simp only [Feeds, inputOf, hfind, hsame, Option.map_some]

/-- A block has one input at most. -/
theorem feeder_unique {c : BlockId} (ha : g.Feeds a c) (hb : g.Feeds b c) : a = b :=
  Option.some.inj (ha.symm.trans hb)

/-- The ways to a block from blocks that nothing feeds begin with the same block. -/
theorem top_unique (ha : Relation.ReflTransGen g.Feeds a id) (hb : Relation.ReflTransGen g.Feeds b id)
    (hnota : ∀ feeder, ¬ g.Feeds feeder a) (hnotb : ∀ feeder, ¬ g.Feeds feeder b) : a = b := by
  -- back along the first way; both come from the only feeder of each block
  induction ha with
  | refl =>
    rcases hb.cases_tail with hsame | ⟨c, -, hf⟩
    · exact hsame
    · exact absurd hf (hnota c)
  | tail _ hf ih =>
    rcases hb.cases_tail with rfl | ⟨c, hbc, hf'⟩
    · exact absurd hf (hnotb _)
    · rw [feeder_unique hf' hf] at hbc
      exact ih hbc

theorem feeds_of_links_eq (h : g'.links = g.links) : g'.Feeds = g.Feeds := by
  funext a b
  simp only [Feeds, inputOf, h]

/-- Fewer connections make no new cycles. -/
theorem acyclic_of_feeds_imp (himp : ∀ a b, g'.Feeds a b → g.Feeds a b)
    (h : ∀ id, ¬ g.Reaches id id) : ∀ id, ¬ g'.Reaches id id :=
  fun id hcycle => h id (Relation.TransGen.mono himp _ _ hcycle)

namespace WellFormed

theorem feeds_iff (h : g.WellFormed) : g.Feeds a b ↔ ⟨a, b⟩ ∈ g.links :=
  feeds_iff_link h.targets_nodup

theorem feeder_mem (h : g.WellFormed) (hf : g.Feeds a b) : a ∈ g.ids :=
  (h.ends_mem _ (link_of_feeds hf)).1

theorem fed_mem (h : g.WellFormed) (hf : g.Feeds a b) : b ∈ g.ids :=
  (h.ends_mem _ (link_of_feeds hf)).2

theorem fed_kind (h : g.WellFormed) (hf : g.Feeds a b) (hfind : g.find? b = some block) :
    block.kind.isSource = false :=
  h.target_kind _ (link_of_feeds hf) block hfind

theorem reaches_ne (h : g.WellFormed) (hr : g.Reaches a b) : a ≠ b := by
  rintro rfl
  exact h.acyclic a hr

end WellFormed

end BlockPipeline.Graph

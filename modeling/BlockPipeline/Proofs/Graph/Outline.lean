import BlockPipeline.Pipeline.Plan
import BlockPipeline.Proofs.Graph.Editing

set_option autoImplicit false

/-! # What runs leave alone

Runs change how blocks went: status, output table and staleness. The rest of a graph is its
`outline`. The rules on graphs depend on the outline only; orders, definitions and plans depend on
less, and are the same for graphs that are `Alike`. This module says so for each, and how blocks are
found in a graph of which one block was changed. -/

namespace BlockPipeline

/-- What of a block no run changes. -/
def Block.outline (block : Block) : BlockDefinition := ⟨block.id, some block.label, block.config⟩

namespace Graph

/-- What of a graph no run changes. -/
def outline (g : Graph) : List (BlockId × BlockDefinition) × List BlockId × List Connection :=
  (Assoc.mapValues Block.outline g.stored, g.ids, g.links)

variable {g g' : Graph} {id other : BlockId} {block : Block}

/-! ## Changes of one block -/

theorem find?_modify (change : Block → Block) :
    (g.modify id change).find? other =
      (g.find? other).map fun block => if other = id then change block else block :=
  Assoc.find?_modify id other change g.stored

theorem find?_modify_self {change : Block → Block} (hfind : g.find? id = some block) :
    (g.modify id change).find? id = some (change block) := by
  rw [find?_modify, hfind, Option.map_some, if_pos rfl]

theorem find?_modify_of_ne {change : Block → Block} (hne : other ≠ id) :
    (g.modify id change).find? other = g.find? other := by
  rw [find?_modify]
  simp only [if_neg hne, Option.map_id']

theorem modify_modify (first second : Block → Block) :
    (g.modify id first).modify id second = g.modify id (second ∘ first) := by
  rw [modify, modify, Assoc.modify_modify]
  rfl

theorem outline_modify {change : Block → Block}
    (houtline : ∀ block, (change block).outline = block.outline) :
    (g.modify id change).outline = g.outline := by
  unfold outline modify Assoc.mapValues Assoc.modify
  rw [List.map_map]
  congr 1
  refine List.map_congr_left fun entry _ => ?_
  rw [Function.comp_apply]
  split
  · rw [houtline]
  · rfl

/-! ## What depends on the outline only -/

theorem ids_of_outline (h : g'.outline = g.outline) : g'.ids = g.ids :=
  congrArg (Prod.fst ∘ Prod.snd) h

theorem links_of_outline (h : g'.outline = g.outline) : g'.links = g.links :=
  congrArg (Prod.snd ∘ Prod.snd) h

theorem find?_of_outline (h : g'.outline = g.outline) (id : BlockId) :
    (g'.find? id).map Block.outline = (g.find? id).map Block.outline := by
  have hstored : Assoc.mapValues Block.outline g'.stored = Assoc.mapValues Block.outline g.stored :=
    congrArg Prod.fst h
  rw [find?, find?, ← Assoc.find?_mapValues, ← Assoc.find?_mapValues, hstored]

theorem inputOf_of_outline (h : g'.outline = g.outline) : g'.inputOf = g.inputOf := by
  funext id
  rw [inputOf, inputOf, links_of_outline h]

theorem feeds_of_outline (h : g'.outline = g.outline) : g'.Feeds = g.Feeds :=
  feeds_of_links_eq (links_of_outline h)

theorem WellFormed.of_outline (hwf : g.WellFormed) (h : g'.outline = g.outline) : g'.WellFormed := by
  have hsig : ∀ g : Graph, Assoc.mapValues Block.signature g.stored =
      Assoc.mapValues (fun stored => (stored.id, stored.config.kind))
        (Assoc.mapValues Block.outline g.stored) := fun g => by
    rw [Assoc.mapValues_mapValues]
    rfl
  have hstored : Assoc.mapValues Block.outline g'.stored = Assoc.mapValues Block.outline g.stored :=
    congrArg Prod.fst h
  refine hwf.of_signatures ?_ (ids_of_outline h) (links_of_outline h)
  rw [hsig, hsig, hstored]

/-! ## What depends on even less -/

/-- The graphs have the same blocks in the same order with the same inputs, however they went and in
    whatever order they were connected. -/
structure Alike (g' g : Graph) : Prop where
  ids : g'.ids = g.ids
  inputOf : g'.inputOf = g.inputOf
  outlines : ∀ id, (g'.find? id).map Block.outline = (g.find? id).map Block.outline

theorem alike_of_outline (h : g'.outline = g.outline) : g'.Alike g :=
  ⟨ids_of_outline h, inputOf_of_outline h, find?_of_outline h⟩

namespace Alike

theorem blocks (h : g'.Alike g) : g'.blocks.map Block.outline = g.blocks.map Block.outline := by
  rw [Graph.blocks, Graph.blocks, List.map_filterMap, List.map_filterMap, h.ids]
  exact List.filterMap_congr fun id _ => h.outlines id

theorem connections (h : g'.Alike g) : g'.connections = g.connections := by
  rw [Graph.connections, Graph.connections, h.ids, h.inputOf]

theorem chain (h : g'.Alike g) : g'.chain = g.chain := by
  have hclimb : ∀ steps id, g'.climb steps id = g.climb steps id := by
    intro steps
    induction steps with
    | zero => intro id; rfl
    | succ steps ih => intro id; rw [climb, climb, h.inputOf]; simp only [ih]
  funext id
  rw [Graph.chain, Graph.chain, h.ids, hclimb]

theorem topologicalOrder (h : g'.Alike g) : g'.topologicalOrder = g.topologicalOrder := by
  have hextend : g'.extendOrder = g.extendOrder := by
    funext ordered id
    rw [extendOrder, extendOrder, h.chain]
  rw [Graph.topologicalOrder, Graph.topologicalOrder, h.ids, hextend]

end Alike

theorem blocks_of_outline (h : g'.outline = g.outline) :
    g'.blocks.map Block.outline = g.blocks.map Block.outline := (alike_of_outline h).blocks

end Graph

variable {g g' : Graph}

theorem Block.kind_of_outline {block block' : Block} (h : block'.outline = block.outline) :
    block'.kind = block.kind := congrArg (BlockConfig.kind ∘ BlockDefinition.config) h

theorem Block.targetTable_of_outline {block block' : Block} (h : block'.outline = block.outline) :
    block'.targetTable = block.targetTable := by
  obtain ⟨hid, _, hconfig⟩ := BlockDefinition.mk.inj h
  rw [Block.targetTable, Block.targetTable, hid, hconfig]

theorem Block.targetTable_of_ne_load {block : Block} (h : block.kind ≠ .load) :
    block.targetTable = .derived block.id := by
  unfold targetTable
  split
  · next load hconfig => exact absurd (congrArg BlockConfig.kind hconfig) h
  · rfl

theorem Plan.entry_of_alike (h : g'.Alike g) {block block' : Block}
    (hblock : block'.outline = block.outline) (plan : Plan) :
    plan.entry g' block' = plan.entry g block := by
  obtain ⟨hid, _, hconfig⟩ := BlockDefinition.mk.inj hblock
  rw [Plan.entry, Plan.entry, Block.targetTable_of_outline hblock, h.inputOf, Block.kind, Block.kind,
    hid, hconfig]

theorem Plan.ofGraph_of_alike (h : g'.Alike g) : Plan.ofGraph g' = Plan.ofGraph g := by
  have hextend : Plan.extend g' = Plan.extend g := by
    funext plan id
    have hfind := h.outlines id
    rw [Plan.extend, Plan.extend]
    cases hold : g.find? id with
    | none =>
      rw [hold, Option.map_none, Option.map_eq_none_iff] at hfind
      rw [hfind]
    | some block =>
      rw [hold, Option.map_some, Option.map_eq_some_iff] at hfind
      obtain ⟨block', hnew, hblock⟩ := hfind
      rw [hnew]
      simp only [Plan.entry_of_alike h hblock]
  rw [Plan.ofGraph, Plan.ofGraph, h.topologicalOrder, hextend]

theorem Definition.ofGraph_of_alike (h : g'.Alike g) (metadata : Metadata) :
    Definition.ofGraph g' metadata = Definition.ofGraph g metadata := by
  have hstored : ∀ g : Graph, Definition.ofGraph g metadata =
      ⟨metadata, g.blocks.map Block.outline, g.connections⟩ := fun _ => rfl
  rw [hstored, hstored, h.blocks, h.connections]

/-- A plan does not depend on what has run. -/
theorem Plan.ofGraph_of_outline (h : g'.outline = g.outline) : Plan.ofGraph g' = Plan.ofGraph g :=
  Plan.ofGraph_of_alike (Graph.alike_of_outline h)

theorem Definition.ofGraph_of_outline (h : g'.outline = g.outline) (metadata : Metadata) :
    Definition.ofGraph g' metadata = Definition.ofGraph g metadata :=
  Definition.ofGraph_of_alike (Graph.alike_of_outline h) metadata

end BlockPipeline

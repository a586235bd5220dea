import BlockPipeline.Pipeline.Graph

set_option autoImplicit false

/-! # Orders on a graph

The blocks below a block, the nearest first, and all blocks in an order in which each comes after the
block that feeds it. -/

namespace BlockPipeline.Graph

/-- All blocks that can be reached from a block, the nearest first. -/
def downstreamOf (g : Graph) (id : BlockId) : List BlockId :=
  if g.contains id then (g.reachedFrom id).filter (· ≠ id) else []

/-- The blocks behind a block in pipeline order. -/
def blocksAfter (g : Graph) (id : BlockId) : List BlockId :=
  match g.position? id with
  | some place => g.ids.drop (place + 1)
  | none => []

/-- The first blocks on the way back along the connections, beginning with the block itself. -/
def climb (g : Graph) : Nat → BlockId → List BlockId
  | 0, _ => []
  | steps + 1, id =>
    id :: match g.inputOf id with
      | some feeder => g.climb steps feeder
      | none => []

/-- All blocks on the way back along the connections, beginning with the block itself. No way is
    longer than there are blocks. -/
def chain (g : Graph) (id : BlockId) : List BlockId := g.climb g.ids.length id

/-- Puts a block behind those already in order, and before it whatever feeds it. -/
def extendOrder (g : Graph) (ordered : List BlockId) (id : BlockId) : List BlockId :=
  ordered ++ ((g.chain id).takeWhile (· ∉ ordered)).reverse

/-- All blocks, each after the one that feeds it. Blocks that are not connected keep their order. -/
def topologicalOrder (g : Graph) : List BlockId := g.ids.foldl g.extendOrder []

end BlockPipeline.Graph

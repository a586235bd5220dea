import BlockPipeline.Lookup
import BlockPipeline.Pipeline.Traversal

set_option autoImplicit false

/-! # Staleness

When a configuration changes, the results of other blocks may be out of date. A policy says of which
ones that is assumed. -/

namespace BlockPipeline

/-- Which blocks an edit makes stale. -/
inductive StalenessPolicy where
  /-- Those behind the edited block in pipeline order. -/
  | position
  /-- Those that can be reached from the edited block. -/
  | reachability
  deriving DecidableEq, Repr, Inhabited

namespace StalenessPolicy

instance : Named StalenessPolicy where
  all := [.position, .reachability]
  name
    | .position => "position"
    | .reachability => "reachability"

/-- The blocks that an edit of the block makes stale. -/
def affected (policy : StalenessPolicy) (g : Graph) (id : BlockId) : List BlockId :=
  match policy with
  | .position => g.blocksAfter id
  | .reachability => g.downstreamOf id

end StalenessPolicy

/-- Marks blocks as stale. -/
def Graph.markStale (g : Graph) (ids : List BlockId) : Graph :=
  ids.foldl (fun g id => g.modify id Block.markStale) g

end BlockPipeline

import BlockPipeline.Engine.Scripted
import BlockPipeline.Proofs.Graph.Assembly

set_option autoImplicit false

/-! # Pipelines that are stored and restored

A definition lists the connections of a graph in pipeline order of their targets, whatever the order in
which they were made. Still none of them is refused when the graph is restored. The connections made so
far are some of those of the stored graph (`Restores`), so one more of these leads into a block that has
no input yet, and closes no cycle. What is restored is the stored graph without what its runs have left
(`toGraph_ofGraph`). -/

namespace BlockPipeline

/-- The block as it was before it ever ran. -/
def Block.unrun (block : Block) : Block :=
  { Block.ofConfig block.id block.config with label := block.label }

theorem Block.unrun_unrun (block : Block) : block.unrun.Unrun := ⟨rfl, rfl, rfl⟩

variable {g g' : Graph} {blocks : List Block} {made more : List Connection}
  {link : Connection}

namespace Graph

/-! ## Blocks -/

/-- The graph has these blocks in this order, and none of them has run or is connected. -/
structure Holds (g : Graph) (blocks : List Block) : Prop where
  wellFormed : g.WellFormed
  ids : g.ids = blocks.map Block.id
  links : g.links = []
  found : ∀ block ∈ blocks, g.find? block.id = some block.unrun

/-- What is made of stored blocks has not run. -/
theorem Lists.holds (h : g.Lists (blocks.map Block.outline)) : g.Holds blocks where
  wellFormed := h.wellFormed
  ids := by
    rw [h.ids, List.map_map]
    rfl
  links := h.links
  found block hblock := h.found block.outline (List.mem_map_of_mem hblock)

/-! ## Connections -/

/-- Of a well-formed graph all blocks have been restored, and these of its connections. -/
structure Restores (g' g : Graph) (made : List Connection) : Prop where
  wellFormed : g'.WellFormed
  ids : g'.ids = g.ids
  found : ∀ id, g'.find? id = (g.find? id).map Block.unrun
  links : g'.links = made.reverse

theorem Holds.restores (h : g'.Holds g.blocks) (hwf : g.WellFormed) : g'.Restores g [] := by
  have hids : g'.ids = g.ids := h.ids.trans hwf.map_id_blocks
  refine ⟨h.wellFormed, hids, fun id => ?_, h.links⟩
  cases hfind : g.find? id with
  | none =>
    refine h.wellFormed.find?_eq_none fun hid => ?_
    obtain ⟨block, hblock⟩ := hwf.mem_ids_iff.1 (hids ▸ hid)
    rw [hfind] at hblock
    cases hblock
  | some block =>
    obtain rfl := hwf.id_of_find? hfind
    exact h.found block (hwf.mem_blocks_iff.2 hfind)

/-- A connection of the stored graph is not refused, unless one into the same block has been made. -/
theorem Restores.connect (h : g'.Restores g made) (hwf : g.WellFormed)
    (hmade : ∀ link ∈ made, g.Feeds link.source link.target)
    (hf : g.Feeds link.source link.target) (hnew : link.target ∉ made.map Connection.target) :
    ∃ g'' replaced, g'.connect link.source link.target = .ok (g'', replaced) ∧
      g''.Restores g (made ++ [link]) := by
  have himp : ∀ a b, g'.Feeds a b → g.Feeds a b := fun a b hfeeds => by
    have hlink := link_of_feeds hfeeds
    rw [h.links, List.mem_reverse] at hlink
    exact hmade _ hlink
  have hjoin : g'.Joins link :=
    { source_mem := h.ids ▸ hwf.feeder_mem hf
      target_mem := h.ids ▸ hwf.fed_mem hf
      not_load := fun block htarget => by
        obtain ⟨stored, hstored, rfl⟩ := Option.map_eq_some_iff.1 ((h.found _).symm.trans htarget)
        have hfed : stored.kind.isSource = false := hwf.fed_kind hf hstored
        exact BlockKind.isSource_eq_false_iff.1 hfed }
  -- there is no cycle in the stored graph, and only its connections have been made
  have hable := hjoin.connectable h.wellFormed hwf.acyclic himp hf
  have hunfed : link.target ∉ g'.links.map Connection.target := by
    rw [h.links, List.map_reverse, List.mem_reverse]
    exact hnew
  have hconnect := connect_of_connectable h.wellFormed hable
  rw [if_neg fun hfeeds => hunfed (List.mem_map_of_mem (link_of_feeds hfeeds))] at hconnect
  refine ⟨g'.link link.source link.target, _, hconnect, ?_⟩
  refine ⟨h.wellFormed.connect hconnect, h.ids, h.found, ?_⟩
  have hall : g'.links.filter (·.target ≠ link.target) = g'.links :=
    List.filter_eq_self.2 fun other hother => decide_eq_true fun hsame =>
      hunfed (hsame ▸ List.mem_map_of_mem hother)
  show link :: g'.links.filter (·.target ≠ link.target) = _
  rw [hall, h.links, List.reverse_append]
  rfl

/-- All connections of the stored graph can be made again in pipeline order of their targets. -/
theorem Restores.connectAll (h : g'.Restores g made) (hwf : g.WellFormed)
    (hsplit : g.connections = made ++ more) :
    ∃ g'', g'.connectAll more = .ok g'' ∧ g''.Restores g g.connections := by
  induction more generalizing g' made with
  | nil =>
    rw [List.append_nil] at hsplit
    exact ⟨g', rfl, hsplit ▸ h⟩
  | cons link more ih =>
    have hfeeds : ∀ other ∈ made ++ link :: more, g.Feeds other.source other.target :=
      fun other hother => (mem_connections hwf).1 (hsplit ▸ hother)
    have htargets : ((made ++ link :: more).map Connection.target).Nodup :=
      hsplit ▸ ((connections_perm hwf).map Connection.target).nodup_iff.2 hwf.targets_nodup
    have hnew : link.target ∉ made.map Connection.target := fun hmem => by
      rw [List.map_append, List.map_cons] at htargets
      exact (List.disjoint_of_nodup_append htargets) hmem List.mem_cons_self
    obtain ⟨next, replaced, hnext, hrestores⟩ := h.connect hwf
      (fun other hother => hfeeds other (List.mem_append_left _ hother))
      (hfeeds link (List.mem_append_right _ List.mem_cons_self)) hnew
    obtain ⟨g'', hrest, hall⟩ := ih hrestores (hsplit.trans (List.append_cons made link more))
    exact ⟨g'', connectAll_cons_eq_ok_iff.2 ⟨next, replaced, hnext, hrest⟩, hall⟩

/-- A graph with all connections restored is the stored one, but for what has run. -/
theorem Restores.alike (h : g'.Restores g g.connections) (hwf : g.WellFormed) : g'.Alike g where
  ids := h.ids
  inputOf := by
    funext target
    refine Option.ext fun source => ?_
    show g'.Feeds source target ↔ g.Feeds source target
    rw [h.wellFormed.feeds_iff, h.links, List.mem_reverse, mem_connections hwf]
  outlines id := by
    rw [h.found, Option.map_map]
    rfl

theorem Restores.unrun (h : g'.Restores g made) : g'.Unrun := by
  intro id block hfind
  obtain ⟨stored, -, rfl⟩ := Option.map_eq_some_iff.1 ((h.found id).symm.trans hfind)
  exact stored.unrun_unrun

/-- What a graph is when it is restored from its definition. -/
structure Restored (g g' : Graph) : Prop where
  ids : g'.ids = g.ids
  /-- The labels and configurations of the blocks, in pipeline order. -/
  blocks : g'.blocks.map Block.outline = g.blocks.map Block.outline
  connections : g'.connections = g.connections
  plan : Plan.ofGraph g' = Plan.ofGraph g
  /-- No block has run, and none is stale. -/
  unrun : g'.Unrun

end Graph

namespace Definition

/-- A well-formed graph can be restored from its definition, but for what has run. -/
theorem exists_alike (hwf : g.WellFormed) (metadata : Metadata) :
    ∃ g', (ofGraph g metadata).toGraph = .ok g' ∧ g'.Alike g ∧ g'.Unrun := by
  have hnodup : (([] ++ g.blocks.map Block.outline).map BlockDefinition.id).Nodup := by
    rw [List.nil_append, List.map_map]
    exact hwf.map_id_blocks ▸ hwf.ids_nodup
  obtain ⟨unlinked, hblocks, hlists⟩ := Graph.lists_empty.addBlocks hnodup
  obtain ⟨g', hconnections, hrestores⟩ :=
    (hlists.holds.restores hwf).connectAll hwf (List.nil_append _).symm
  exact ⟨g', bind_eq_ok_iff.2 ⟨unlinked, hblocks, hconnections⟩, hrestores.alike hwf, hrestores.unrun⟩

/-- A well-formed graph has the same definition when it has been restored from its definition. -/
theorem exists_restored (hwf : g.WellFormed) (metadata : Metadata) :
    ∃ g', (ofGraph g metadata).toGraph = .ok g' ∧ g.Restored g' ∧
      ofGraph g' metadata = ofGraph g metadata := by
  obtain ⟨g', hgraph, halike, hunrun⟩ := exists_alike hwf metadata
  have hrestored : g.Restored g' :=
    ⟨halike.ids, halike.blocks, halike.connections, Plan.ofGraph_of_alike halike, hunrun⟩
  exact ⟨g', hgraph, hrestored, ofGraph_of_alike halike metadata⟩

/-- The definition of the graph that a definition makes. -/
def captured (definition : Definition) : Except PipelineError Definition :=
  (ofGraph · definition.metadata) <$> definition.toGraph

/-- Whatever edits and runs have led to a graph, it can be restored from its definition. It has then the
    same blocks, connections and plan and the same definition, and nothing of it has run. So what is
    captured of any definition is captured of itself. -/
theorem toGraph_ofGraph :
    (∀ g : Graph, g.Reachable ∨ (∃ s : Session, s.Reachable ∧ s.graph = g) →
      ∀ metadata, ∃ g', (ofGraph g metadata).toGraph = .ok g' ∧ g.Restored g' ∧
        ofGraph g' metadata = ofGraph g metadata) ∧
      ∀ definition stored : Definition, definition.captured = .ok stored →
        stored.captured = .ok stored := by
  constructor
  · rintro g (hreach | ⟨s, hreach, rfl⟩) metadata
    · exact exists_restored hreach.wellFormed metadata
    · exact exists_restored hreach.wellFormed metadata
  · intro definition stored hcaptured
    obtain ⟨g, hgraph, rfl⟩ := map_eq_ok_iff.1 hcaptured
    obtain ⟨g', hrestored, -, hsame⟩ :=
      exists_restored (Session.wellFormed_toGraph hgraph) definition.metadata
    exact map_eq_ok_iff.2 ⟨g', hrestored, hsame⟩

/-- The second filter is moved to the front and connected anew, so its connection is stored first,
    although it was made last. Both filters have run, and have become stale since. -/
theorem restored_after_rewiring :
    let load : BlockId := ⟨1⟩
    let first : BlockId := ⟨2⟩
    let second : BlockId := ⟨3⟩
    let filter := BlockConfig.filter { column := "amount", value := some (.text "7") }
    let edited := [Session.Edit.addConfig load (.load { tableName := "orders" }),
      .addConfig first filter, .duplicate first second, .connect load second, .connect load first,
      .move second 0, .connect first second, .rename load "Orders"].foldl Session.Edit.apply .empty
    let ran := (Scripted.engine.runAll {} edited ⟨[], [], []⟩).session
    let s := (Session.Edit.setConfig load (.load { tableName := "people" })).apply
      ((Session.Edit.setPolicy .reachability).apply ran)
    s.Reachable ∧ s.graph.ids = [second, load, first] ∧
      (s.graph.blocks.map Block.isStale = [true, false, true]) ∧
      (ofGraph s.graph {}).connections = [⟨first, second⟩, ⟨load, first⟩] ∧
      ∃ g', (ofGraph s.graph {}).toGraph = .ok g' ∧ s.graph.Restored g' ∧
        ofGraph g' {} = ofGraph s.graph {} := by
  intro load first second filter edited ran s
  have hreach : s.Reachable := .edit _ (.edit _ (.runAll _ _ _ (.edits .empty (by decide +kernel)))
    (by decide +kernel)) (by decide +kernel)
  exact ⟨hreach, by decide +kernel, by decide +kernel, by decide +kernel,
    toGraph_ofGraph.1 s.graph (.inr ⟨s, hreach, rfl⟩) {}⟩

end Definition

end BlockPipeline

import BlockPipeline.Proofs.Graph.Connecting
import BlockPipeline.Proofs.Session.Changes

set_option autoImplicit false

/-! # Graphs that are made of definitions

A definition is put together block by block and then connection by connection, each connection taking
the place of a former one into its target. So the last one listed into a block holds
(`Joined.inputOf`). Where no two of them lead into one block, the connections made on the way are some
of those listed; if these make no cycle, none is refused, whatever their order (`exists_connectAll`). -/

namespace BlockPipeline

variable {g g' : Graph} {id a b : BlockId} {stored : BlockDefinition}
  {blocks done rest : List BlockDefinition} {links : List Connection}

/-! ## Blocks -/

/-- The block that is made of a stored one. -/
def BlockDefinition.made (stored : BlockDefinition) : Block :=
  { Block.ofConfig stored.id stored.config with
    label := stored.label.getD stored.config.kind.defaultLabel }

namespace Graph

/-- A stored block is added under its own identifier and with its own label. -/
theorem addBlock_of_new (h : g.WellFormed) (hnew : stored.id ∉ g.ids) :
    Definition.addBlock g stored = .ok (g.add stored.made) := by
  have hadd : g.addConfig stored.id stored.config = .ok (g.add (.ofConfig stored.id stored.config)) :=
    if_neg (mt h.contains_iff.1 hnew)
  refine bind_eq_ok_iff.2 ⟨_, hadd, ?_⟩
  rw [BlockDefinition.made]
  cases stored.label with
  | none => rfl
  | some label =>
    refine rename_eq_ok_iff.2 ⟨_, (find?_add g _ stored.id).trans (if_pos rfl), ?_⟩
    have hkey : stored.id ∉ g.stored.map Prod.fst := mt h.ids_perm.mem_iff.2 hnew
    have hstored := Assoc.modify_insert hkey (fun block : Block => { block with label })
      (.ofConfig stored.id stored.config)
    exact congrArg (fun entries : List (BlockId × Block) =>
      ({ g with stored := entries, ids := g.ids ++ [stored.id] } : Graph)) hstored.symm

theorem not_mem_of_addBlock (h : g.WellFormed) (hadd : Definition.addBlock g stored = .ok g') :
    stored.id ∉ g.ids := by
  intro hid
  obtain ⟨_, hconfig, -⟩ := bind_eq_ok_iff.1 hadd
  rw [addConfig, if_pos (h.contains_iff.2 hid)] at hconfig
  cases hconfig

/-- The graph consists of what is made of these blocks, in this order, and has no connections. -/
structure Lists (g : Graph) (blocks : List BlockDefinition) : Prop where
  wellFormed : g.WellFormed
  ids : g.ids = blocks.map BlockDefinition.id
  links : g.links = []
  found : ∀ stored ∈ blocks, g.find? stored.id = some stored.made

theorem lists_empty : Graph.empty.Lists [] := ⟨wellFormed_empty, rfl, rfl, by simp⟩

theorem Lists.add (h : g.Lists blocks) (hnew : stored.id ∉ g.ids) :
    (g.add stored.made).Lists (blocks ++ [stored]) where
  wellFormed := h.wellFormed.add hnew
  ids := by
    show g.ids ++ [stored.id] = _
    rw [h.ids, List.map_append, List.map_singleton]
  links := h.links
  found other hother := by
    rw [find?_add]
    rcases List.mem_append.1 hother with hother | hother
    · have hne : other.id ≠ stored.id := by
        intro hsame
        rw [h.ids] at hnew
        exact hnew (hsame ▸ List.mem_map_of_mem hother)
      exact (if_neg hne).trans (h.found other hother)
    · rw [List.mem_singleton.1 hother]
      exact if_pos rfl

/-- Blocks with identifiers of their own are all added. -/
theorem Lists.addBlocks (h : g.Lists done) (hnodup : ((done ++ rest).map BlockDefinition.id).Nodup) :
    ∃ g', rest.foldlM Definition.addBlock g = .ok g' ∧ g'.Lists (done ++ rest) := by
  induction rest generalizing g done with
  | nil => exact ⟨g, rfl, by rwa [List.append_nil]⟩
  | cons stored rest ih =>
    have hnew : stored.id ∉ g.ids := fun hmem => by
      rw [List.map_append, List.map_cons] at hnodup
      exact (List.disjoint_of_nodup_append hnodup) (h.ids ▸ hmem) List.mem_cons_self
    rw [List.append_cons] at hnodup ⊢
    obtain ⟨g', hrest, hlists⟩ := ih (h.add hnew) hnodup
    refine ⟨g', ?_, hlists⟩
    rw [List.foldlM_cons, addBlock_of_new h.wellFormed hnew]
    exact hrest

/-- Only such blocks are. -/
theorem Lists.of_addBlocks (h : g.Lists done) (hadd : rest.foldlM Definition.addBlock g = .ok g') :
    g'.Lists (done ++ rest) := by
  induction rest generalizing g done with
  | nil =>
    obtain rfl := Except.ok.inj hadd
    rwa [List.append_nil]
  | cons stored rest ih =>
    rw [List.foldlM_cons] at hadd
    obtain ⟨next, hnext, hrest⟩ := bind_eq_ok_iff.1 hadd
    have hnew := not_mem_of_addBlock h.wellFormed hnext
    rw [addBlock_of_new h.wellFormed hnew] at hnext
    obtain rfl := Except.ok.inj hnext
    rw [List.append_cons]
    exact ih (h.add hnew) hrest

theorem Lists.ids_nodup (h : g.Lists blocks) : (blocks.map BlockDefinition.id).Nodup :=
  h.ids ▸ h.wellFormed.ids_nodup

theorem Lists.inputOf (h : g.Lists blocks) (id : BlockId) : g.inputOf id = none := by
  rw [Graph.inputOf, h.links]
  rfl

end Graph

/-! ## Connections -/

namespace Connection

/-- The source of the last connection listed into a block. -/
def lastSource? (links : List Connection) (target : BlockId) : Option BlockId :=
  (links.filter (·.target = target)).getLast?.map source

/-- No two different connections lead into one block. -/
def OneInput (links : List Connection) : Prop :=
  ∀ link ∈ links, ∀ other ∈ links, link.target = other.target → link = other

instance (links : List Connection) : Decidable (OneInput links) :=
  inferInstanceAs (Decidable (∀ link ∈ links, ∀ other ∈ links,
    link.target = other.target → link = other))

theorem lastSource?_cons (link : Connection) (links : List Connection) (target : BlockId) :
    lastSource? (link :: links) target =
      (lastSource? links target).or (if target = link.target then some link.source else none) := by
  unfold lastSource?
  by_cases hsame : link.target = target
  · rw [List.filter_cons_of_pos (by simpa using hsame), if_pos hsame.symm, List.getLast?_cons]
    cases (links.filter (·.target = target)).getLast? with
    | none => rfl
    | some last => rfl
  · rw [List.filter_cons_of_neg (by simpa using hsame), if_neg (Ne.symm hsame), Option.or_none]

theorem lastSource?_eq_some_iff (hone : OneInput links) :
    lastSource? links b = some a ↔ ⟨a, b⟩ ∈ links := by
  have hmem : ∀ link, (links.filter (·.target = b)).getLast? = some link →
      link ∈ links ∧ link.target = b := by
    intro link hlast
    simpa using List.mem_of_getLast? hlast
  constructor
  · intro hlast
    obtain ⟨link, hlink, rfl⟩ := Option.map_eq_some_iff.1 hlast
    obtain ⟨hlisted, rfl⟩ := hmem link hlink
    exact hlisted
  · intro hlisted
    have hfound : ⟨a, b⟩ ∈ links.filter (·.target = b) :=
      List.mem_filter.2 ⟨hlisted, decide_eq_true rfl⟩
    obtain ⟨link, hlink⟩ := Option.isSome_iff_exists.1 (List.getLast?_isSome.2 (List.ne_nil_of_mem hfound))
    obtain ⟨hlink', htarget⟩ := hmem link hlink
    rw [lastSource?, hlink, hone link hlink' _ hlisted htarget]
    rfl

end Connection

open Connection (lastSource? OneInput lastSource?_cons lastSource?_eq_some_iff)

namespace Graph

/-- Makes connections in their order. -/
def connectAll (g : Graph) (links : List Connection) : Except PipelineError Graph :=
  links.foldlM (fun g link => Prod.fst <$> g.connect link.source link.target) g

variable {source target : BlockId} {replaced : Option BlockId}

theorem connectAll_cons_eq_ok_iff {link : Connection} :
    g.connectAll (link :: links) = .ok g' ↔
      ∃ next replaced, g.connect link.source link.target = .ok (next, replaced) ∧
        next.connectAll links = .ok g' := by
  simp only [connectAll, List.foldlM_cons, bind_eq_ok_iff, map_eq_ok_iff, Prod.exists]
  constructor
  · rintro ⟨_, ⟨next, replaced, hconnect, rfl⟩, hrest⟩
    exact ⟨next, replaced, hconnect, hrest⟩
  · rintro ⟨next, replaced, hconnect, hrest⟩
    exact ⟨next, ⟨next, replaced, hconnect, rfl⟩, hrest⟩

/-- A connection that has been made holds, whether it is new or not. -/
theorem inputOf_of_connect (h : g.WellFormed)
    (hconnect : g.connect source target = .ok (g', replaced)) (id : BlockId) :
    g'.inputOf id = if id = target then some source else g.inputOf id := by
  rw [connect_of_connectable h (connectable_of_connect h hconnect)] at hconnect
  split_ifs at hconnect with hf
  · obtain ⟨rfl, -⟩ := Prod.mk.inj (Except.ok.inj hconnect)
    split
    · next hsame => rw [hsame]; exact hf
    · rfl
  · obtain ⟨rfl, -⟩ := Prod.mk.inj (Except.ok.inj hconnect)
    exact inputOf_link

/-- Connections change neither the blocks nor their order. -/
theorem stored_of_connect (hconnect : g.connect source target = .ok (g', replaced)) :
    g'.stored = g.stored ∧ g'.ids = g.ids := by
  obtain ⟨-, -, -, -, rfl | rfl⟩ := connect_eq_ok hconnect
  · exact ⟨rfl, rfl⟩
  · exact ⟨rfl, rfl⟩

/-- The connection joins two blocks that are there, and does not lead into a load block. -/
structure Joins (g : Graph) (link : Connection) : Prop where
  source_mem : link.source ∈ g.ids
  target_mem : link.target ∈ g.ids
  not_load : ∀ block, g.find? link.target = some block → block.kind ≠ .load

theorem joins_congr (hstored : g'.stored = g.stored) (hids : g'.ids = g.ids) (link : Connection) :
    g'.Joins link ↔ g.Joins link := by
  have hfind : g'.find? = g.find? := by
    funext id
    rw [find?, find?, hstored]
  constructor
  · rintro ⟨hsource, htarget, hkind⟩
    exact ⟨hids ▸ hsource, hids ▸ htarget, hfind ▸ hkind⟩
  · rintro ⟨hsource, htarget, hkind⟩
    exact ⟨hids ▸ hsource, hids ▸ htarget, hfind ▸ hkind⟩

/-- Such a connection can be made if it makes no cycle with those that are there, as when all of them
    belong to a relation without cycles. -/
theorem Joins.connectable {link : Connection} {allowed : BlockId → BlockId → Prop}
    (hjoin : g.Joins link) (h : g.WellFormed) (hacyclic : ∀ id, ¬ Relation.TransGen allowed id id)
    (hfeeds : ∀ a b, g.Feeds a b → allowed a b) (hlink : allowed link.source link.target) :
    g.Connectable link.source link.target := by
  have hrewired : ∀ a b, g.Rewired link.source link.target a b → allowed a b := by
    rintro a b (⟨rfl, rfl⟩ | ⟨-, hold⟩)
    · exact hlink
    · exact hfeeds a b ((mem_connections h).1 hold)
  exact
    { source_mem := hjoin.source_mem
      target_mem := hjoin.target_mem
      not_load := hjoin.not_load
      distinct := fun hsame => hacyclic link.target (.single (hsame ▸ hlink))
      acyclic := fun id hcycle => hacyclic id (Relation.TransGen.mono hrewired _ _ hcycle) }

/-- What has become of a graph when all the connections have been made. -/
structure Joined (g : Graph) (links : List Connection) (g' : Graph) : Prop where
  wellFormed : g'.WellFormed
  stored : g'.stored = g.stored
  ids : g'.ids = g.ids
  inputOf : ∀ id, g'.inputOf id = (lastSource? links id).or (g.inputOf id)
  joins : ∀ link ∈ links, g.Joins link

theorem joined_of_connectAll (h : g.WellFormed) (hconnect : g.connectAll links = .ok g') :
    g.Joined links g' := by
  induction links generalizing g with
  | nil =>
    obtain rfl := Except.ok.inj hconnect
    exact ⟨h, rfl, rfl, fun _ => rfl, List.forall_mem_nil _⟩
  | cons link links ih =>
    obtain ⟨next, replaced, hnext, hrest⟩ := connectAll_cons_eq_ok_iff.1 hconnect
    obtain ⟨hstored, hids⟩ := stored_of_connect hnext
    have hable := connectable_of_connect h hnext
    have hjoined := ih (h.connect hnext) hrest
    refine
      { wellFormed := hjoined.wellFormed
        stored := hjoined.stored.trans hstored
        ids := hjoined.ids.trans hids
        inputOf := fun id => ?_
        joins := List.forall_mem_cons.2 ⟨⟨hable.source_mem, hable.target_mem, hable.not_load⟩, ?_⟩ }
    · rw [hjoined.inputOf, inputOf_of_connect h hnext, lastSource?_cons, Option.or_assoc]
      split <;> rfl
    · exact fun other hother => (joins_congr hstored hids other).1 (hjoined.joins other hother)

/-- Connections that make no cycle with those that are there can all be made. -/
theorem exists_connectAll {allowed : BlockId → BlockId → Prop}
    (hacyclic : ∀ id, ¬ Relation.TransGen allowed id id) (h : g.WellFormed)
    (hfeeds : ∀ a b, g.Feeds a b → allowed a b) (hjoins : ∀ link ∈ links, g.Joins link)
    (hlinks : ∀ link ∈ links, allowed link.source link.target) :
    ∃ g', g.connectAll links = .ok g' := by
  -- on the connections; whatever has been made is allowed
  induction links generalizing g with
  | nil => exact ⟨g, rfl⟩
  | cons link links ih =>
    obtain ⟨hjoin, hjoins⟩ := List.forall_mem_cons.1 hjoins
    obtain ⟨hlink, hlinks⟩ := List.forall_mem_cons.1 hlinks
    have hable := hjoin.connectable h hacyclic hfeeds hlink
    obtain ⟨next, replaced, hnext⟩ : ∃ next replaced,
        g.connect link.source link.target = .ok (next, replaced) := by
      rw [connect_of_connectable h hable]
      split
      · exact ⟨_, _, rfl⟩
      · exact ⟨_, _, rfl⟩
    obtain ⟨hstored, hids⟩ := stored_of_connect hnext
    have hmade : ∀ a b, next.Feeds a b → allowed a b := by
      intro a b hf
      rw [Feeds, inputOf_of_connect h hnext] at hf
      split at hf
      · next hsame =>
          obtain rfl := Option.some.inj hf
          rwa [hsame]
      · exact hfeeds a b hf
    obtain ⟨g', hrest⟩ := ih (h.connect hnext) hmade
      (fun other hother => (joins_congr hstored hids other).2 (hjoins other hother)) hlinks
    exact ⟨g', connectAll_cons_eq_ok_iff.2 ⟨next, replaced, hnext, hrest⟩⟩

end Graph

/-! ## Definitions -/

namespace Definition

variable {definition : Definition}

/-- What it takes to make a graph of a definition, if no two of its connections lead into one block. -/
structure Sound (definition : Definition) : Prop where
  ids_nodup : (definition.blocks.map BlockDefinition.id).Nodup
  ends_mem : ∀ link ∈ definition.connections,
    link.source ∈ definition.blocks.map BlockDefinition.id ∧
      link.target ∈ definition.blocks.map BlockDefinition.id
  not_load : ∀ link ∈ definition.connections, ∀ stored ∈ definition.blocks,
    stored.id = link.target → stored.config.kind ≠ .load
  /-- The connections make no cycle, not even of one block. -/
  acyclic : ∀ id, ¬ Relation.TransGen (fun a b => ⟨a, b⟩ ∈ definition.connections) id id

/-- The graph is put together of what the definition lists. -/
theorem toGraph_eq_ok_iff : definition.toGraph = .ok g ↔
    ∃ unlinked : Graph, definition.blocks.foldlM addBlock .empty = .ok unlinked ∧
      unlinked.Lists definition.blocks ∧ unlinked.connectAll definition.connections = .ok g := by
  refine bind_eq_ok_iff.trans (exists_congr fun unlinked => and_congr_right fun hblocks => ?_)
  have hlists := Graph.lists_empty.of_addBlocks hblocks
  exact ⟨fun hlinks => ⟨hlists, hlinks⟩, fun h => h.2⟩

/-- A connection joins blocks of a graph that has only been listed if it joins blocks of the list. -/
theorem joins_iff (h : g.Lists definition.blocks) (link : Connection) : g.Joins link ↔
    (link.source ∈ definition.blocks.map BlockDefinition.id ∧
      link.target ∈ definition.blocks.map BlockDefinition.id) ∧
      ∀ stored ∈ definition.blocks, stored.id = link.target → stored.config.kind ≠ .load := by
  constructor
  · rintro ⟨hsource, htarget, hkind⟩
    rw [h.ids] at hsource htarget
    exact ⟨⟨hsource, htarget⟩, fun stored hmem hsame => hkind stored.made (hsame ▸ h.found stored hmem)⟩
  · rintro ⟨⟨hsource, htarget⟩, hkind⟩
    refine ⟨h.ids ▸ hsource, h.ids ▸ htarget, fun block hfind => ?_⟩
    obtain ⟨stored, hmem, hsame⟩ := List.mem_map.1 htarget
    obtain rfl := Option.some.inj (hfind.symm.trans (hsame ▸ h.found stored hmem))
    exact hkind stored hmem hsame

/-- The inputs in a graph made of a definition. -/
theorem inputOf_of_toGraph (h : definition.toGraph = .ok g) (id : BlockId) :
    g.inputOf id = lastSource? definition.connections id := by
  obtain ⟨unlinked, -, hlists, hlinks⟩ := toGraph_eq_ok_iff.1 h
  rw [(Graph.joined_of_connectAll hlists.wellFormed hlinks).inputOf, hlists.inputOf, Option.or_none]

theorem feeds_of_toGraph (hone : OneInput definition.connections) (h : definition.toGraph = .ok g) :
    g.Feeds a b ↔ ⟨a, b⟩ ∈ definition.connections := by
  rw [Graph.Feeds, inputOf_of_toGraph h, lastSource?_eq_some_iff hone]

theorem exists_toGraph_iff (hone : OneInput definition.connections) :
    (∃ g, definition.toGraph = .ok g) ↔ definition.Sound := by
  constructor
  · rintro ⟨g, hgraph⟩
    have hfeeds : g.Feeds = fun a b => ⟨a, b⟩ ∈ definition.connections := by
      funext a b
      exact propext (feeds_of_toGraph hone hgraph)
    obtain ⟨unlinked, -, hlists, hlinks⟩ := toGraph_eq_ok_iff.1 hgraph
    have hjoined := Graph.joined_of_connectAll hlists.wellFormed hlinks
    have hjoins := fun link hlink => (joins_iff hlists link).1 (hjoined.joins link hlink)
    exact
      { ids_nodup := hlists.ids_nodup
        ends_mem := fun link hlink => (hjoins link hlink).1
        not_load := fun link hlink => (hjoins link hlink).2
        acyclic := hfeeds ▸ hjoined.wellFormed.acyclic }
  · intro hsound
    obtain ⟨unlinked, hblocks, hlists⟩ := Graph.lists_empty.addBlocks hsound.ids_nodup
    have hnone : ∀ a b, unlinked.Feeds a b → ⟨a, b⟩ ∈ definition.connections := by
      intro a b hf
      rw [Graph.Feeds, hlists.inputOf] at hf
      cases hf
    obtain ⟨g, hlinks⟩ := Graph.exists_connectAll hsound.acyclic hlists.wellFormed hnone
      (fun link hlink => (joins_iff hlists link).2 ⟨hsound.ends_mem link hlink, hsound.not_load link hlink⟩)
      fun link hlink => hlink
    exact ⟨g, toGraph_eq_ok_iff.2 ⟨unlinked, hblocks, hlists, hlinks⟩⟩

/-- The definition with its connections in this order. -/
def withConnections (definition : Definition) (connections : List Connection) : Definition :=
  { definition with connections }

theorem Sound.of_perm {connections : List Connection} (h : definition.Sound)
    (hperm : connections.Perm definition.connections) : (definition.withConnections connections).Sound where
  ids_nodup := h.ids_nodup
  ends_mem link hlink := h.ends_mem link (hperm.mem_iff.1 hlink)
  not_load link hlink := h.not_load link (hperm.mem_iff.1 hlink)
  acyclic id hcycle :=
    h.acyclic id (Relation.TransGen.mono (fun _ _ hlink => hperm.mem_iff.1 hlink) _ _ hcycle)

/-- Graphs that are made of one list of blocks have the same blocks. -/
theorem stored_of_toGraph {other : Definition} (h : definition.toGraph = .ok g)
    (h' : other.toGraph = .ok g') (hblocks : other.blocks = definition.blocks) :
    g'.stored = g.stored ∧ g'.ids = g.ids := by
  obtain ⟨unlinked, hadd, hlists, hlinks⟩ := toGraph_eq_ok_iff.1 h
  obtain ⟨unlinked', hadd', hlists', hlinks'⟩ := toGraph_eq_ok_iff.1 h'
  rw [hblocks, hadd] at hadd'
  obtain rfl := Except.ok.inj hadd'
  have hjoined := Graph.joined_of_connectAll hlists.wellFormed hlinks
  have hjoined' := Graph.joined_of_connectAll hlists.wellFormed hlinks'
  exact ⟨hjoined'.stored.trans hjoined.stored.symm, hjoined'.ids.trans hjoined.ids.symm⟩

/-- If a graph can be made of a definition, it has the blocks in the order in which they are listed, and
    the input of each block is the source of the last connection listed into it. If no two connections
    lead into one block, a graph can be made just when the definition is sound, it has the connections
    that are listed, and another order of the connections makes the same graph. -/
theorem toGraph_exact (definition : Definition) :
    (∀ g, definition.toGraph = .ok g → g.ids = definition.blocks.map BlockDefinition.id ∧
      ∀ id, g.inputOf id = lastSource? definition.connections id) ∧
    (OneInput definition.connections →
      ((∃ g, definition.toGraph = .ok g) ↔ definition.Sound) ∧
      (∀ g, definition.toGraph = .ok g → ∀ link, link ∈ g.connections ↔ link ∈ definition.connections) ∧
      ∀ connections, connections.Perm definition.connections →
        ((∃ g', (definition.withConnections connections).toGraph = .ok g') ↔
          ∃ g, definition.toGraph = .ok g) ∧
        ∀ g g', definition.toGraph = .ok g →
          (definition.withConnections connections).toGraph = .ok g' →
            g'.stored = g.stored ∧ g'.ids = g.ids ∧ g'.connections = g.connections) := by
  have hids : ∀ g, definition.toGraph = .ok g → g.ids = definition.blocks.map BlockDefinition.id := by
    intro g hgraph
    obtain ⟨unlinked, -, hlists, hlinks⟩ := toGraph_eq_ok_iff.1 hgraph
    exact (Graph.joined_of_connectAll hlists.wellFormed hlinks).ids.trans hlists.ids
  refine ⟨fun g hgraph => ⟨hids g hgraph, inputOf_of_toGraph hgraph⟩, fun hone => ⟨?_, ?_, ?_⟩⟩
  · exact exists_toGraph_iff hone
  · rintro g hgraph ⟨a, b⟩
    rw [Graph.mem_connections (Session.wellFormed_toGraph hgraph), feeds_of_toGraph hone hgraph]
  · intro connections hperm
    have hone' : OneInput (definition.withConnections connections).connections :=
      fun link hlink other hother =>
        hone link (hperm.mem_iff.1 hlink) other (hperm.mem_iff.1 hother)
    refine ⟨?_, fun g g' hgraph hgraph' => ?_⟩
    · rw [exists_toGraph_iff hone, exists_toGraph_iff hone']
      exact ⟨fun h => h.of_perm hperm.symm, fun h => h.of_perm hperm⟩
    · obtain ⟨hstored, hids⟩ := stored_of_toGraph hgraph hgraph' rfl
      have hinput : g'.inputOf = g.inputOf := by
        funext b
        refine Option.ext fun a => ?_
        show g'.Feeds a b ↔ g.Feeds a b
        rw [feeds_of_toGraph hone hgraph, feeds_of_toGraph hone' hgraph']
        exact hperm.mem_iff
      exact ⟨hstored, hids, by rw [Graph.connections, Graph.connections, hids, hinput]⟩

/-- A sort below a filter below a load block, with the lowest connection listed first. Its connections can
    be listed the other way round. With one more connection from the sort to the filter the last one
    into the filter would hold, but it is refused on account of the cycle. With one more from the load
    block to the sort this one holds. -/
theorem toGraph_of_chain :
    let load : BlockId := ⟨1⟩
    let filter : BlockId := ⟨2⟩
    let sort : BlockId := ⟨3⟩
    let definition : Definition := {
      blocks := [⟨sort, none, .sort { column := "amount" }⟩, ⟨load, some "Orders", .load {}⟩,
        ⟨filter, none, .filter {}⟩]
      connections := [⟨filter, sort⟩, ⟨load, filter⟩] }
    let reversed := definition.withConnections [⟨load, filter⟩, ⟨filter, sort⟩]
    let closed := definition.withConnections [⟨filter, sort⟩, ⟨sort, filter⟩]
    let replaced := definition.withConnections [⟨filter, sort⟩, ⟨load, filter⟩, ⟨load, sort⟩]
    OneInput definition.connections ∧ definition.Sound ∧ OneInput closed.connections ∧ ¬ closed.Sound ∧
      (∃ g g', definition.toGraph = .ok g ∧ reversed.toGraph = .ok g' ∧ g.ids = [sort, load, filter] ∧
        g'.connections = g.connections) ∧
      ∃ g, replaced.toGraph = .ok g ∧ g.inputOf sort = some load := by
  intro load filter sort definition reversed closed replaced
  have hone : OneInput definition.connections := by decide
  have hclosed : OneInput closed.connections := by decide
  have hreversed : reversed.toGraph.isOk := by decide +kernel
  have hrefused : closed.toGraph.isOk = false := by decide +kernel
  have hreplaced : replaced.toGraph.isOk := by decide +kernel
  have exists_of_isOk : ∀ {made : Except PipelineError Graph}, made.isOk → ∃ g, made = .ok g := by
    rintro (error | g) hok
    · cases hok
    · exact ⟨g, rfl⟩
  obtain ⟨hexact, hall⟩ := toGraph_exact definition
  obtain ⟨hsound, -, horder⟩ := hall hone
  obtain ⟨hany, hsame⟩ := horder reversed.connections (.swap _ _ _)
  obtain ⟨g', hg'⟩ := exists_of_isOk hreversed
  obtain ⟨g, hg⟩ := hany.1 ⟨g', hg'⟩
  obtain ⟨last, hlast⟩ := exists_of_isOk hreplaced
  refine ⟨hone, hsound.1 ⟨g, hg⟩, hclosed, fun hsound' => ?_,
    ⟨g, g', hg, hg', (hexact g hg).1, (hsame g g' hg hg').2.2⟩,
    last, hlast, ((toGraph_exact replaced).1 last hlast).2 sort⟩
  obtain ⟨_, hmade⟩ := ((toGraph_exact closed).2 hclosed).1.2 hsound'
  rw [hmade] at hrefused
  cases hrefused

end Definition

end BlockPipeline

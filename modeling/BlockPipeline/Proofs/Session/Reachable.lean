import BlockPipeline.Proofs.Graph.Reachable
import BlockPipeline.Proofs.Run.Cascades
import BlockPipeline.Proofs.Session.Patch

set_option autoImplicit false

/-! # Sessions that edits and runs lead to

`Edit` lists the edits of a session with all their arguments. A session is `Reachable` if it is the
empty one or made from a stored pipeline, or if an edit, a run or the removal of a block leads to it
from a reachable one. Runs may be on any engine in any state, and another one each time.

The graph of such a session keeps the rules (`Reachable.wellFormed`). This is all that proofs about
runs need to know of how a session came about. `Graph.Occurs` tells of graphs in sessions and without
them. -/

namespace BlockPipeline.Session

open Json

/-- An edit of a session with its arguments. -/
inductive Edit where
  | addKind (newId : BlockId) (kind : BlockKind)
  | addConfig (newId : BlockId) (config : BlockConfig)
  | connect (source target : BlockId)
  | disconnect (target : BlockId)
  | remove (id : BlockId)
  | rename (id : BlockId) (label : String)
  | duplicate (id newId : BlockId)
  | move (id : BlockId) (place : Nat)
  | updateConfig (id : BlockId) (patch : Json)
  | setConfig (id : BlockId) (config : BlockConfig)
  | setPolicy (policy : StalenessPolicy)
  | setMetadata (metadata : Metadata)

namespace Edit

/-- The session after an edit, which is the same one if the edit fails. -/
def apply (s : Session) : Edit → Session
  | addKind newId kind => s.add newId kind
  | addConfig newId config => Session.addConfig s newId config
  | connect source target => settled s (Prod.fst <$> Session.connect s source target)
  | disconnect target => (Session.disconnect s target).1
  | remove id => settled s (Prod.fst <$> Session.remove s id)
  | rename id label => settled s (Session.rename s id label)
  | duplicate id newId => settled s (Session.duplicate s id newId)
  | move id place => settled s (Session.move s id place)
  | updateConfig id patch => settled s (Prod.fst <$> Session.updateConfig s id patch)
  | setConfig id config => settled s (Prod.fst <$> Session.setConfig s id config)
  | setPolicy policy => { s with policy }
  | setMetadata metadata => { s with metadata }

/-- The identifier that an edit gives out. -/
def newId? : Edit → Option BlockId
  | addKind newId _ | addConfig newId _ | duplicate _ newId => some newId
  | _ => none

/-- The identifier that the edit gives out is not taken. -/
def Fresh (s : Session) (edit : Edit) : Prop := ∀ newId ∈ edit.newId?, newId ∉ s.graph.ids

/-- Identifiers that edits in a row give out are not taken when they are given out. -/
def AllFresh : Session → List Edit → Prop
  | _, [] => True
  | s, edit :: edits => edit.Fresh s ∧ AllFresh (edit.apply s) edits

instance (s : Session) (edit : Edit) : Decidable (edit.Fresh s) :=
  inferInstanceAs (Decidable (∀ newId ∈ edit.newId?, newId ∉ s.graph.ids))

instance decidableAllFresh : ∀ (s : Session) (edits : List Edit), Decidable (AllFresh s edits)
  | _, [] => isTrue trivial
  | s, edit :: edits =>
    have := decidableAllFresh (edit.apply s) edits
    inferInstanceAs (Decidable (edit.Fresh s ∧ AllFresh (edit.apply s) edits))

end Edit

/-- The sessions that edits and runs lead to. -/
inductive Reachable : Session → Prop where
  | empty : Reachable empty
  | stored {definition : Definition} {s : Session} (made : ofDefinition definition = .ok s) :
    Reachable s
  | edit {s : Session} (edit : Edit) (past : Reachable s) (fresh : edit.Fresh s) :
    Reachable (edit.apply s)
  | run {σ : Type} {s : Session} (engine : Engine σ) (config : RunConfig) (state : σ) (id : BlockId)
    {p : Progress σ} (past : Reachable s) (ran : engine.run config s state id = .ok p) :
    Reachable p.session
  | runAll {σ : Type} {s : Session} (engine : Engine σ) (config : RunConfig) (state : σ)
    (past : Reachable s) : Reachable (engine.runAll config s state).session
  | removeBlock {σ : Type} {s s' : Session} (engine : Engine σ) (config : RunConfig)
    (state state' : σ) (id : BlockId) (block : Block) (past : Reachable s)
    (removed : engine.removeBlock config s state id = .ok (s', state', block)) : Reachable s'

variable {s s' : Session} {id : BlockId}

theorem Reachable.edits {edits : List Edit} (h : s.Reachable) (hfresh : Edit.AllFresh s edits) :
    (edits.foldl Edit.apply s).Reachable := by
  induction edits generalizing s with
  | nil => exact h
  | cons edit edits ih => exact ih (.edit edit h hfresh.1) hfresh.2

/-! ## Stored pipelines -/

theorem wellFormed_addBlock {g g' : Graph} {block : BlockDefinition} (h : g.WellFormed)
    (hadd : Definition.addBlock g block = .ok g') : g'.WellFormed := by
  obtain ⟨added, hconfig, hlabel⟩ := bind_eq_ok_iff.1 hadd
  have hadded := h.addConfig hconfig
  cases hblock : block.label with
  | none =>
    rw [hblock] at hlabel
    obtain rfl := Except.ok.inj hlabel
    exact hadded
  | some label =>
    rw [hblock] at hlabel
    exact hadded.rename hlabel

theorem wellFormed_toGraph {definition : Definition} {g : Graph}
    (h : definition.toGraph = .ok g) : g.WellFormed := by
  obtain ⟨unlinked, hblocks, hlinks⟩ := bind_eq_ok_iff.1 h
  have hunlinked : unlinked.WellFormed :=
    foldlM_keeps (fun _ _ _ => wellFormed_addBlock) Graph.wellFormed_empty hblocks
  refine foldlM_keeps (fun link g g' hwf hstep => ?_) hunlinked hlinks
  obtain ⟨⟨after, replaced⟩, hconnect, rfl⟩ := map_eq_ok_iff.1 hstep
  exact hwf.connect hconnect

/-! ## Changes of configuration -/

theorem outline_markStale (g : Graph) (ids : List BlockId) :
    (g.markStale ids).outline = g.outline := by
  unfold Graph.markStale
  induction ids generalizing g with
  | nil => rfl
  | cons id rest ih =>
    rw [List.foldl_cons, ih]
    exact Graph.outline_modify fun _ => rfl

theorem wellFormed_modifyConfig {g : Graph} (h : g.WellFormed) {block : Block}
    {config : BlockConfig} (hfind : g.find? id = some block) (hkind : config.kind = block.kind) :
    (g.modify id fun block => { block with config }).WellFormed := by
  refine h.modify fun found hfound => ?_
  obtain rfl := Option.some.inj (hfound.symm.trans hfind)
  rw [Block.signature, Block.signature, ← hkind]
  rfl

/-- A configuration may give way to any other one of the same kind. -/
theorem wellFormed_replaceConfig (h : s.graph.WellFormed) {block : Block} {config : BlockConfig}
    (hfind : s.graph.find? id = some block) (hkind : config.kind = block.kind) :
    (s.replaceConfig id config).1.graph.WellFormed :=
  (wellFormed_modifyConfig h hfind hkind).of_outline (outline_markStale _ _)

theorem setConfig_eq_ok {config : BlockConfig} {affected : List BlockId}
    (h : s.setConfig id config = .ok (s', affected)) : ∃ block,
      s.graph.find? id = some block ∧ config.kind = block.kind ∧
        (s.replaceConfig id config).1 = s' := by
  obtain ⟨block, hget, hset⟩ := bind_eq_ok_iff.1 h
  by_cases hkind : config.kind = block.kind
  · rw [if_pos hkind] at hset
    exact ⟨block, Graph.get_eq_ok_iff.1 hget, hkind, congrArg Prod.fst (Except.ok.inj hset)⟩
  · rw [if_neg hkind] at hset
    cases hset

theorem updateConfig_eq_ok_iff {patch : Json} {affected : List BlockId} :
    s.updateConfig id patch = .ok (s', affected) ↔ ∃ block config,
      s.graph.find? id = some block ∧ block.config.Patched patch config ∧
        s.replaceConfig id config = (s', affected) := by
  have hmade (block : Block) (config : BlockConfig) :
      (patchedConfig block.config patch).mapError (PipelineError.invalidConfig id block.kind)
        = .ok config ↔ block.config.Patched patch config := by
    rw [← BlockConfig.patchedConfig_eq_ok_iff]
    cases patchedConfig block.config patch with
    | ok made => simp [Except.mapError]
    | error fault => simp [Except.mapError]
  simp only [updateConfig, bind_eq_ok_iff, Graph.get_eq_ok_iff, hmade, pure, Except.pure,
    Except.ok.injEq, exists_and_left]

theorem updateConfig_eq_ok {patch : Json} {affected : List BlockId}
    (h : s.updateConfig id patch = .ok (s', affected)) : ∃ block config,
      s.graph.find? id = some block ∧ config.kind = block.kind ∧
        (s.replaceConfig id config).1 = s' := by
  obtain ⟨block, config, hfind, hpatched, hreplaced⟩ := updateConfig_eq_ok_iff.1 h
  exact ⟨block, config, hfind, hpatched.kind_eq, congrArg Prod.fst hreplaced⟩

/-! ## All edits and runs -/

/-- A block is removed from the graph and from the results. -/
theorem remove_eq_ok {block : Block} (h : s.remove id = .ok (s', block)) :
    s'.graph = (s.graph.remove id).1 ∧ s'.results = s.results.remove id := by
  unfold Session.remove at h
  cases hremove : s.graph.remove id with
  | mk graph found =>
    rw [hremove] at h
    cases found with
    | none => cases h
    | some removed =>
      obtain ⟨rfl, -⟩ := Prod.mk.inj (Except.ok.inj h)
      exact ⟨rfl, rfl⟩

theorem wellFormed_edit (h : s.graph.WellFormed) {edit : Edit} (hfresh : edit.Fresh s) :
    (edit.apply s).graph.WellFormed := by
  have hcases : ∀ attempt : Except PipelineError Session,
      (∀ after, attempt = .ok after → after.graph.WellFormed) →
        (settled s attempt).graph.WellFormed :=
    fun attempt => settled_cases (motive := fun s : Session => s.graph.WellFormed) h
  cases edit with
  | addKind newId kind => exact h.add (hfresh newId rfl)
  | addConfig newId config => exact h.add (hfresh newId rfl)
  | connect source target =>
    refine hcases _ fun after hafter => ?_
    obtain ⟨⟨_, replaced⟩, hconnect, rfl⟩ := map_eq_ok_iff.1 hafter
    obtain ⟨⟨g, _⟩, hgraph, hresult⟩ := bind_eq_ok_iff.1 hconnect
    obtain ⟨rfl, rfl⟩ := Prod.mk.inj (Except.ok.inj hresult)
    exact h.connect hgraph
  | disconnect target => exact h.unlink target
  | remove id =>
    refine hcases _ fun after hafter => ?_
    obtain ⟨⟨_, block⟩, hremove, rfl⟩ := map_eq_ok_iff.1 hafter
    exact (remove_eq_ok hremove).1 ▸ h.remove id
  | rename id label =>
    refine hcases _ fun after hafter => ?_
    obtain ⟨g, hrename, rfl⟩ := map_eq_ok_iff.1 hafter
    exact h.rename hrename
  | duplicate id newId =>
    refine hcases _ fun after hafter => ?_
    obtain ⟨g, hduplicate, rfl⟩ := map_eq_ok_iff.1 hafter
    exact h.duplicate (hfresh newId rfl) hduplicate
  | move id place =>
    refine hcases _ fun after hafter => ?_
    obtain ⟨g, hmove, rfl⟩ := map_eq_ok_iff.1 hafter
    exact h.move hmove
  | updateConfig id patch =>
    refine hcases _ fun after hafter => ?_
    obtain ⟨⟨_, affected⟩, hupdate, rfl⟩ := map_eq_ok_iff.1 hafter
    obtain ⟨block, config, hfind, hkind, rfl⟩ := updateConfig_eq_ok hupdate
    exact wellFormed_replaceConfig h hfind hkind
  | setConfig id config =>
    refine hcases _ fun after hafter => ?_
    obtain ⟨⟨_, affected⟩, hset, rfl⟩ := map_eq_ok_iff.1 hafter
    obtain ⟨block, hfind, hkind, rfl⟩ := setConfig_eq_ok hset
    exact wellFormed_replaceConfig h hfind hkind
  | setPolicy policy => exact h
  | setMetadata metadata => exact h

/-- What the engine does about the table of a removed block does not matter to the session. -/
theorem remove_of_removeBlock {σ : Type} {engine : Engine σ} {config : RunConfig}
    {state state' : σ} {block : Block}
    (h : engine.removeBlock config s state id = .ok (s', state', block)) :
    s.remove id = .ok (s', block) := by
  obtain ⟨⟨after, removed⟩, hremove, hresult⟩ := bind_eq_ok_iff.1 h
  rw [hremove]
  simp only at hresult
  split at hresult
  · cases hresult
    rfl
  · split at hresult
    · cases hresult
      rfl
    · cases hresult
      rfl

/-- However a session came about, its graph keeps the rules. -/
theorem Reachable.wellFormed (h : s.Reachable) : s.graph.WellFormed := by
  induction h with
  | empty => exact Graph.wellFormed_empty
  | stored made =>
    obtain ⟨g, hgraph, hsession⟩ := bind_eq_ok_iff.1 made
    obtain rfl := Except.ok.inj hsession
    exact wellFormed_toGraph hgraph
  | edit edit _ fresh ih => exact wellFormed_edit ih fresh
  | run engine config state id _ ran ih =>
    exact ih.of_outline (Engine.Steps.outline_eq (Engine.steps_of_run ih ran))
  | runAll engine config state _ ih =>
    exact ih.of_outline (Engine.Steps.outline_eq (Engine.runAll_steps ih engine config state).1)
  | removeBlock engine config state state' id block _ removed ih =>
    exact (remove_eq_ok (remove_of_removeBlock removed)).1 ▸ ih.remove id

end BlockPipeline.Session

namespace BlockPipeline.Graph

/-- The graphs that come about: edits of a graph lead to them, or they are those of sessions. -/
inductive Occurs (g : Graph) : Prop where
  | edited (reachable : g.Reachable)
  | held {s : Session} (reachable : s.Reachable) (eq : s.graph = g)

theorem Occurs.wellFormed {g : Graph} (h : g.Occurs) : g.WellFormed := by
  cases h with
  | edited reachable => exact reachable.wellFormed
  | held reachable eq => exact eq ▸ reachable.wellFormed

end BlockPipeline.Graph

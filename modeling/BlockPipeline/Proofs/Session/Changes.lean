import BlockPipeline.Proofs.Graph.Places
import BlockPipeline.Proofs.Session.Reachable

set_option autoImplicit false

/-! # What edits do to blocks and results

An edit gives labels, adds a block that has not run, takes a block away with its result, or replaces
a configuration (`Change`). An edit that fails, or that changes the order or the connections only,
gives every block the label that it has. Whatever is to be shown of the blocks after any edit follows
from this, and not from each edit anew (`change_of_edit`). -/

namespace BlockPipeline

/-- The block has not run yet. -/
structure Block.Unrun (block : Block) : Prop where
  status : block.status = .idle
  outputTable : block.outputTable = none
  isStale : block.isStale = false

variable {g g' : Graph} {id other : BlockId} {block : Block}

namespace Graph

/-! ## Finding blocks in an edited graph -/

theorem find?_add (g : Graph) (block : Block) (other : BlockId) :
    (g.add block).find? other = if other = block.id then some block else g.find? other := by
  split
  · next hsame => rw [hsame]; exact Assoc.find?_insert_self _ _ _
  · next hne => exact Assoc.find?_insert_of_ne hne _ _

theorem WellFormed.find?_eq_none (h : g.WellFormed) (hnew : id ∉ g.ids) : g.find? id = none := by
  rw [Option.eq_none_iff_forall_ne_some]
  intro block hfind
  exact hnew (h.mem_ids_iff.2 ⟨block, hfind⟩)

theorem find?_duplicate {copyId : BlockId} (h : g.duplicate id copyId = .ok g') :
    ∃ block, g.find? id = some block ∧ ∀ other, g'.find? other =
      if other = copyId then some (block.duplicate copyId) else g.find? other := by
  obtain ⟨block, hget, hmove⟩ := bind_eq_ok_iff.1 h
  obtain ⟨former, -, rfl⟩ := move_eq_ok_iff.1 hmove
  exact ⟨block, get_eq_ok_iff.1 hget, find?_add g (block.duplicate copyId)⟩

theorem find?_connect {source target : BlockId} {replaced : Option BlockId}
    (h : g.connect source target = .ok (g', replaced)) : g'.find? = g.find? := by
  obtain ⟨-, -, -, -, rfl | rfl⟩ := connect_eq_ok h
  · rfl
  · rfl

theorem find?_remove (g : Graph) (id other : BlockId) :
    (g.remove id).1.find? other = if other = id then none else g.find? other := by
  unfold remove
  by_cases hsame : other = id
  · rw [if_pos hsame, hsame]
    cases hfind : g.find? id with
    | none => exact hfind
    | some block => exact Assoc.find?_erase_self _ _
  · rw [if_neg hsame]
    cases g.find? id with
    | none => rfl
    | some block => exact Assoc.find?_erase_of_ne hsame _

theorem find?_markStale (ids : List BlockId) (g : Graph) (other : BlockId) :
    (g.markStale ids).find? other =
      (g.find? other).map fun block => if other ∈ ids then block.markStale else block := by
  unfold markStale
  induction ids generalizing g with
  | nil => simp
  | cons id ids ih =>
    rw [List.foldl_cons, ih, find?_modify]
    cases g.find? other with
    | none => rfl
    | some block =>
      by_cases hsame : other = id
      · simp [hsame, Block.markStale]
      · simp [hsame]

end Graph

/-! ## Affected blocks -/

namespace StalenessPolicy

variable {policy : StalenessPolicy}

/-- No block affects itself. -/
theorem not_mem_affected_self (hwf : g.WellFormed) : id ∉ policy.affected g id := by
  intro h
  cases policy with
  | position => exact Graph.not_mem_blocksAfter_self hwf h
  | reachability => exact hwf.acyclic id ((Graph.mem_downstreamOf hwf).1 h)

/-- Which blocks are affected depends on the order, the connections and what blocks there are. -/
theorem affected_congr (hids : g'.ids = g.ids) (hlinks : g'.links = g.links)
    (hcontains : g'.contains id = g.contains id) : policy.affected g' id = policy.affected g id := by
  cases policy with
  | position => simp only [affected, Graph.blocksAfter, Graph.position?, hids]
  | reachability => exact Graph.downstreamOf_congr hids hlinks hcontains

/-- A change of the block itself does not matter. -/
theorem affected_modify (change : Block → Block) :
    policy.affected (g.modify id change) id = policy.affected g id := by
  refine affected_congr rfl rfl ?_
  rw [Graph.contains, Graph.contains, Graph.find?_modify, Option.isSome_map]

end StalenessPolicy

/-! ## Changes -/

namespace Session

variable {s s' : Session}

/-- What the blocks and results of `s` become in `s'`, if the block given, or none, gets another
    configuration. -/
inductive Change (s s' : Session) : Option BlockId → Prop where
  /-- Blocks may get other labels. -/
  | relabel (label : BlockId → Block → String)
    (found : ∀ id, s'.graph.find? id =
      (s.graph.find? id).map fun block => { block with label := label id block })
    (results : s'.results = s.results) : Change s s' none
  | add (block : Block) (new : s.graph.find? block.id = none) (unrun : block.Unrun)
    (found : ∀ id, s'.graph.find? id = if id = block.id then some block else s.graph.find? id)
    (results : s'.results = s.results) : Change s s' none
  | remove (id : BlockId)
    (found : ∀ other, s'.graph.find? other = if other = id then none else s.graph.find? other)
    (results : s'.results = s.results.remove id) : Change s s' none
  | configure (id : BlockId) (config : BlockConfig) (block : Block)
    (former : s.graph.find? id = some block) (kind : config.kind = block.kind)
    (self : s'.graph.find? id = some { block with config })
    (found : ∀ other, other ≠ id → s'.graph.find? other = (s.graph.find? other).map fun block =>
      if other ∈ s.policy.affected s.graph id then block.markStale else block)
    (results : s'.results = s.results) : Change s s' (some id)

/-- The block that gets another configuration by an edit, if there is one and the edit succeeds. -/
def Edit.configured? (s : Session) : Edit → Option BlockId
  | .updateConfig id patch => if (Session.updateConfig s id patch).isOk then some id else none
  | .setConfig id config => if (Session.setConfig s id config).isOk then some id else none
  | _ => none

theorem Change.of_graph_eq (hgraph : s'.graph.find? = s.graph.find?) (hresults : s'.results = s.results) :
    Change s s' none := by
  refine .relabel (fun _ block => block.label) (fun id => ?_) hresults
  rw [hgraph]
  cases s.graph.find? id <;> rfl

/-- What is found after the replacement of a configuration. -/
theorem find?_replaceConfig (hwf : s.graph.WellFormed) (config : BlockConfig)
    (hfind : s.graph.find? id = some block) :
    (s.replaceConfig id config).1.graph.find? id = some { block with config } ∧
      ∀ other, other ≠ id → (s.replaceConfig id config).1.graph.find? other =
        (s.graph.find? other).map fun block =>
          if other ∈ s.policy.affected s.graph id then block.markStale else block := by
  have hfound (other : BlockId) : (s.replaceConfig id config).1.graph.find? other =
      ((s.graph.modify id fun block => { block with config }).find? other).map fun block =>
        if other ∈ s.policy.affected s.graph id then block.markStale else block := by
    refine (Graph.find?_markStale _ _ other).trans ?_
    rw [StalenessPolicy.affected_modify]
  refine ⟨?_, fun other hne => ?_⟩
  · rw [hfound, Graph.find?_modify_self hfind, Option.map_some,
      if_neg (StalenessPolicy.not_mem_affected_self hwf)]
  · rw [hfound, Graph.find?_modify_of_ne hne]

theorem change_replaceConfig (hwf : s.graph.WellFormed) {config : BlockConfig}
    (hfind : s.graph.find? id = some block) (hkind : config.kind = block.kind) :
    Change s (s.replaceConfig id config).1 (some id) := by
  obtain ⟨hself, hothers⟩ := find?_replaceConfig hwf config hfind
  exact .configure id config block hfind hkind hself hothers rfl

theorem change_of_remove (h : s.remove id = .ok (s', block)) : Change s s' none := by
  obtain ⟨hgraph, hresults⟩ := remove_eq_ok h
  refine .remove id (fun other => ?_) hresults
  rw [hgraph, Graph.find?_remove]

theorem change_add (hwf : s.graph.WellFormed) (hnew : block.id ∉ s.graph.ids) (hunrun : block.Unrun) :
    Change s (s.withGraph (s.graph.add block)) none :=
  .add block (hwf.find?_eq_none hnew) hunrun (Graph.find?_add s.graph block) rfl

/-- An edit changes blocks and results in one of four ways. -/
theorem change_of_edit (hwf : s.graph.WellFormed) {edit : Edit} (hfresh : edit.Fresh s) :
    Change s (edit.apply s) (edit.configured? s) := by
  have hsame : Change s s none := .of_graph_eq rfl rfl
  have hcases : ∀ attempt : Except PipelineError Session,
      (∀ after, attempt = .ok after → Change s after none) → Change s (settled s attempt) none :=
    fun attempt => settled_cases (motive := fun after : Session => Change s after none) hsame
  cases edit with
  | addKind newId kind => exact change_add hwf (hfresh newId rfl) ⟨rfl, rfl, rfl⟩
  | addConfig newId config => exact change_add hwf (hfresh newId rfl) ⟨rfl, rfl, rfl⟩
  | connect source target =>
    refine hcases _ fun after hafter => ?_
    obtain ⟨⟨_, replaced⟩, hconnect, rfl⟩ := map_eq_ok_iff.1 hafter
    obtain ⟨⟨g, _⟩, hgraph, hresult⟩ := bind_eq_ok_iff.1 hconnect
    obtain ⟨rfl, rfl⟩ := Prod.mk.inj (Except.ok.inj hresult)
    exact .of_graph_eq (Graph.find?_connect hgraph) rfl
  | disconnect target => exact .of_graph_eq rfl rfl
  | remove id =>
    refine hcases _ fun after hafter => ?_
    obtain ⟨⟨_, block⟩, hremove, rfl⟩ := map_eq_ok_iff.1 hafter
    exact change_of_remove hremove
  | rename id label =>
    refine hcases _ fun after hafter => ?_
    obtain ⟨g, hrename, rfl⟩ := map_eq_ok_iff.1 hafter
    obtain ⟨block, -, rfl⟩ := Graph.rename_eq_ok_iff.1 hrename
    refine .relabel (fun other block => if other = id then label else block.label) (fun other => ?_) rfl
    refine (Graph.find?_modify _).trans ?_
    cases s.graph.find? other with
    | none => rfl
    | some block =>
      simp only [Option.map_some]
      split <;> rfl
  | duplicate id newId =>
    refine hcases _ fun after hafter => ?_
    obtain ⟨g, hduplicate, rfl⟩ := map_eq_ok_iff.1 hafter
    obtain ⟨block, -, hfound⟩ := Graph.find?_duplicate hduplicate
    exact .add (block.duplicate newId) (hwf.find?_eq_none (hfresh newId rfl)) ⟨rfl, rfl, rfl⟩ hfound rfl
  | move id place =>
    refine hcases _ fun after hafter => ?_
    obtain ⟨g, hmove, rfl⟩ := map_eq_ok_iff.1 hafter
    obtain ⟨former, -, rfl⟩ := Graph.move_eq_ok_iff.1 hmove
    exact .of_graph_eq rfl rfl
  | updateConfig id patch =>
    rw [Edit.configured?, Edit.apply]
    cases hupdate : Session.updateConfig s id patch with
    | error error => exact hsame
    | ok made =>
      obtain ⟨block, config, hfind, hkind, hmade⟩ := updateConfig_eq_ok hupdate
      show Change s made.1 (some id)
      exact hmade ▸ change_replaceConfig hwf hfind hkind
  | setConfig id config =>
    rw [Edit.configured?, Edit.apply]
    cases hset : Session.setConfig s id config with
    | error error => exact hsame
    | ok made =>
      obtain ⟨block, hfind, hkind, hmade⟩ := setConfig_eq_ok hset
      show Change s made.1 (some id)
      exact hmade ▸ change_replaceConfig hwf hfind hkind
  | setPolicy policy => exact .of_graph_eq rfl rfl
  | setMetadata metadata => exact .of_graph_eq rfl rfl

/-- A block that is there before and after an edit is of the same kind. -/
theorem Change.kind_eq {configured? : Option BlockId} {former : Block} (h : Change s s' configured?)
    (hbefore : s.graph.find? id = some former) (hafter : s'.graph.find? id = some block) :
    block.kind = former.kind := by
  cases h with
  | relabel label found _ =>
    rw [found, hbefore] at hafter
    obtain rfl := Option.some.inj hafter
    rfl
  | add added new _ found _ =>
    rw [found] at hafter
    split at hafter
    · next hsame =>
        rw [hsame, new] at hbefore
        cases hbefore
    · exact congrArg Block.kind (Option.some.inj (hafter.symm.trans hbefore))
  | remove removed found _ =>
    rw [found] at hafter
    split at hafter
    · cases hafter
    · exact congrArg Block.kind (Option.some.inj (hafter.symm.trans hbefore))
  | configure other config configured hformer kind self found _ =>
    by_cases hsame : id = other
    · subst hsame
      rw [self] at hafter
      obtain rfl := Option.some.inj hafter
      obtain rfl := Option.some.inj (hformer.symm.trans hbefore)
      exact kind
    · rw [found id hsame, hbefore] at hafter
      obtain rfl := Option.some.inj hafter
      split <;> rfl

end Session

/-! ## Stored pipelines -/

/-- No block has run yet. -/
def Graph.Unrun (g : Graph) : Prop := ∀ id block, g.find? id = some block → block.Unrun

theorem Graph.Unrun.rename {label : String} (h : g.Unrun) (hrename : g.rename id label = .ok g') :
    g'.Unrun := by
  obtain ⟨-, -, rfl⟩ := Graph.rename_eq_ok_iff.1 hrename
  intro other block hfind
  rw [Graph.find?_modify] at hfind
  obtain ⟨former, hformer, rfl⟩ := Option.map_eq_some_iff.1 hfind
  have hunrun := h other former hformer
  split
  · exact ⟨hunrun.status, hunrun.outputTable, hunrun.isStale⟩
  · exact hunrun

theorem Graph.Unrun.addBlock {stored : BlockDefinition} (h : g.Unrun)
    (hadd : Definition.addBlock g stored = .ok g') : g'.Unrun := by
  obtain ⟨added, hconfig, hlabel⟩ := bind_eq_ok_iff.1 hadd
  have hadded : added.Unrun := by
    unfold Graph.addConfig at hconfig
    split at hconfig
    · cases hconfig
    · cases hconfig
      intro other block hfind
      rw [Graph.find?_add] at hfind
      split at hfind
      · cases hfind
        exact ⟨rfl, rfl, rfl⟩
      · exact h other block hfind
  cases hgiven : stored.label with
  | none =>
    rw [hgiven] at hlabel
    obtain rfl := Except.ok.inj hlabel
    exact hadded
  | some label =>
    rw [hgiven] at hlabel
    exact hadded.rename hlabel

theorem Graph.unrun_of_toGraph {definition : Definition} (h : definition.toGraph = .ok g) :
    g.Unrun := by
  obtain ⟨unlinked, hblocks, hlinks⟩ := bind_eq_ok_iff.1 h
  have hempty : Graph.empty.Unrun := fun _ _ hfind => by cases hfind
  have hunlinked : unlinked.Unrun :=
    foldlM_keeps (fun _ _ _ hunrun hadd => hunrun.addBlock hadd) hempty hblocks
  refine foldlM_keeps (fun link g g' hunrun hstep => ?_) hunlinked hlinks
  obtain ⟨⟨after, replaced⟩, hconnect, rfl⟩ := map_eq_ok_iff.1 hstep
  rwa [Graph.Unrun, Graph.find?_connect hconnect]

/-- In a session made from a stored pipeline nothing has run. -/
theorem Session.unrun_of_ofDefinition {definition : Definition} {s : Session}
    (h : ofDefinition definition = .ok s) : s.results = [] ∧ s.graph.Unrun := by
  obtain ⟨g, hgraph, hsession⟩ := bind_eq_ok_iff.1 h
  obtain rfl := Except.ok.inj hsession
  exact ⟨rfl, Graph.unrun_of_toGraph hgraph⟩

end BlockPipeline

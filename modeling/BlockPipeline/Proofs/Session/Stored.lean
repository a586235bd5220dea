import BlockPipeline.Proofs.Ascending
import BlockPipeline.Proofs.Session.Outputs

set_option autoImplicit false

/-! # Sessions known by what is found in them

The results of a session are kept in the order of identifiers (`Reachable.ascending`), and a graph
stores no block twice. So a session is known by what is found in it (`eq_of_found`), and a run of a
block that leaves the block and its result as they are leaves the session as it is
(`conclude_eq_self`). -/

namespace BlockPipeline

open Assoc (Ascending)

variable {g g' : Graph} {s s' : Session} {id : BlockId} {block : Block}

namespace Graph

theorem stored_keys_of_outline (h : g'.outline = g.outline) :
    g'.stored.map Prod.fst = g.stored.map Prod.fst := by
  have hstored : Assoc.mapValues Block.outline g'.stored = Assoc.mapValues Block.outline g.stored :=
    congrArg Prod.fst h
  rw [← Assoc.keys_mapValues Block.outline, hstored, Assoc.keys_mapValues]

/-- Graphs of one outline with equal blocks are equal. -/
theorem eq_of_found (hwf : g.WellFormed) (houtline : g'.outline = g.outline)
    (hfound : ∀ id, g'.find? id = g.find? id) : g' = g := by
  have hstored : g'.stored = g.stored :=
    Assoc.eq_of_keys hwf.keys_nodup (stored_keys_of_outline houtline) hfound
  have hids := ids_of_outline houtline
  have hlinks := links_of_outline houtline
  cases g'
  cases g
  simp only at hstored hids hlinks
  rw [hstored, hids, hlinks]

/-- A change that leaves its block as it is leaves the graph as it is. -/
theorem modify_eq_self (hwf : g.WellFormed) {change : Block → Block} (hfind : g.find? id = some block)
    (hsame : change block = block) : g.modify id change = g := by
  have hstored : Assoc.modify id change g.stored = g.stored := by
    refine Assoc.modify_eq_self hwf.keys_nodup fun found hfound => ?_
    have hblock : g.find? id = some found := hfound
    rw [hfind] at hblock
    rw [← Option.some.inj hblock, hsame]
  rw [modify, hstored]

end Graph

namespace Session

/-- Sessions in which the same is found are equal. -/
theorem eq_of_found (hwf : s.graph.WellFormed) (hs : Ascending s.results)
    (hs' : Ascending s'.results) (houtline : s'.graph.outline = s.graph.outline)
    (hmetadata : s'.metadata = s.metadata) (hpolicy : s'.policy = s.policy)
    (hfound : ∀ id, s'.graph.find? id = s.graph.find? id)
    (hresults : ∀ id, s'.results.find? id = s.results.find? id) : s' = s := by
  have hgraph : s'.graph = s.graph := Graph.eq_of_found hwf houtline hfound
  have hstore : s'.results = s.results := hs'.ext hs hresults
  cases s'
  cases s
  simp only at hmetadata hgraph hstore hpolicy
  rw [hmetadata, hgraph, hstore, hpolicy]

/-- A run of a block that finds the block and its result as it would leave them changes nothing. -/
theorem conclude_eq_self (hwf : s.graph.WellFormed) (hs : Ascending s.results)
    (hfind : s.graph.find? id = some block) {answer : Except String (TableName × BlockResult)}
    (hsettled : block.settle (some (s.conclude id answer).2) = block)
    (hcached : ∀ table result, answer = .ok (table, result) →
      table = block.targetTable ∧ s.results.find? id = some result) :
    (s.conclude id answer).1 = s := by
  cases answer with
  | error message =>
    show s.withGraph (s.graph.modify id (·.fail message)) = s
    rw [Graph.modify_eq_self hwf hfind hsettled]
    rfl
  | ok made =>
    obtain ⟨table, result⟩ := made
    obtain ⟨rfl, hresult⟩ := hcached table result rfl
    have hgraph := @Graph.modify_eq_self _ _ _ hwf (·.succeed block.targetTable) hfind hsettled
    have hresults : s.results.insert id result = s.results := hs.insert_eq_self hresult
    show { s with graph := s.graph.modify id _, results := s.results.insert id result } = s
    rw [hgraph, hresults]

/-! ## Results in order -/

theorem ascending_conclude (hs : Ascending s.results) (id : BlockId)
    (answer : Except String (TableName × BlockResult)) : Ascending (s.conclude id answer).1.results := by
  cases answer with
  | error message => exact hs
  | ok made => exact hs.insert id made.2

theorem ascending_of_steps {σ : Type} {engine : Engine σ} {config : RunConfig}
    {entry : BlockId → Prop} {p q : Progress σ} (hsteps : engine.Steps config entry p q)
    (hp : Ascending p.session.results) : Ascending q.session.results := by
  induction hsteps with
  | refl => exact hp
  | tail _ hstep ih =>
    cases hstep with
    | run found _ _ =>
      rw [Engine.visit_eq engine config found]
      exact ascending_conclude ih _ _
    | skip => exact ih

theorem Change.ascending {configured? : Option BlockId} (h : Change s s' configured?)
    (hs : Ascending s.results) : Ascending s'.results := by
  cases h with
  | relabel _ _ results => exact results ▸ hs
  | add _ _ _ _ results => exact results ▸ hs
  | remove id _ results =>
    rw [results]
    exact hs.erase id
  | configure _ _ _ _ _ _ _ results => exact results ▸ hs

/-- However a session came about, its results are in the order of identifiers. -/
theorem Reachable.ascending (h : s.Reachable) : Ascending s.results := by
  induction h with
  | empty => exact Assoc.ascending_nil
  | stored made => exact (unrun_of_ofDefinition made).1 ▸ Assoc.ascending_nil
  | edit edit past fresh ih => exact (change_of_edit past.wellFormed fresh).ascending ih
  | run engine config state id past ran ih =>
    exact ascending_of_steps (Engine.steps_of_run past.wellFormed ran) ih
  | runAll engine config state past ih =>
    exact ascending_of_steps (Engine.runAll_steps past.wellFormed engine config state).1 ih
  | removeBlock engine config state state' id block past removed ih =>
    exact (change_of_remove (remove_of_removeBlock removed)).ascending ih

end Session

end BlockPipeline

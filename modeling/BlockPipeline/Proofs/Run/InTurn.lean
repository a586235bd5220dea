import BlockPipeline.Proofs.Graph.Topological
import BlockPipeline.Proofs.Run.Calls
import BlockPipeline.Proofs.Run.Effect

set_option autoImplicit false

/-! # Load blocks in turn

The run of a whole pipeline keeps one list of the blocks that have been taken up, while each run of a
single block begins with an empty one. It comes to the same to run the load blocks one after the other
(`runAll_eq_runEach`): a cascade goes on as if nothing had been recorded before, as long as none of
the blocks that it can reach has been taken up (`cascade_after`), and below a load block there is no
block that is also below another one. -/

namespace BlockPipeline

variable {σ : Type}

/-- The same progress, with visits that were recorded before. -/
def Progress.after (former : Visits) (p : Progress σ) : Progress σ :=
  { p with visits := former ++ p.visits }

/-- The same way down, with blocks that were recorded and taken up before. -/
def Descent.after (former : Visits) (others : List BlockId) (d : Descent σ) : Descent σ :=
  ⟨d.progress.after former, d.taken ++ others, d.halted⟩

namespace Engine

/-- Runs blocks one after the other, each with all blocks below it, and puts the records together. -/
def runEach (engine : Engine σ) (config : RunConfig) (s : Session) (state : σ) (ids : List BlockId) :
    Except PipelineError (Progress σ) :=
  ids.foldlM (fun p id => do
    let q ← engine.run config p.session p.engineState id
    return q.after p.visits) ⟨s, state, []⟩

variable {engine : Engine σ} {config : RunConfig} {p : Progress σ} {d : Descent σ} {s : Session}
  {state : σ} {id root : BlockId} {former : Visits} {others taken : List BlockId}

/-! ## What was recorded before does not matter -/

theorem visit_after : engine.visit config (p.after former) id =
    ((engine.visit config p id).1.after former, (engine.visit config p id).2) := by
  have hsame : (p.after former).session.graph.find? id = p.session.graph.find? id := rfl
  unfold visit
  rw [hsame]
  cases p.session.graph.find? id with
  | none => rfl
  | some block =>
    show _ = ((⟨_, _, former ++ (p.visits ++ [_])⟩ : Progress σ), _)
    rw [← List.append_assoc]
    rfl

theorem descend_after (hnew : id ∉ others) : engine.descend config (d.after former others) id =
    (engine.descend config d id).after former others := by
  have htaken : id ∈ (d.after former others).taken ↔ id ∈ d.taken := by
    rw [Descent.after, List.mem_append, or_iff_left hnew]
  have hgraph : (d.after former others).progress.session.graph = d.progress.session.graph := rfl
  have hhalted : (d.after former others).halted = d.halted := rfl
  have hprogress : (d.after former others).progress = d.progress.after former := rfl
  unfold descend
  simp only [htaken]
  split
  · rfl
  · rw [hgraph, hhalted]
    split
    · simp only [Descent.after, Progress.after, List.append_assoc, List.cons_append]
    · rw [hprogress, visit_after]
      rfl

theorem foldl_descend_after {order : List BlockId} (hnew : ∀ id ∈ order, id ∉ others) :
    order.foldl (engine.descend config) (d.after former others) =
      (order.foldl (engine.descend config) d).after former others := by
  induction order generalizing d with
  | nil => rfl
  | cons id rest ih =>
    rw [List.foldl_cons, List.foldl_cons, descend_after (hnew id List.mem_cons_self)]
    exact ih fun other hother => hnew other (List.mem_cons_of_mem _ hother)

/-- Blocks that a cascade cannot reach may have been taken up before. -/
theorem cascade_after (hwf : p.session.graph.WellFormed) (hroot : root ∈ p.session.graph.ids)
    (hnew : ∀ id, Relation.ReflTransGen p.session.graph.Feeds root id → id ∉ others) :
    engine.cascade config (p.after former, others) root =
      ((engine.cascade config (p, []) root).1.after former,
        (engine.cascade config (p, []) root).2 ++ others) := by
  obtain ⟨block, hfind⟩ := hwf.mem_ids_iff.1 hroot
  -- the visit of the root changes no connection, so nothing else is below it now
  have houtline : (engine.visit config p root).1.session.graph.outline = p.session.graph.outline := by
    rw [visit_eq engine config hfind]
    exact Session.outline_conclude _ _ _
  have hbelow : ∀ id ∈ (engine.visit config p root).1.session.graph.downstreamOf root,
      id ∉ others := fun id hid => by
    have hr := (Graph.mem_downstreamOf (hwf.of_outline houtline)).1 hid
    rw [Graph.Reaches, Graph.feeds_of_outline houtline] at hr
    exact hnew id hr.to_reflTransGen
  rw [cascade_eq (hnew root .refl), cascade_eq List.not_mem_nil, visit_after]
  simp only
  split
  · have hstart : (⟨(engine.visit config p root).1.after former, root :: others, []⟩ : Descent σ) =
        Descent.after former others ⟨(engine.visit config p root).1, [root], []⟩ := rfl
    have hgraph : ((engine.visit config p root).1.after former).session.graph =
        (engine.visit config p root).1.session.graph := rfl
    rw [hstart, hgraph, foldl_descend_after hbelow]
    rfl
  · rfl

/-! ## One load block after the other -/

/-- When it is the turn of a load block, the cascade from it is a run of its own. -/
theorem Swept.run_eq_cascade (hwf : s.graph.WellFormed) {done : List BlockId}
    (h : Swept engine config s state done p taken) (hdone : done ⊆ s.graph.roots)
    (hroot : root ∈ s.graph.roots) (hnew : root ∉ done) :
    ∃ q, engine.run config p.session p.engineState root = .ok q ∧
      (engine.cascade config (p, taken) root).1 = q.after p.visits := by
  have houtline := Steps.outline_eq h.steps
  have hfeeds := Graph.feeds_of_outline houtline
  have hnow : p.session.graph.WellFormed := hwf.of_outline houtline
  obtain ⟨block, hfind, -⟩ := (mem_roots hwf).1 hroot
  have hid : root ∈ p.session.graph.ids :=
    Graph.ids_of_outline houtline ▸ hwf.mem_ids_iff.2 ⟨block, hfind⟩
  have huntaken : ∀ id, Relation.ReflTransGen p.session.graph.Feeds root id → id ∉ taken :=
    fun id hreached htaken => by
      have hvisited := (h.taken id).1 htaken
      rw [h.unvisited hwf hdone hroot hnew (hfeeds ▸ hreached)] at hvisited
      cases hvisited
  have hstart : p = Progress.after p.visits ⟨p.session, p.engineState, []⟩ := by
    rw [Progress.after, List.append_nil]
  refine ⟨_, run_eq hnow hid, ?_⟩
  conv_lhs => rw [hstart]
  rw [@cascade_after _ engine config ⟨p.session, p.engineState, []⟩ root p.visits taken hnow hid
    huntaken]

theorem Swept.runEach_eq_cascades (hwf : s.graph.WellFormed) {done rest : List BlockId}
    (h : Swept engine config s state done p taken) (hdone : done ⊆ s.graph.roots)
    (hrest : rest ⊆ s.graph.roots) (hnodup : rest.Nodup) (hnew : ∀ root ∈ rest, root ∉ done) :
    rest.foldlM (fun p id => do
        let q ← engine.run config p.session p.engineState id
        return q.after p.visits) p =
      Except.ok (ε := PipelineError) (rest.foldl (engine.cascade config) (p, taken)).1 := by
  induction rest generalizing p taken done with
  | nil => rfl
  | cons root rest ih =>
    obtain ⟨hroot, hrest⟩ := List.cons_subset.1 hrest
    have hnew' := Graph.not_mem_cons_of_new hnodup hnew
    have hfresh := hnew root List.mem_cons_self
    obtain ⟨q, hrun, hsame⟩ := h.run_eq_cascade hwf hdone hroot hfresh
    obtain ⟨next, taken', hcascade, hswept⟩ := h.next hwf hdone hroot hfresh
    rw [hcascade] at hsame
    rw [List.foldlM_cons, hrun, List.foldl_cons, hcascade]
    show List.foldlM _ (q.after p.visits) rest = _
    rw [← hsame]
    exact ih hswept (List.cons_subset.2 ⟨hroot, hdone⟩) hrest (List.nodup_cons.1 hnodup).2 hnew'

/-- What is a load block or below one is a block of the graph. -/
theorem mem_of_reached {g : Graph} (hwf : g.WellFormed) (hroot : root ∈ g.roots)
    (hr : Relation.ReflTransGen g.Feeds root id) : id ∈ g.ids := by
  rcases hr.cases_tail with rfl | ⟨feeder, -, hf⟩
  · obtain ⟨block, hfind, -⟩ := (mem_roots hwf).1 hroot
    exact hwf.mem_ids_iff.2 ⟨block, hfind⟩
  · exact hwf.fed_mem hf

/-- The run of a whole pipeline is the runs of its load blocks. -/
theorem runEach_roots (hwf : s.graph.WellFormed) (engine : Engine σ) (config : RunConfig) (state : σ) :
    engine.runEach config s state s.graph.roots = .ok (engine.runAll config s state) := by
  have hstart : Swept engine config s state [] ⟨s, state, []⟩ [] := ⟨.refl, taken_nil, by simp⟩
  exact hstart.runEach_eq_cascades hwf (List.nil_subset _) (List.Subset.refl _) (roots_nodup hwf)
    fun _ _ => List.not_mem_nil

/-- However a session came about and whatever the engine answers, to run the whole pipeline is to run
    each load block in pipeline order: the sessions, the states of the engine and the records are the
    same, and so are the calls, which an engine that notes them has in its state. No block is
    recorded twice, and a block is not run if no load block is on the way back from it. -/
theorem runAll_eq_runEach (h : s.Reachable) (engine : Engine σ) (config : RunConfig) (state : σ) :
    engine.runEach config s state s.graph.roots = .ok (engine.runAll config s state) ∧
      engine.transcribing.runEach config s (state, []) s.graph.roots =
        .ok (engine.transcribing.runAll config s (state, [])) ∧
      (engine.transcribing.runAll config s (state, [])).project Prod.fst =
        engine.runAll config s state ∧
      ((engine.runAll config s state).visits.map Visit.block).Nodup ∧
      ∀ id, (∀ above ∈ s.graph.chain id, above ∉ s.graph.roots) →
        id ∉ (engine.runAll config s state).visits.map Visit.block ∧
          (engine.runAll config s state).session.graph.find? id = s.graph.find? id ∧
          (engine.runAll config s state).session.results.find? id = s.results.find? id := by
  have hwf := h.wellFormed
  have hsteps := (runAll_steps hwf engine config state).1
  have hrecorded := Steps.recorded hsteps
  refine ⟨runEach_roots hwf engine config state, runEach_roots hwf engine.transcribing config _,
    (runAll_project engine.transcribing_mirrors s (state, [])).symm, hrecorded.nodup,
    fun id hlost => ?_⟩
  have habsent : id ∉ (engine.runAll config s state).visits.map Visit.block := fun hmem => by
    obtain ⟨root, hroot, hr⟩ : ∃ root ∈ s.graph.roots,
        Relation.ReflTransGen s.graph.Feeds root id := by
      rcases hrecorded.reached hmem with hroot | ⟨root, hroot, hr⟩
      · exact ⟨id, hroot, .refl⟩
      · exact ⟨root, hroot, hr.to_reflTransGen⟩
    exact hlost root ((Graph.mem_chain hwf (mem_of_reached hwf hroot hr)).2 hr) hroot
  have hnone := Visits.outcome?_eq_none_iff.2 habsent
  have heffect := Steps.effect hwf rfl hsteps
  exact ⟨habsent, heffect.find?_eq hnone, heffect.kept id (by simp [hnone])⟩

/-- Two load blocks, of which the second is moved to the front. The engine refuses the filter below the
    other one, and a sort is not connected. -/
theorem runEach_of_two_trees :
    let orders : BlockId := ⟨1⟩
    let filter : BlockId := ⟨2⟩
    let sort : BlockId := ⟨3⟩
    let people : BlockId := ⟨4⟩
    let insight : BlockId := ⟨5⟩
    let lost : BlockId := ⟨6⟩
    let s := [Session.Edit.addConfig orders (.load { tableName := "orders" }),
      .addConfig filter (.filter { column := "amount", value := some (.text "7") }),
      .addConfig sort (.sort { column := "amount" }),
      .addConfig people (.load { tableName := "people" }), .addKind insight .insight,
      .duplicate sort lost, .connect orders filter, .connect filter sort, .connect people insight,
      .move people 0].foldl Session.Edit.apply .empty
    let script : Scripted.Script := ⟨.replicate 7 (.ok []) ++ [.error ⟨"no column"⟩], [], []⟩
    let p := Scripted.engine.runAll {} s script
    s.Reachable ∧ Scripted.engine.runEach {} s script [people, orders] = .ok p ∧
      p.visits = [⟨people, .succeeded⟩, ⟨insight, .succeeded⟩, ⟨orders, .succeeded⟩,
        ⟨filter, .failed "no column"⟩, ⟨sort, .skipped⟩] ∧
      (∀ above ∈ s.graph.chain lost, above ∉ s.graph.roots) ∧
      lost ∉ p.visits.map Visit.block := by
  intro orders filter sort people insight lost s script p
  have hreach : s.Reachable := .edits .empty (by decide +kernel)
  have hlost : ∀ above ∈ s.graph.chain lost, above ∉ s.graph.roots := by decide +kernel
  have hroots : s.graph.roots = [people, orders] := by decide +kernel
  obtain ⟨hsame, -, -, -, habsent⟩ := runAll_eq_runEach hreach Scripted.engine {} script
  rw [hroots] at hsame
  exact ⟨hreach, hsame, by decide +kernel, hlost, (habsent lost hlost).1⟩

end Engine

end BlockPipeline

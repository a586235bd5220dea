import BlockPipeline.Proofs.Run.Record

set_option autoImplicit false

/-! # What a run does to a session

A run leaves the pipeline alone and changes a block only as far as it records something of it. The
steps of a run keep `Effect`, which says of each block how it stands after what was recorded of it so
far; at the end of a run this comes to a `RunEffect`, whatever the engine answers (`run_effect`). -/

namespace BlockPipeline

namespace Engine

variable {σ : Type} (engine : Engine σ) (config : RunConfig)

/-- The block was run when the run stood at `q`: its table was made, and then the result was fetched
    from it. -/
structure FetchedAt (start q p : Progress σ) (block : Block) (result : BlockResult) : Prop where
  before : engine.Steps config (fun _ => True) start q
  unvisited : q.visits.outcome? block.id = none
  found : q.session.graph.find? block.id = some block
  fetched : ∃ work made, q.session.work block = .ok work ∧
    engine.make work q.engineState = (.ok (), made) ∧
    engine.fetch config block.targetTable made =
      (.ok result, (engine.visit config q block.id).1.engineState)
  after : engine.Steps config (fun _ => True) (engine.visit config q block.id).1 p

/-- How a session stands when a run that began at `start` has come to `p`. -/
structure Effect (start p : Progress σ) : Prop where
  outline : p.session.graph.outline = start.session.graph.outline
  metadata : p.session.metadata = start.session.metadata
  policy : p.session.policy = start.session.policy
  settled : ∀ id, p.session.graph.find? id =
    (start.session.graph.find? id).map fun block => block.settle (p.visits.outcome? id)
  failed : ∀ id message, p.visits.outcome? id = some (.failed message) →
    ∃ block, start.session.graph.find? id = some block
  kept : ∀ id, p.visits.outcome? id ≠ some .succeeded →
    p.session.results.find? id = start.session.results.find? id
  fetched : ∀ id, p.visits.outcome? id = some .succeeded → ∃ block result q,
    start.session.graph.find? id = some block ∧ p.session.results.find? id = some result ∧
      engine.FetchedAt config start q p block result

variable {engine config} {start p q : Progress σ} {id : BlockId} {block : Block}

theorem FetchedAt.tail {r : Progress σ} {result : BlockResult}
    (h : engine.FetchedAt config start q p block result)
    (hstep : engine.Step config (fun _ => True) p r) :
    engine.FetchedAt config start q r block result :=
  { h with after := h.after.tail hstep }

theorem Effect.refl (hvisits : start.visits = []) : engine.Effect config start start := by
  have hnone : ∀ id, start.visits.outcome? id = none := fun id => by
    rw [hvisits]
    rfl
  refine ⟨rfl, rfl, rfl, fun id => ?_, fun id message hfail => ?_, fun _ _ => rfl,
    fun id hsuccess => ?_⟩
  · rw [hnone]
    cases start.session.graph.find? id <;> rfl
  · rw [hnone] at hfail
    cases hfail
  · rw [hnone] at hsuccess
    cases hsuccess

/-- A block that has not been visited is found as it was at the start. -/
theorem Effect.find?_eq (h : engine.Effect config start p) (hnone : p.visits.outcome? id = none) :
    p.session.graph.find? id = start.session.graph.find? id := by
  rw [h.settled, hnone]
  cases start.session.graph.find? id <;> rfl

/-- A block whose feeder has succeeded reads the table of the feeder. -/
theorem Effect.inputTable?_eq {feeder : BlockId} (h : engine.Effect config start p)
    (hf : start.session.graph.Feeds feeder id)
    (hfind : start.session.graph.find? feeder = some block)
    (hsuccess : p.visits.outcome? feeder = some .succeeded) :
    p.session.inputTable? id = some block.targetTable := by
  have hinput : p.session.graph.inputOf id = some feeder :=
    (congrFun (Graph.inputOf_of_outline h.outline) id).trans hf
  have hnow : p.session.graph.find? feeder = some (block.settle (some .succeeded)) := by
    rw [h.settled, hsuccess, hfind, Option.map_some]
  unfold Session.inputTable?
  rw [hinput]
  show (p.session.graph.find? feeder).bind Block.outputTable = _
  rw [hnow]
  rfl

/-- When an attempt succeeds, the result is fetched right then. -/
theorem fetchedAt_visit (hsteps : engine.Steps config (fun _ => True) start p)
    (found : p.session.graph.find? block.id = some block)
    (unvisited : p.visits.outcome? block.id = none) {table : TableName} {result : BlockResult}
    (hanswer : (engine.attempt config p.session block p.engineState).1 = .ok (table, result)) :
    engine.FetchedAt config start p (engine.visit config p block.id).1 block result := by
  obtain ⟨-, work, hwork, hperform⟩ :=
    attempt_eq_ok engine (Prod.ext hanswer rfl :
      engine.attempt config p.session block p.engineState = (.ok (table, result), _))
  rw [perform_eq] at hperform
  obtain ⟨_, made, hmake, hfetch⟩ := Action.bind_run_eq_ok hperform
  rw [Session.work_output hwork] at hfetch
  refine ⟨hsteps, unvisited, found, ⟨work, made, hwork, hmake, ?_⟩, .refl⟩
  rw [visit_eq engine config found]
  exact hfetch

/-- A step at a block that leaves the other blocks alone: only the block itself has to be looked at. -/
theorem Effect.extend (h : engine.Effect config start p)
    (hstep : engine.Step config (fun _ => True) p q)
    (hmetadata : q.session.metadata = p.session.metadata)
    (hpolicy : q.session.policy = p.session.policy)
    (hother : ∀ other, other ≠ id →
      q.session.graph.find? other = p.session.graph.find? other ∧
        q.session.results.find? other = p.session.results.find? other ∧
        q.visits.outcome? other = p.visits.outcome? other)
    (hsettled : q.session.graph.find? id =
      (start.session.graph.find? id).map fun block => block.settle (q.visits.outcome? id))
    (hfailed : ∀ message, q.visits.outcome? id = some (.failed message) →
      ∃ block, start.session.graph.find? id = some block)
    (hkept : q.visits.outcome? id ≠ some .succeeded →
      q.session.results.find? id = start.session.results.find? id)
    (hfetched : q.visits.outcome? id = some .succeeded → ∃ block result r,
      start.session.graph.find? id = some block ∧ q.session.results.find? id = some result ∧
        engine.FetchedAt config start r q block result) : engine.Effect config start q where
  outline := hstep.outline_eq.trans h.outline
  metadata := hmetadata.trans h.metadata
  policy := hpolicy.trans h.policy
  settled other := by
    by_cases hsame : other = id
    · rw [hsame, hsettled]
    · obtain ⟨hfind, -, houtcome⟩ := hother other hsame
      rw [hfind, houtcome, h.settled]
  failed other message hfail := by
    by_cases hsame : other = id
    · exact hsame ▸ hfailed message (hsame ▸ hfail)
    · exact h.failed other message ((hother other hsame).2.2 ▸ hfail)
  kept other hnot := by
    by_cases hsame : other = id
    · exact hsame ▸ hkept (hsame ▸ hnot)
    · obtain ⟨-, hresult, houtcome⟩ := hother other hsame
      exact hresult.trans (h.kept other (houtcome ▸ hnot))
  fetched other hsuccess := by
    by_cases hsame : other = id
    · subst hsame
      exact hfetched hsuccess
    · obtain ⟨-, hsameResult, houtcome⟩ := hother other hsame
      obtain ⟨block, result, r, hfound, hresult, hat⟩ := h.fetched other (houtcome ▸ hsuccess)
      exact ⟨block, result, r, hfound, hsameResult.trans hresult, hat.tail hstep⟩

/-- Running a block changes that block only. -/
theorem Effect.visit (hwf : start.session.graph.WellFormed)
    (hsteps : engine.Steps config (fun _ => True) start p) (h : engine.Effect config start p)
    (found : p.session.graph.find? id = some block) (unvisited : p.visits.outcome? id = none) :
    engine.Effect config start (engine.visit config p id).1 := by
  have hstep : engine.Step config (fun _ => True) p (engine.visit config p id).1 :=
    .run found unvisited (.inl trivial)
  -- not having been visited, the block still stands as it stood at the start
  have hstart : start.session.graph.find? id = some block := (h.find?_eq unvisited).symm.trans found
  obtain rfl := hwf.id_of_find? hstart
  have hvisit := visit_eq engine config found
  have houtcome : (engine.visit config p block.id).1.visits.outcome? block.id =
      some (p.session.conclude block.id
        (engine.attempt config p.session block p.engineState).1).2 := by
    rw [hvisit]
    exact Visits.outcome?_append_self unvisited
  refine h.extend hstep ?_ ?_ (fun other (hne : other ≠ block.id) => ?_) ?_
    (fun _ _ => ⟨block, hstart⟩) (fun hnot => ?_) (fun hsuccess => ?_)
  · rw [hvisit]
    exact Session.metadata_conclude _ _ _
  · rw [hvisit]
    exact Session.policy_conclude _ _ _
  · rw [hvisit]
    exact ⟨Session.find?_conclude_of_ne hne _, Session.results_conclude_of_ne hne _,
      Visits.outcome?_append_of_ne hne.symm⟩
  · rw [houtcome, hstart, Option.map_some, hvisit]
    exact Session.find?_conclude_self found fun table result hanswer =>
      (attempt_eq_ok engine (Prod.ext hanswer rfl)).1
  · rw [houtcome] at hnot
    rw [← h.kept block.id (by simp [unvisited]), hvisit]
    exact Session.results_conclude_of_failure fun hsuccess => hnot (congrArg some hsuccess)
  · rw [houtcome] at hsuccess
    obtain ⟨table, result, hanswer⟩ := Session.conclude_eq_succeeded (Option.some.inj hsuccess)
    refine ⟨block, result, p, hstart, ?_, fetchedAt_visit hsteps found unvisited hanswer⟩
    rw [hvisit, hanswer]
    exact Assoc.find?_insert_self _ _ _

/-- Skipping a block changes nothing. -/
theorem Effect.skip (h : engine.Effect config start p) (unvisited : p.visits.outcome? id = none)
    (hstep : engine.Step config (fun _ => True) p
      { p with visits := p.visits ++ [⟨id, .skipped⟩] }) :
    engine.Effect config start { p with visits := p.visits ++ [⟨id, .skipped⟩] } := by
  have houtcome : Visits.outcome? (p.visits ++ [⟨id, .skipped⟩]) id = some .skipped :=
    Visits.outcome?_append_self unvisited
  refine h.extend hstep rfl rfl
    (fun other hne => ⟨rfl, rfl, Visits.outcome?_append_of_ne hne.symm⟩) ?_ (fun message hfail => ?_)
    (fun _ => h.kept id (by simp [unvisited])) (fun hsuccess => ?_)
  · rw [houtcome]
    show p.session.graph.find? id = _
    rw [h.find?_eq unvisited]
    cases start.session.graph.find? id <;> rfl
  · rw [houtcome] at hfail
    cases hfail
  · rw [houtcome] at hsuccess
    cases hsuccess

theorem Steps.effect {entry : BlockId → Prop} (hwf : start.session.graph.WellFormed)
    (hvisits : start.visits = []) (hsteps : engine.Steps config entry start p) :
    engine.Effect config start p := by
  induction hsteps with
  | refl => exact .refl hvisits
  | tail hbefore hstep ih =>
    have hany := hstep.imp fun _ _ => trivial
    cases hstep with
    | run found unvisited _ =>
      exact ih.visit hwf (Steps.imp (fun _ _ => trivial) hbefore) found unvisited
    | skip unvisited _ _ _ => exact ih.skip unvisited hany

theorem runAll_effect {s : Session} (hwf : s.graph.WellFormed) (engine : Engine σ)
    (config : RunConfig) (state : σ) :
    engine.Effect config ⟨s, state, []⟩ (engine.runAll config s state) :=
  Steps.effect hwf rfl (runAll_steps hwf engine config state).1

/-- A run of a whole pipeline records no block twice. -/
theorem runAll_once {s : Session} (hwf : s.graph.WellFormed) (engine : Engine σ) (config : RunConfig)
    (state : σ) : ((engine.runAll config s state).visits.map Visit.block).Nodup :=
  (Steps.recorded (runAll_steps hwf engine config state).1).nodup

end Engine

/-! ## Runs -/

/-- The run of one block or of the whole pipeline. -/
inductive Engine.Ran {σ : Type} (engine : Engine σ) (config : RunConfig) (s : Session) (state : σ) :
    Progress σ → Prop where
  | one {id : BlockId} {p : Progress σ} (ran : engine.run config s state id = .ok p) :
    Ran engine config s state p
  | all : Ran engine config s state (engine.runAll config s state)

theorem Engine.Ran.steps {σ : Type} {engine : Engine σ} {config : RunConfig} {s : Session} {state : σ}
    {p : Progress σ} (hwf : s.graph.WellFormed) (hran : engine.Ran config s state p) :
    ∃ entry, engine.Steps config entry ⟨s, state, []⟩ p := by
  cases hran with
  | one ran => exact ⟨_, Engine.steps_of_run hwf ran⟩
  | all => exact ⟨_, (Engine.runAll_steps hwf engine config state).1⟩

/-- What a run has done to the session `s`. -/
structure RunEffect {σ : Type} (engine : Engine σ) (config : RunConfig) (s : Session) (state : σ)
    (p : Progress σ) : Prop where
  ids : p.session.graph.ids = s.graph.ids
  /-- The labels and configurations of the blocks, in pipeline order. -/
  blocks : p.session.graph.blocks.map Block.outline = s.graph.blocks.map Block.outline
  links : p.session.graph.links = s.graph.links
  definition : p.session.definition = s.definition
  policy : p.session.policy = s.policy
  plan : p.session.plan = s.plan
  /-- No block is recorded twice. -/
  once : (p.visits.map Visit.block).Nodup
  absent : ∀ id, id ∉ p.visits.map Visit.block →
    p.session.graph.find? id = s.graph.find? id ∧
      p.session.results.find? id = s.results.find? id
  skipped : ∀ id, ⟨id, .skipped⟩ ∈ p.visits →
    p.session.graph.find? id = s.graph.find? id ∧
      p.session.results.find? id = s.results.find? id
  failed : ∀ id message, ⟨id, .failed message⟩ ∈ p.visits → ∃ block,
    s.graph.find? id = some block ∧
      p.session.graph.find? id = some { block with status := .error message } ∧
      p.session.results.find? id = s.results.find? id
  /-- The result kept is the one that was fetched when the block was run. -/
  succeeded : ∀ id, ⟨id, .succeeded⟩ ∈ p.visits → ∃ block result q,
    s.graph.find? id = some block ∧
      p.session.graph.find? id = some { block with
        status := .success, outputTable := some block.targetTable, isStale := false } ∧
      p.session.results.find? id = some result ∧
      engine.FetchedAt config ⟨s, state, []⟩ q p block result

/-- However a session came about and whatever the engine answers, a run changes of it only the blocks
    that it records as run, and of these only how they went. -/
theorem run_effect {σ : Type} {s : Session} (h : s.Reachable) {engine : Engine σ}
    {config : RunConfig} {state : σ} {p : Progress σ} (hran : engine.Ran config s state p) :
    RunEffect engine config s state p := by
  have hwf := h.wellFormed
  obtain ⟨entry, hsteps⟩ := hran.steps hwf
  have heffect := Engine.Steps.effect hwf rfl hsteps
  have hnodup := (Engine.Steps.recorded hsteps).nodup
  have houtcome : ∀ {id outcome}, ⟨id, outcome⟩ ∈ p.visits → p.visits.outcome? id = some outcome :=
    fun hmem => (Visits.outcome?_eq_some_iff hnodup).2 hmem
  refine
    { ids := Graph.ids_of_outline heffect.outline
      blocks := Graph.blocks_of_outline heffect.outline
      links := Graph.links_of_outline heffect.outline
      definition := ?_
      policy := heffect.policy
      plan := Plan.ofGraph_of_outline heffect.outline
      once := hnodup
      absent := fun id habsent => ?_
      skipped := fun id hskipped => ?_
      failed := fun id message hfailed => ?_
      succeeded := fun id hsuccess => ?_ }
  · rw [Session.definition, Session.definition, heffect.metadata]
    exact Definition.ofGraph_of_outline heffect.outline _
  · have hnone := Visits.outcome?_eq_none_iff.2 habsent
    exact ⟨heffect.find?_eq hnone, heffect.kept id (by simp [hnone])⟩
  · have hskip := houtcome hskipped
    refine ⟨?_, heffect.kept id (by simp [hskip])⟩
    rw [heffect.settled, hskip]
    show (s.graph.find? id).map _ = _
    cases s.graph.find? id <;> rfl
  · have hfail := houtcome hfailed
    obtain ⟨block, hfound⟩ : ∃ block, s.graph.find? id = some block :=
      heffect.failed id message hfail
    refine ⟨block, hfound, ?_, heffect.kept id (by simp [hfail])⟩
    rw [heffect.settled, hfound, hfail]
    rfl
  · obtain ⟨block, result, q, hfound, hresult, hfetched⟩ := heffect.fetched id (houtcome hsuccess)
    refine ⟨block, result, q, hfound, ?_, hresult, hfetched⟩
    rw [heffect.settled, hfound, houtcome hsuccess]
    rfl

/-- A pipeline that has run before. In the next run the engine refuses the statement of the filter,
    whose former output remains. -/
theorem effect_after_refused_filter :
    let load : BlockId := ⟨1⟩
    let filter : BlockId := ⟨2⟩
    let sort : BlockId := ⟨3⟩
    let edited := [Session.Edit.addConfig load (.load { tableName := "orders" }),
      .addConfig filter (.filter { column := "amount", value := some (.text "7") }),
      .addConfig sort (.sort { column := "amount" }), .connect load filter,
      .connect filter sort].foldl Session.Edit.apply .empty
    let s := (Scripted.engine.runAll {} edited ⟨[], [], []⟩).session
    let script : Scripted.Script := ⟨[.ok [], .ok [], .error ⟨"no column"⟩], [], []⟩
    let p := Scripted.engine.runAll {} s script
    s.Reachable ∧ Scripted.engine.Ran {} s script p ∧
      p.visits = [⟨load, .succeeded⟩, ⟨filter, .failed "no column"⟩, ⟨sort, .skipped⟩] ∧
      (p.session.graph.find? filter).map Block.outputTable = some (some (.derived filter)) ∧
      RunEffect Scripted.engine {} s script p := by
  intro load filter sort edited s script p
  have hreach : s.Reachable := .runAll _ _ _ (.edits .empty (by decide +kernel))
  exact ⟨hreach, .all, by decide +kernel, by decide +kernel, run_effect hreach .all⟩

end BlockPipeline

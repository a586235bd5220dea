import BlockPipeline.Proofs.Engine.Transcript
import BlockPipeline.Proofs.Run.Cascades

set_option autoImplicit false

/-! # The calls of a run

To run a block is to ask for the calls of its work: the statement that makes the table, if there is
one, and the three calls that fetch the result. On engines that give the same answers runs come to the
same, so a run may be looked at on the engine that notes its calls. -/

namespace BlockPipeline

/-- The calls that make a table and fetch its result. -/
def Work.calls (work : Work) (config : RunConfig) : List Call :=
  work.statement.toList.map Call.execute ++ [.describe work.output,
    .execute (Sql.preview work.output config.previewLimit).text,
    .execute (Sql.countRows work.output).text]

/-- The progress of a run on an engine whose state is a part of this one's. -/
def Progress.project {σ τ : Type} (project : τ → σ) (p : Progress τ) : Progress σ :=
  ⟨p.session, project p.engineState, p.visits⟩

/-- The same of a way down from a block. -/
def Descent.project {σ τ : Type} (project : τ → σ) (d : Descent τ) : Descent σ :=
  ⟨d.progress.project project, d.taken, d.halted⟩

namespace Engine

variable {σ τ : Type} {engine : Engine σ} {mirror : Engine τ} {project : τ → σ} {config : RunConfig}

/-! ## Calls -/

theorem make_asks (work : Work) :
    Asks (engine.transcribing.make work) (work.statement.toList.map Call.execute) := by
  unfold make
  cases work.statement with
  | none => exact .pure ()
  | some statement =>
    have hcalls : (some statement).toList.map Call.execute = [.execute statement] ++ [] := rfl
    rw [hcalls]
    exact (Asks.exchanging _ _).bind fun _ => .pure ()

theorem fetch_asks (table : TableName) :
    Asks (engine.transcribing.fetch config table) [.describe table,
      .execute (Sql.preview table config.previewLimit).text,
      .execute (Sql.countRows table).text] := by
  unfold fetch
  refine (Asks.exchanging (.describe table) _).bind fun columns => ?_
  refine (Asks.exchanging (.execute (Sql.preview table config.previewLimit).text) _).bind fun rows => ?_
  exact (Asks.exchanging (.execute (Sql.countRows table).text) _).bind fun counted => .pure _

theorem perform_asks (work : Work) :
    Asks (engine.transcribing.perform config work) (work.calls config) := by
  rw [perform_eq]
  exact (make_asks work).bind fun _ => fetch_asks work.output

/-- A block that cannot run asks for no call. -/
theorem attempt_of_no_task {s : Session} {block : Block} {message : String} (state : σ)
    (htask : s.task block = .error message) :
    engine.attempt config s block state = (.error message, state) := by
  unfold attempt
  rw [htask]

/-- A block that can run asks for the calls of its work. It succeeds if none of them is refused, and
    fails otherwise with the error of the refusal. -/
theorem attempt_asks {s : Session} {block : Block} {work : Work} (state : σ)
    (transcript : Transcript) (htask : s.task block = .ok work) :
    ∃ answer after segment refusal,
      engine.transcribing.attempt config s block (state, transcript) =
        (answer, (after, transcript ++ segment)) ∧
      Answered (work.calls config) segment refusal ∧
      (refusal = none → ∃ result, answer = .ok (work.output, result)) ∧
      ∀ error, refusal = some error → answer = .error error.message := by
  obtain ⟨answer, after, segment, hperform, hanswered⟩ :=
    @perform_asks _ engine config work state transcript
  unfold attempt
  rw [htask]
  simp only [hperform]
  -- the attempt fails where the calls do, with the words of the engine
  cases answer with
  | ok result =>
    refine ⟨_, after, segment, none, rfl, hanswered, fun _ => ⟨result, rfl⟩, fun error h => ?_⟩
    cases h
  | error error =>
    refine ⟨_, after, segment, some error, rfl, hanswered, fun h => ?_, fun other h => ?_⟩
    · cases h
    · rw [Option.some.inj h]

/-- What was noted stays noted. -/
theorem attempt_transcript (s : Session) (block : Block) (state : σ) (transcript : Transcript) :
    transcript <+: (engine.transcribing.attempt config s block (state, transcript)).2.2 := by
  cases htask : s.task block with
  | error message =>
    have hattempt : engine.transcribing.attempt config s block (state, transcript) =
        (.error message, (state, transcript)) := attempt_of_no_task _ htask
    exact hattempt ▸ List.prefix_rfl
  | ok work =>
    obtain ⟨answer, after, segment, _, hattempt, -⟩ :=
      @attempt_asks _ engine config s block work state transcript htask
    rw [hattempt]
    exact List.prefix_append _ _

theorem Step.transcript {entry : BlockId → Prop} {p q : Progress (σ × Transcript)}
    (h : engine.transcribing.Step config entry p q) : p.engineState.2 <+: q.engineState.2 := by
  cases h with
  | run found _ _ =>
    rw [visit_eq _ config found]
    exact attempt_transcript _ _ _ _
  | skip => exact List.prefix_rfl

/-! ## Runs on engines with the same answers -/

theorem make_mirrors (h : Engine.Mirrors project mirror engine) (work : Work) :
    Action.Mirrors project (mirror.make work) (engine.make work) := by
  unfold make
  cases work.statement with
  | none => exact .pure _ _
  | some statement => exact (h.execute statement).bind fun _ => .pure _ _

theorem fetch_mirrors (h : Engine.Mirrors project mirror engine) (table : TableName) :
    Action.Mirrors project (mirror.fetch config table) (engine.fetch config table) := by
  unfold fetch
  refine (h.describe table).bind fun columns => ?_
  refine (h.execute _).bind fun rows => ?_
  exact (h.execute _).bind fun counted => .pure _ _

theorem attempt_mirrors (h : Engine.Mirrors project mirror engine) (s : Session) (block : Block)
    (state : τ) : engine.attempt config s block (project state) =
      ((mirror.attempt config s block state).1, project (mirror.attempt config s block state).2) := by
  have hperform : ∀ work, engine.perform config work (project state) =
      ((mirror.perform config work state).1, project (mirror.perform config work state).2) := by
    intro work
    rw [perform_eq, perform_eq]
    exact (make_mirrors h work).bind (fun _ => fetch_mirrors h work.output) state
  unfold attempt
  cases s.task block with
  | error message => rfl
  | ok work =>
    simp only [hperform]
    cases mirror.perform config work state with
    | mk answer after => cases answer <;> rfl

variable {p : Progress τ} {d : Descent τ} {id : BlockId}

theorem visit_project (h : Engine.Mirrors project mirror engine) :
    engine.visit config (p.project project) id =
      ((mirror.visit config p id).1.project project, (mirror.visit config p id).2) := by
  have hsame : (p.project project).session.graph.find? id = p.session.graph.find? id := rfl
  unfold visit
  rw [hsame]
  cases p.session.graph.find? id with
  | none => rfl
  | some block =>
    have hattempt := @attempt_mirrors _ _ engine mirror project config h p.session block p.engineState
    simp only [runBlock_eq, Progress.project, hattempt]

theorem descend_project (h : Engine.Mirrors project mirror engine) :
    engine.descend config (d.project project) id = (mirror.descend config d id).project project := by
  unfold descend
  have htaken : (d.project project).taken = d.taken := rfl
  have hhalted : (d.project project).halted = d.halted := rfl
  have hprogress : (d.project project).progress = d.progress.project project := rfl
  have hgraph : (d.progress.project project).session.graph = d.progress.session.graph := rfl
  rw [htaken, hhalted, hprogress, hgraph, visit_project h]
  split
  · rfl
  · split <;> rfl

theorem cascade_project (h : Engine.Mirrors project mirror engine) (taken : List BlockId) :
    engine.cascade config (p.project project, taken) id =
      ((mirror.cascade config (p, taken) id).1.project project,
        (mirror.cascade config (p, taken) id).2) := by
  by_cases htaken : id ∈ taken
  · rw [cascade, cascade, if_pos htaken, if_pos htaken]
  rw [cascade_eq htaken, cascade_eq htaken, visit_project h]
  simp only
  split
  · have hfold := @List.foldl_hom _ _ _ (Descent.project project) (mirror.descend config)
      (engine.descend config) ((mirror.visit config p id).1.session.graph.downstreamOf id)
      ⟨(mirror.visit config p id).1, id :: taken, []⟩ fun d id => descend_project h
    have hgraph : ((mirror.visit config p id).1.project project).session.graph =
        (mirror.visit config p id).1.session.graph := rfl
    have hstart : Descent.project project ⟨(mirror.visit config p id).1, id :: taken, []⟩ =
        ⟨(mirror.visit config p id).1.project project, id :: taken, []⟩ := rfl
    rw [hgraph, ← hstart, hfold]
    rfl
  · rfl

/-- A run of a block comes to the same on engines that give the same answers. -/
theorem run_project (h : Engine.Mirrors project mirror engine) (s : Session) (state : τ) :
    engine.run config s (project state) id =
      Progress.project project <$> mirror.run config s state id := by
  unfold run
  split
  · exact congrArg (fun reached => Except.ok reached.1)
      (cascade_project (p := ⟨s, state, []⟩) h [])
  · rfl

/-- A run of the whole pipeline comes to the same on engines that give the same answers. -/
theorem runAll_project (h : Engine.Mirrors project mirror engine) (s : Session) (state : τ) :
    engine.runAll config s (project state) = (mirror.runAll config s state).project project := by
  have hstep : ∀ (reached : Progress τ × List BlockId) id,
      engine.cascade config (Prod.map (Progress.project project) (fun taken => taken) reached) id =
        Prod.map (Progress.project project) (fun taken => taken) (mirror.cascade config reached id) :=
    fun reached id => cascade_project h reached.2
  exact congrArg Prod.fst
    (@List.foldl_hom _ _ _ _ _ _ s.graph.roots (⟨s, state, []⟩, []) hstep)

/-! ## What runs keep -/

theorem attempt_keeps {holds : σ → Prop} (h : engine.Keeps holds) (s : Session) (block : Block)
    {state : σ} (hstate : holds state) : holds (engine.attempt config s block state).2 := by
  have hmake : ∀ work, Action.Keeps holds (engine.make work) := fun work => by
    unfold make
    cases work.statement with
    | none => exact .pure _ _
    | some statement => exact (h.execute statement).bind fun _ => .pure _ _
  have hfetch : ∀ table, Action.Keeps holds (engine.fetch config table) := fun table => by
    unfold fetch
    refine (h.describe table).bind fun columns => ?_
    refine (h.execute _).bind fun rows => ?_
    exact (h.execute _).bind fun counted => .pure _ _
  unfold attempt
  cases s.task block with
  | error message => exact hstate
  | ok work =>
    have hperform : holds (engine.perform config work state).2 := by
      rw [perform_eq]
      exact (hmake work).bind (fun _ => hfetch work.output) state hstate
    simp only
    cases hanswer : engine.perform config work state with
    | mk answer after =>
      rw [hanswer] at hperform
      cases answer <;> exact hperform

/-- What no call changes, no run changes. -/
theorem Steps.keeps {holds : σ → Prop} (h : engine.Keeps holds) {entry : BlockId → Prop}
    {p q : Progress σ} (hsteps : engine.Steps config entry p q) (hp : holds p.engineState) :
    holds q.engineState := by
  induction hsteps with
  | refl => exact hp
  | tail _ hstep ih =>
    cases hstep with
    | run found _ _ =>
      rw [visit_eq engine config found]
      exact attempt_keeps h _ _ ih
    | skip => exact ih

end Engine

end BlockPipeline

import BlockPipeline.Proofs.Run.Calls
import BlockPipeline.Proofs.Run.Effect
import BlockPipeline.Proofs.Sql.Creation

set_option autoImplicit false

/-! # Turn by turn

The calls of a run are the calls of its turns, one turn after the other. It is the turn of a block when
the run visits it. `Told` says which calls are made then and what is recorded, from the session as it
stands at that moment; `Conducted` says it of all turns of a run. In particular the table that a block
reads has been made earlier in the same run, unless the run began with the block. -/

namespace BlockPipeline

variable {σ : Type} {config : RunConfig} {s : Session} {block : Block} {id feeder : BlockId}
  {calls : List Call} {segment : Transcript} {outcome : Outcome}

/-! ## Calls and what comes of them -/

/-- The call as it is noted when it is not refused. -/
def Call.accepted (call : Call) : Exchange := ⟨call, none⟩

/-- All calls were made and none was refused, or they were made up to the first one that was refused,
    and its refusal was recorded. -/
inductive Answers (calls : List Call) : Outcome → Transcript → Prop where
  | complete : Answers calls .succeeded (calls.map Call.accepted)
  | refused {made rest : List Call} {call : Call} (error : EngineError)
    (split : calls = made ++ call :: rest) :
    Answers calls (.failed error.message) (made.map Call.accepted ++ [⟨call, some error⟩])

namespace Answered

theorem eq_accepted (h : Answered calls segment none) : segment = calls.map Call.accepted := by
  induction calls generalizing segment with
  | nil =>
    cases h
    rfl
  | cons call calls ih =>
    cases h with
    | accepted rest => rw [ih rest, List.map_cons, Call.accepted]

theorem exists_refused {error : EngineError} (h : Answered calls segment (some error)) :
    ∃ made call rest, calls = made ++ call :: rest ∧
      segment = made.map Call.accepted ++ [⟨call, some error⟩] := by
  induction calls generalizing segment with
  | nil => cases h
  | cons call calls ih =>
    cases h with
    | accepted rest =>
      obtain ⟨made, last, more, rfl, rfl⟩ := ih rest
      exact ⟨call :: made, last, more, rfl, rfl⟩
    | refused => exact ⟨[], call, calls, rfl, rfl⟩

end Answered

namespace Answers

/-- The calls that were made are an initial part of the calls. -/
theorem initial (h : Answers calls outcome segment) : segment.map Exchange.call <+: calls := by
  have hcalls (calls : List Call) : (calls.map Call.accepted).map Exchange.call = calls := by
    rw [List.map_map, show Exchange.call ∘ Call.accepted = id from rfl, List.map_id]
  cases h with
  | complete => exact ⟨[], by rw [List.append_nil, hcalls]⟩
  | @refused made rest call error split =>
    rw [List.map_append, hcalls, split]
    exact (List.prefix_append_right_inj made).2 (List.prefix_append [_] rest)

end Answers

/-! ## One turn -/

/-- The calls that fetch the result of a table. -/
def fetchCalls (config : RunConfig) (table : TableName) : List Call :=
  [.describe table, .execute (Sql.preview table config.previewLimit).text,
    .execute (Sql.countRows table).text]

/-- What is recorded of a block that is run while the session stands at `s`, and the calls that are
    made for it. -/
inductive Told (config : RunConfig) (s : Session) (block : Block) : Outcome → Transcript → Prop where
  /-- No call is made for a block that is not complete. -/
  | incomplete {error : ValidationError} (invalid : block.config.validate = .error error) :
    Told config s block (.failed error.message) []
  /-- Nor is one made if there is no table to read. -/
  | unfed (valid : block.config.validate = .ok ()) (kind : block.kind ≠ .load)
    (none : s.inputTable? block.id = none) :
    Told config s block (.failed PipelineError.missingInput.message) []
  /-- The result of a load block is fetched from its source table. -/
  | load {load : LoadConfig} {outcome : Outcome} {segment : Transcript}
    (valid : block.config.validate = .ok ()) (config_eq : block.config = .load load)
    (answers : Answers (fetchCalls config ⟨load.tableName⟩) outcome segment) :
    Told config s block outcome segment
  /-- The table of another block is made first. -/
  | fed {input : TableName} {outcome : Outcome} {segment : Transcript}
    (valid : block.config.validate = .ok ()) (kind : block.kind ≠ .load)
    (input_eq : s.inputTable? block.id = some input)
    (answers : Answers (.execute (Sql.compile block.config input (.derived block.id)).text ::
      fetchCalls config (.derived block.id)) outcome segment) :
    Told config s block outcome segment

/-- A block that is not complete or has nothing to read fails without a call. -/
theorem Told.of_task_error {message : String} (h : s.task block = .error message) :
    Told config s block (.failed message) [] := by
  unfold Session.task at h
  split at h
  · next error hinvalid =>
    obtain rfl := Except.error.inj h
    exact .incomplete hinvalid
  · next hvalid =>
    split at h
    · next error hwork =>
      obtain rfl := Except.error.inj h
      unfold Session.work at hwork
      split_ifs at hwork with hsource
      split at hwork
      · next hnone =>
        obtain rfl := Except.error.inj hwork
        exact .unfed hvalid (by simpa [BlockKind.isSource] using hsource) hnone
      · cases hwork
    · cases h

/-- A block that has something to do is told by the calls of its work. -/
theorem Told.of_task {work : Work} (h : s.task block = .ok work)
    (answers : Answers (work.calls config) outcome segment) : Told config s block outcome segment := by
  obtain ⟨hvalid, hwork⟩ := Session.task_eq_ok_iff.1 h
  by_cases hload : block.kind = .load
  · rw [Session.work_of_source (by rw [hload]; rfl)] at hwork
    obtain rfl := Except.ok.inj hwork
    obtain ⟨load, hconfig⟩ : ∃ load, block.config = .load load := by
      cases hconfig : block.config with
      | load load => exact ⟨load, rfl⟩
      | _ => rw [Block.kind, hconfig] at hload; cases hload
    have htable : block.targetTable = ⟨load.tableName⟩ := by rw [Block.targetTable, hconfig]
    rw [htable] at answers
    exact .load hvalid hconfig answers
  · have hsource : block.kind.isSource = false := by simpa [BlockKind.isSource] using hload
    cases hinput : s.inputTable? block.id with
    | none =>
      rw [Session.work, if_neg (by simp [hsource]), hinput] at hwork
      cases hwork
    | some input =>
      rw [Session.work_of_input (by simp [hsource]) hinput] at hwork
      obtain rfl := Except.ok.inj hwork
      -- the statement of such a block is never blank, so it is always issued
      have hblank : ¬ (Sql.compile block.config input block.targetTable).isBlank = true := by
        rw [← Sql.Statement.isEmpty_text]
        exact Sql.not_isEmpty_of_creates (Sql.creates_compile hsource _ _)
      rw [Work.statement?, if_neg hblank, Block.targetTable_of_ne_load hload] at answers
      exact .fed hvalid hload hinput answers

namespace Engine

/-- Running a block makes the calls that are told of it. -/
theorem attempt_told (engine : Engine σ) (config : RunConfig) (s : Session) (block : Block)
    (id : BlockId) (state : σ × Transcript) : ∃ segment,
      (engine.transcribing.attempt config s block state).2.2 = state.2 ++ segment ∧
      Told config s block (s.conclude id (engine.transcribing.attempt config s block state).1).2
        segment := by
  cases htask : s.task block with
  | error message =>
    rw [attempt_of_no_task _ htask]
    exact ⟨[], (List.append_nil _).symm, .of_task_error htask⟩
  | ok work =>
    obtain ⟨answer, after, segment, refusal, hattempt, hanswered, hsuccess, hrefused⟩ :=
      @attempt_asks _ engine config s block work state.1 state.2 htask
    have hattempt' : engine.transcribing.attempt config s block state = _ := hattempt
    rw [hattempt']
    refine ⟨segment, rfl, .of_task htask ?_⟩
    cases refusal with
    | none =>
      obtain ⟨result, rfl⟩ := hsuccess rfl
      rw [hanswered.eq_accepted]
      exact .complete
    | some error =>
      obtain rfl := hrefused error rfl
      obtain ⟨made, call, rest, hsplit, rfl⟩ := hanswered.exists_refused
      exact .refused error hsplit

end Engine

/-! ## All turns of a run -/

/-- The turn of a block in a run: how the run stood when it came to the block, what was recorded of the
    block, and the calls that were made for it. -/
structure Turn (σ : Type) where
  moment : Progress (σ × Transcript)
  visit : Visit
  segment : Transcript

/-- It is this turn after the ones that are past, in a run that began at `start`. -/
structure Turn.Follows (engine : Engine σ) (config : RunConfig) (entry : BlockId → Prop)
    (start : Progress (σ × Transcript)) (past : List (Turn σ)) (turn : Turn σ) : Prop where
  visits : turn.moment.visits = past.map Turn.visit
  transcript : turn.moment.engineState.2 = past.flatMap Turn.segment
  reached : engine.transcribing.Steps config entry start turn.moment
  /-- No call is made for a block that is skipped. -/
  skipped : turn.visit.outcome = .skipped → turn.segment = []
  ran : turn.visit.outcome ≠ .skipped → ∃ block,
    turn.moment.session.graph.find? turn.visit.block = some block ∧
      Told config turn.moment.session block turn.visit.outcome turn.segment
  /-- A block that the run did not begin with reads what the block that feeds it has made in a turn
      that is past. -/
  fed : turn.visit.outcome ≠ .skipped → entry turn.visit.block ∨ ∃ above ∈ past, ∃ feeder,
    above.visit.outcome = .succeeded ∧
      start.session.graph.Feeds above.visit.block turn.visit.block ∧
      start.session.graph.find? above.visit.block = some feeder ∧
      turn.moment.session.inputTable? turn.visit.block = some feeder.targetTable

/-- The run that began at `start` came to `p` by these turns: its record is theirs, and its calls are
    theirs one turn after the other. -/
structure Conducted (engine : Engine σ) (config : RunConfig) (entry : BlockId → Prop)
    (start p : Progress (σ × Transcript)) (turns : List (Turn σ)) : Prop where
  visits : p.visits = turns.map Turn.visit
  transcript : p.engineState.2 = turns.flatMap Turn.segment
  follows : ∀ past turn later, turns = past ++ turn :: later →
    turn.Follows engine config entry start past ∧
      engine.transcribing.Steps config entry turn.moment p

section
variable {engine : Engine σ} {entry : BlockId → Prop} {start p q : Progress (σ × Transcript)}
  {turns : List (Turn σ)} {turn : Turn σ}

/-- One more turn. -/
theorem Conducted.append (turn : Turn σ) (h : Conducted engine config entry start p turns)
    (hstep : engine.transcribing.Step config entry p q) (hmoment : turn.moment = p)
    (hturn : turn.Follows engine config entry start turns)
    (hvisits : q.visits = p.visits ++ [turn.visit])
    (htranscript : q.engineState.2 = p.engineState.2 ++ turn.segment) :
    Conducted engine config entry start q (turns ++ [turn]) where
  visits := by rw [hvisits, h.visits, List.map_append, List.map_singleton]
  transcript := by
    rw [htranscript, h.transcript, List.flatMap_append, List.flatMap_singleton]
  follows past other later hsplit := by
    rcases split_append hsplit with ⟨-, rfl, rfl⟩ | ⟨rest, -, hrest⟩
    · exact ⟨hturn, .single (hmoment ▸ hstep)⟩
    · obtain ⟨hfollows, hsteps⟩ := h.follows past other rest hrest
      exact ⟨hfollows, hsteps.tail hstep⟩

/-- The table that a block reads was made in a turn that is past, if the block that feeds it has
    succeeded. -/
theorem Conducted.fed (hwf : start.session.graph.WellFormed) (hvisits : start.visits = [])
    (hsteps : engine.transcribing.Steps config entry start p)
    (h : Conducted engine config entry start p turns) (hf : p.session.graph.Feeds feeder id)
    (hsuccess : p.visits.outcome? feeder = some .succeeded) :
    ∃ above ∈ turns, ∃ block, above.visit.outcome = .succeeded ∧
      start.session.graph.Feeds above.visit.block id ∧
      start.session.graph.find? above.visit.block = some block ∧
      p.session.inputTable? id = some block.targetTable := by
  have heffect := Engine.Steps.effect hwf hvisits hsteps
  have hmem := Visits.mem_of_outcome? hsuccess
  rw [h.visits] at hmem
  obtain ⟨above, habove, hvisit⟩ := List.mem_map.1 hmem
  rw [Graph.feeds_of_outline heffect.outline] at hf
  obtain ⟨block, -, -, hfind, -⟩ := heffect.fetched feeder hsuccess
  refine ⟨above, habove, block, ?_⟩
  rw [hvisit]
  exact ⟨rfl, hf, hfind, heffect.inputTable?_eq hf hfind hsuccess⟩

/-- Every run goes by turns. -/
theorem Engine.Steps.conducted (hwf : start.session.graph.WellFormed) (hvisits : start.visits = [])
    (htranscript : start.engineState.2 = [])
    (hsteps : engine.transcribing.Steps config entry start p) :
    ∃ turns, Conducted engine config entry start p turns := by
  induction hsteps with
  | refl => exact ⟨[], hvisits, htranscript, fun past turn later hsplit => by simp at hsplit⟩
  | @tail p q hbefore hstep ih =>
    obtain ⟨turns, h⟩ := ih
    cases hstep with
    | @run id block found unvisited ready =>
      obtain ⟨segment, hsegment, htold⟩ :=
        engine.attempt_told config p.session block id p.engineState
      refine ⟨_, h.append ⟨p, ⟨id, _⟩, segment⟩ (.run found unvisited ready) rfl ?_
        (congrArg Progress.visits (visit_eq _ config found)) ?_⟩
      · refine ⟨h.visits, h.transcript, hbefore, fun hskip => ?_, fun _ => ⟨block, found, htold⟩,
          fun _ => ready.imp_right fun ⟨feeder, hf, hsuccess⟩ => h.fed hwf hvisits hbefore hf hsuccess⟩
        exact absurd hskip (Session.conclude_ne_skipped _ _ _)
      · rw [visit_eq _ config found]
        exact hsegment
    | @skip id feeder outcome unvisited fed visited halted =>
      refine ⟨_, h.append ⟨p, ⟨id, .skipped⟩, []⟩ (.skip unvisited fed visited halted) rfl
        ?_ rfl (List.append_nil _).symm⟩
      exact ⟨h.visits, h.transcript, hbefore, fun _ => rfl, fun hran => absurd rfl hran,
        fun hran => absurd rfl hran⟩

end

/-! ## Whole runs -/

/-- However a session came about and whatever the engine answers, the run of a block and the run of
    the whole pipeline go by turns. To note the calls changes nothing else about the run. -/
theorem run_conducted (h : s.Reachable) (engine : Engine σ) (config : RunConfig) (state : σ) :
    (∀ id ∈ s.graph.ids, ∃ p turns,
      engine.transcribing.run config s (state, []) id = .ok p ∧
        engine.run config s state id = .ok (p.project Prod.fst) ∧
        Conducted engine config (· = id) ⟨s, (state, []), []⟩ p turns) ∧
      ∃ turns,
        engine.runAll config s state =
          (engine.transcribing.runAll config s (state, [])).project Prod.fst ∧
        Conducted engine config (· ∈ s.graph.roots) ⟨s, (state, []), []⟩
          (engine.transcribing.runAll config s (state, [])) turns := by
  have hwf := h.wellFormed
  constructor
  · intro id hid
    obtain ⟨p, hrun, hsteps, -⟩ :=
      @Engine.run_steps _ engine.transcribing config s (state, []) id hwf hid
    obtain ⟨turns, hturns⟩ := Engine.Steps.conducted hwf rfl rfl hsteps
    refine ⟨p, turns, hrun, ?_, hturns⟩
    rw [Engine.run_project engine.transcribing_mirrors s (state, []), hrun]
    rfl
  · have hsteps := (Engine.runAll_steps hwf engine.transcribing config (state, [])).1
    obtain ⟨turns, hturns⟩ := Engine.Steps.conducted hwf rfl rfl hsteps
    exact ⟨turns, Engine.runAll_project engine.transcribing_mirrors s (state, []), hturns⟩

/-- A pipeline has run, and then its load block was given another table. A run from the filter still
    reads the former one, and what the sort reads has been made just before. The engine refuses to
    count the rows of the sort, and the chart below the filter is not complete. -/
theorem conducted_from_filter :
    let load : BlockId := ⟨1⟩
    let filter : BlockId := ⟨2⟩
    let sort : BlockId := ⟨3⟩
    let last : BlockId := ⟨4⟩
    let chart : BlockId := ⟨5⟩
    let edited := [Session.Edit.addConfig load (.load { tableName := "orders" }),
      .addConfig filter (.filter { column := "amount", value := some (.text "7") }),
      .addConfig sort (.sort { column := "amount" }), .addKind last .insight, .addKind chart .chart,
      .connect load filter, .connect filter sort, .connect sort last,
      .connect filter chart].foldl Session.Edit.apply .empty
    let ran := (Scripted.engine.runAll {} edited ⟨[], [], []⟩).session
    let s := (Session.Edit.setConfig load (.load { tableName := "people" })).apply ran
    let script : Scripted.Script := ⟨.replicate 5 (.ok []) ++ [.error ⟨"out of memory"⟩], [], []⟩
    let visits : Visits := [⟨filter, .succeeded⟩, ⟨chart, .failed "X and Y axis are required"⟩,
      ⟨sort, .failed "out of memory"⟩, ⟨last, .skipped⟩]
    let transcript : Transcript := [
      ⟨.execute ("CREATE OR REPLACE TABLE temp_00000000000000000000000000000002 AS SELECT * " ++
        "FROM orders WHERE \"amount\" = '7'"), none⟩,
      ⟨.describe (.derived filter), none⟩,
      ⟨.execute "SELECT * FROM temp_00000000000000000000000000000002 LIMIT 100", none⟩,
      ⟨.execute ("SELECT COUNT(*) AS \"row_count\" " ++
        "FROM temp_00000000000000000000000000000002"), none⟩,
      ⟨.execute ("CREATE OR REPLACE TABLE temp_00000000000000000000000000000003 AS SELECT * " ++
        "FROM temp_00000000000000000000000000000002 ORDER BY \"amount\" ASC"), none⟩,
      ⟨.describe (.derived sort), none⟩,
      ⟨.execute "SELECT * FROM temp_00000000000000000000000000000003 LIMIT 100", none⟩,
      ⟨.execute ("SELECT COUNT(*) AS \"row_count\" " ++
        "FROM temp_00000000000000000000000000000003"), some ⟨"out of memory"⟩⟩]
    s.Reachable ∧ filter ∈ s.graph.ids ∧ ∃ p turns,
      Scripted.engine.transcribing.run {} s (script, []) filter = .ok p ∧
        p.visits = visits ∧ p.engineState.2 = transcript ∧
        Conducted Scripted.engine {} (· = filter) ⟨s, (script, []), []⟩ p turns := by
  intro load filter sort last chart edited ran s script visits transcript
  have hreach : s.Reachable := .edit _ (.runAll _ _ _ (.edits .empty (by decide +kernel)))
    (by decide +kernel)
  have hfilter : filter ∈ s.graph.ids := by decide +kernel
  have hvisits : (Scripted.engine.transcribing.run {} s (script, []) filter).toOption.map
      Progress.visits = some visits := by
    decide +kernel
  have htranscript : (Scripted.engine.transcribing.run {} s (script, []) filter).toOption.map
      (fun p => p.engineState.2) = some transcript := by
    decide +kernel
  obtain ⟨p, turns, hrun, -, hturns⟩ := (run_conducted hreach Scripted.engine {} script).1 filter hfilter
  rw [hrun] at hvisits htranscript
  exact ⟨hreach, hfilter, p, turns, hrun, Option.some.inj hvisits, Option.some.inj htranscript, hturns⟩

end BlockPipeline

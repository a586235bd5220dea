import BlockPipeline.Proofs.Plan.Selection
import BlockPipeline.Proofs.Run.Calls
import BlockPipeline.Proofs.Run.Effect
import BlockPipeline.Proofs.Sql.Creation

set_option autoImplicit false

/-! # A run does what the plan says

A plan foretells input tables from configurations, in topological order; a run finds them on the
blocks that feed others, level by level. Still, when it is a block's turn, what it is to make is what
the plan says of it (`task_eq_entry`): the block that feeds it has just made the table that the plan
names. So a run in which the engine refuses no call makes what is planned and leaves out the rest
(`runAll_planned`). -/

namespace BlockPipeline

/-- What the plan has a block make. -/
def PlannedBlock.work (planned : PlannedBlock) : Work :=
  ⟨planned.output, if planned.sql.isEmpty then none else some planned.sql⟩

/-- The calls that the plan foresees for a block. -/
def Plan.callsOf (plan : Plan) (config : RunConfig) (id : BlockId) : List Call :=
  match plan.find? id with
  | some planned => planned.work.calls config
  | none => []

/-- Does the call make a table or a view? -/
def Call.creates : Call → Bool
  | .execute sql => Sql.creates sql
  | .describe _ | .register _ _ => false

/-- What the plan says of a block is what was recorded of it. -/
def Plan.Foresees (plan : Plan) (id : BlockId) : Outcome → Prop
  | .succeeded => ∃ planned, plan.find? id = some planned
  | .failed message => plan.find? id = none ∧ ⟨id, message⟩ ∈ plan.skipped
  | .skipped => plan.find? id = none

variable {σ τ : Type} {config : RunConfig} {s : Session} {id feeder : BlockId} {block : Block}
  {plan : Plan} {planned : PlannedBlock} {g : Graph}

/-- The table that the plan names is the one that the block makes. -/
theorem Plan.Covers.output_eq (hwf : g.WellFormed) {done : List BlockId} (h : plan.Covers g done)
    (hfind : g.find? id = some block) (hplanned : plan.find? id = some planned) :
    planned.output = block.targetTable := by
  obtain rfl := hwf.id_of_find? hfind
  obtain ⟨hmem, hid⟩ := (Plan.find?_eq_some_iff h.once).1 hplanned
  have hsettles := h.settles block hfind (hid ▸ h.within planned hmem)
  exact (Plan.entry_eq_ok (hsettles.entry_eq_ok hplanned)).output_eq

/-! ## What a block is to make when it is its turn -/

namespace Engine

/-- A block whose feeder has succeeded in the run reads the table that the plan names. -/
theorem inputTable?_eq {engine : Engine τ} {state : τ} {p : Progress τ} (hwf : s.graph.WellFormed)
    (hcovers : s.plan.Covers s.graph s.graph.ids)
    (heffect : engine.Effect config ⟨s, state, []⟩ p) (hf : s.graph.Feeds feeder id)
    (hsuccess : p.visits.outcome? feeder = some .succeeded)
    (hplanned : s.plan.find? feeder = some planned) :
    p.session.inputTable? id = some planned.output := by
  obtain ⟨hmem, hid⟩ := (Plan.find?_eq_some_iff hcovers.once).1 hplanned
  obtain ⟨block, hfind⟩ := hwf.mem_ids_iff.1 (hid ▸ hcovers.within planned hmem)
  rw [hcovers.output_eq hwf hfind hplanned]
  exact heffect.inputTable?_eq hf hfind hsuccess

/-- When it is a block's turn, what it is to make is what the plan says of it. -/
theorem task_eq_entry {engine : Engine τ} {state : τ} {p : Progress τ} (hwf : s.graph.WellFormed)
    (hcovers : s.plan.Covers s.graph s.graph.ids)
    (heffect : engine.Effect config ⟨s, state, []⟩ p) (hfind : s.graph.find? id = some block)
    (hforeseen : ∀ feeder, p.visits.outcome? feeder = some .succeeded →
      ∃ planned, s.plan.find? feeder = some planned)
    (ready : id ∈ s.graph.roots ∨ ∃ feeder, s.graph.Feeds feeder id ∧
      p.visits.outcome? feeder = some .succeeded) :
    p.session.task block = (s.plan.entry s.graph block).map PlannedBlock.work := by
  obtain rfl := hwf.id_of_find? hfind
  cases hvalid : block.config.validate with
  | error error =>
    rw [Plan.entry_of_invalid hvalid, Session.task, hvalid]
    rfl
  | ok done =>
    by_cases hsource : block.kind.isSource = true
    · obtain ⟨planned, hentry⟩ : ∃ planned, s.plan.entry s.graph block = .ok planned :=
        Plan.entry_of_source hvalid hsource
      have hspec := Plan.entry_eq_ok hentry
      have hwork : planned.work = ⟨block.targetTable, none⟩ := by
        rw [PlannedBlock.work, hspec.output_eq, hspec.source hsource]
        rfl
      rw [hentry, Except.map, hwork]
      exact Session.task_eq_ok_iff.2 ⟨hvalid, Session.work_of_source hsource⟩
    · -- it is no load block, so it is its turn because its feeder has succeeded
      obtain ⟨feeder, hf, hsuccess⟩ := ready.resolve_left fun hroot => by
        obtain ⟨found, hfound, hkind⟩ := (mem_roots hwf).1 hroot
        exact hsource (Option.some.inj (hfind.symm.trans hfound) ▸ hkind)
      obtain ⟨above, habove⟩ := hforeseen feeder hsuccess
      obtain ⟨planned, hentry⟩ := Plan.entry_of_fed hvalid hf habove
      have hspec := Plan.entry_eq_ok hentry
      obtain ⟨feeder', above', hf', habove', hsql⟩ := hspec.fed (by simpa using hsource)
      obtain rfl := Graph.feeder_unique hf hf'
      obtain rfl := Option.some.inj (habove.symm.trans habove')
      have hwork : planned.work = ⟨block.targetTable,
          Work.statement? (Sql.compile block.config above.output block.targetTable)⟩ := by
        rw [PlannedBlock.work, hspec.output_eq, hsql, Sql.Statement.isEmpty_text, Work.statement?]
      rw [hentry, Except.map, hwork]
      exact Session.task_eq_ok_iff.2 ⟨hvalid,
        Session.work_of_input hsource (inputTable?_eq hwf hcovers heffect hf hsuccess habove)⟩

end Engine

/-! ## What is recorded is what is planned -/

/-- So far the run has done what the plan says. -/
structure Agrees (s : Session) (config : RunConfig) (p : Progress (σ × Transcript)) : Prop where
  foreseen : ∀ id outcome, p.visits.outcome? id = some outcome → s.plan.Foresees id outcome
  calls : p.engineState.2.map Exchange.call =
    p.visits.flatMap fun visit => s.plan.callsOf config visit.block

theorem Plan.Foresees.left_out {outcome : Outcome} (h : plan.Foresees id outcome)
    (hne : outcome ≠ .succeeded) : plan.find? id = none := by
  cases outcome with
  | succeeded => exact absurd rfl hne
  | failed message => exact h.1
  | skipped => exact h

/-- One more visit that the plan foresees, with the calls that it foresees. -/
theorem Agrees.append {p q : Progress (σ × Transcript)} (h : Agrees s config p) {visit : Visit}
    {segment : Transcript} (hvisits : q.visits = p.visits ++ [visit])
    (htranscript : q.engineState.2 = p.engineState.2 ++ segment)
    (hforeseen : s.plan.Foresees visit.block visit.outcome)
    (hcalls : segment.map Exchange.call = s.plan.callsOf config visit.block) :
    Agrees s config q := by
  refine ⟨fun id outcome houtcome => ?_, ?_⟩
  · rw [hvisits] at houtcome
    rcases Visits.outcome?_append_cases houtcome with hbefore | rfl
    · exact h.foreseen id outcome hbefore
    · exact hforeseen
  · rw [hvisits, htranscript, List.map_append, h.calls, List.flatMap_append, List.flatMap_singleton,
      hcalls]

/-- For a block that is left out no call is foreseen, and none is made. -/
theorem Agrees.append_left_out {p q : Progress (σ × Transcript)} (h : Agrees s config p)
    {visit : Visit} (hvisits : q.visits = p.visits ++ [visit])
    (hstate : q.engineState = p.engineState)
    (hforeseen : s.plan.Foresees visit.block visit.outcome) (hne : visit.outcome ≠ .succeeded) :
    Agrees s config q := by
  have hcalls : s.plan.callsOf config visit.block = [] := by
    rw [Plan.callsOf, hforeseen.left_out hne]
  have htranscript : q.engineState.2 = p.engineState.2 ++ [] := by
    rw [hstate, List.append_nil]
  exact h.append hvisits htranscript hforeseen hcalls.symm

section
variable {engine : Engine σ} {state : σ} {p : Progress (σ × Transcript)}

/-- A block that is run comes to what the plan says of it. -/
theorem Agrees.visit (hwf : s.graph.WellFormed) (hcovers : s.plan.Covers s.graph s.graph.ids)
    (heffect : engine.transcribing.Effect config ⟨s, (state, []), []⟩ p)
    (h : Agrees s config p) (found : p.session.graph.find? block.id = some block)
    (unvisited : p.visits.outcome? block.id = none)
    (ready : block.id ∈ s.graph.roots ∨ ∃ feeder, s.graph.Feeds feeder block.id ∧
      p.visits.outcome? feeder = some .succeeded)
    (haccepted : Accepted (engine.transcribing.visit config p block.id).1.engineState.2) :
    Agrees s config (engine.transcribing.visit config p block.id).1 := by
  have hfind : s.graph.find? block.id = some block := (heffect.find?_eq unvisited).symm.trans found
  have htask := Engine.task_eq_entry hwf hcovers heffect hfind
    (fun feeder hsuccess => h.foreseen feeder .succeeded hsuccess) ready
  have hsettles := hcovers.settles block hfind (hwf.mem_ids_iff.2 ⟨block, hfind⟩)
  rw [Engine.visit_eq _ config found] at haccepted ⊢
  cases hentry : s.plan.entry s.graph block with
  | error reason =>
    rw [hentry] at htask
    rw [Engine.attempt_of_no_task _ htask]
    exact h.append_left_out rfl rfl (hsettles.of_error hentry) (by simp [Session.conclude])
  | ok planned =>
    rw [hentry] at htask
    have hplanned := hsettles.of_ok hentry
    obtain ⟨answer, after, segment, refusal, hattempt, hanswered, hsuccess, -⟩ :=
      @Engine.attempt_asks _ engine config p.session block planned.work p.engineState.1
        p.engineState.2 htask
    have hattempt' : engine.transcribing.attempt config p.session block p.engineState = _ := hattempt
    rw [hattempt'] at haccepted ⊢
    obtain ⟨rfl, hcalls⟩ := hanswered.of_accepted fun exchange hmem =>
      haccepted exchange (List.mem_append_right _ hmem)
    obtain ⟨result, rfl⟩ := hsuccess rfl
    have hforeseen : s.plan.callsOf config block.id = planned.work.calls config := by
      rw [Plan.callsOf, hplanned]
    exact h.append rfl rfl ⟨planned, hplanned⟩ (hcalls.trans hforeseen.symm)

/-- A block that is skipped is left out by the plan, since its feeder is. -/
theorem Agrees.skip (hwf : s.graph.WellFormed) (hcovers : s.plan.Covers s.graph s.graph.ids)
    (h : Agrees s config p) {outcome : Outcome} (fed : s.graph.Feeds feeder id)
    (visited : p.visits.outcome? feeder = some outcome) (halted : outcome ≠ .succeeded) :
    Agrees s config { p with visits := p.visits ++ [⟨id, .skipped⟩] } := by
  have hid := hwf.fed_mem fed
  obtain ⟨block, hfind⟩ := hwf.mem_ids_iff.1 hid
  obtain rfl := hwf.id_of_find? hfind
  obtain ⟨reason, hentry⟩ := Plan.entry_of_left_out (hwf.fed_kind fed hfind) fed
    ((h.foreseen feeder outcome visited).left_out halted)
  have hnone := ((hcovers.settles block hfind hid).of_error hentry).1
  exact h.append_left_out rfl rfl hnone (by simp)

end

namespace Engine

variable {engine : Engine σ} {state : σ} {p : Progress (σ × Transcript)}

/-- A run in which no call is refused does what the plan says at every step. -/
theorem Steps.agrees (hwf : s.graph.WellFormed) (hcovers : s.plan.Covers s.graph s.graph.ids)
    (hsteps : engine.transcribing.Steps config (· ∈ s.graph.roots) ⟨s, (state, []), []⟩ p)
    (haccepted : Accepted p.engineState.2) : Agrees s config p := by
  induction hsteps with
  | refl =>
    refine ⟨fun id outcome houtcome => ?_, rfl⟩
    cases houtcome
  | tail hbefore hstep ih =>
    have heffect := Steps.effect hwf rfl hbefore
    have hfeeds := Graph.feeds_of_outline heffect.outline
    have hagrees := ih fun exchange hmem => haccepted exchange (hstep.transcript.subset hmem)
    cases hstep with
    | run found unvisited ready =>
      obtain rfl := (hwf.of_outline heffect.outline).id_of_find? found
      exact hagrees.visit hwf hcovers heffect found unvisited (hfeeds ▸ ready) haccepted
    | skip _ fed visited halted => exact hagrees.skip hwf hcovers (hfeeds ▸ fed) visited halted

end Engine

/-! ## Whole runs -/

/-- A run of the whole pipeline of the session `s`, with the transcript of its calls, has done what the
    plan of `s` says. -/
structure PlanAgreement (config : RunConfig) (s : Session) (transcript : Transcript)
    (p : Progress σ) : Prop where
  planned_once : (s.plan.blocks.map PlannedBlock.id).Nodup
  recorded_once : (p.visits.map Visit.block).Nodup
  succeeded_iff : ∀ id, ⟨id, .succeeded⟩ ∈ p.visits ↔ ∃ planned ∈ s.plan.blocks, planned.id = id
  /-- The calls of the run are, visit by visit, those that the plan foresees for the block. -/
  calls : transcript.map Exchange.call =
    p.visits.flatMap fun visit => s.plan.callsOf config visit.block
  /-- One of the calls for a block makes a table or a view, by the statement that is planned; none
      does for a load block. -/
  created : ∀ planned ∈ s.plan.blocks, (s.plan.callsOf config planned.id).filter Call.creates =
    if planned.kind = .load then [] else [.execute planned.sql]
  output : ∀ planned ∈ s.plan.blocks,
    (p.session.graph.find? planned.id).bind Block.outputTable = some planned.output
  failed : ∀ id message, ⟨id, .failed message⟩ ∈ p.visits → ⟨id, message⟩ ∈ s.plan.skipped
  left_out : ∀ id ∈ s.graph.ids, ⟨id, .skipped⟩ ∈ p.visits ∨ id ∉ p.visits.map Visit.block →
    ∃ reason, ⟨id, reason⟩ ∈ s.plan.skipped

/-- A planned block is a planned load block or below one. -/
theorem Plan.Covers.exists_root (hwf : g.WellFormed) (h : plan.Covers g g.ids) :
    ∀ id ∈ g.ids, (∃ planned, plan.find? id = some planned) →
      ∃ root ∈ g.roots, (∃ planned, plan.find? root = some planned) ∧
        Relation.ReflTransGen g.Feeds root id := by
  intro id _ hplanned
  have hsupplied := (h.planned_iff hwf id).1 hplanned
  obtain ⟨top, block, hr, hnone, hfind, hload⟩ := hsupplied.loaded
  have htop : g.Supplied top :=
    ⟨fun a ha => hsupplied.complete a (ha.trans hr), top, block, .refl, hnone, hfind, hload⟩
  have hroot : top ∈ g.roots :=
    (Engine.mem_roots hwf).2 ⟨block, hfind, BlockKind.isSource_iff.2 hload⟩
  exact ⟨top, hroot, (h.planned_iff hwf top).2 htop, hr⟩

/-- Of the calls for a planned block, the statement that is planned is the only one that makes
    anything. -/
theorem Plan.Covers.created (hwf : g.WellFormed) (h : plan.Covers g g.ids)
    (hplanned : planned ∈ plan.blocks) :
    (plan.callsOf config planned.id).filter Call.creates =
      if planned.kind = .load then [] else [.execute planned.sql] := by
  have hfind := (Plan.find?_eq_some_iff h.once).2 ⟨hplanned, rfl⟩
  have hin := h.within planned hplanned
  obtain ⟨block, hblock⟩ := hwf.mem_ids_iff.1 hin
  have hid := hwf.id_of_find? hblock
  have hsettles := h.settles block (hid ▸ hblock) (hid ▸ hin)
  have hspec := Plan.entry_eq_ok (hsettles.entry_eq_ok (hid ▸ hfind))
  have hfetch : List.filter Call.creates [.describe planned.output,
      .execute (Sql.preview planned.output config.previewLimit).text,
      .execute (Sql.countRows planned.output).text] = [] := by
    simp [Call.creates, Sql.creates_preview, Sql.creates_countRows]
  rw [callsOf, hfind]
  simp only [Work.calls, PlannedBlock.work]
  rw [List.filter_append, hfetch, List.append_nil]
  by_cases hload : planned.kind = .load
  · have hsource : block.kind.isSource = true := by rw [← hspec.kind_eq, hload]; rfl
    rw [if_pos hload, hspec.source hsource]
    rfl
  · have hsource : planned.kind.isSource = false := by simpa [BlockKind.isSource] using hload
    have hkind : block.kind.isSource = false := hspec.kind_eq ▸ hsource
    obtain ⟨feeder, above, -, -, hsql⟩ := hspec.fed hkind
    have hcreates : Sql.creates planned.sql = true := by
      rw [hsql]
      exact Sql.creates_compile hkind _ _
    rw [if_neg hload, if_neg (Sql.not_isEmpty_of_creates hcreates)]
    simp [Call.creates, hcreates]

/-- A block that is not planned is left out for a reason. -/
theorem Plan.Covers.exists_reason (hwf : g.WellFormed) (h : plan.Covers g g.ids) (hid : id ∈ g.ids)
    (hnone : plan.find? id = none) : ∃ reason, ⟨id, reason⟩ ∈ plan.skipped := by
  obtain ⟨block, hblock⟩ := hwf.mem_ids_iff.1 hid
  obtain rfl := hwf.id_of_find? hblock
  have hsettles := h.settles block hblock hid
  cases hentry : plan.entry g block with
  | ok planned =>
    rw [hsettles.of_ok hentry] at hnone
    cases hnone
  | error reason => exact ⟨reason, (hsettles.of_error hentry).2⟩

/-- A run that agrees with the plan and goes down from all load blocks makes all that is planned. -/
theorem Agrees.succeeded {p : Progress (σ × Transcript)} (h : Agrees s config p)
    (hwf : s.graph.WellFormed) (hcovers : s.plan.Covers s.graph s.graph.ids)
    (hroots : ∀ root ∈ s.graph.roots, (p.visits.outcome? root).isSome ∧
      (p.visits.outcome? root = some .succeeded →
        ∀ id, s.graph.Reaches root id → (p.visits.outcome? id).isSome))
    (hplanned : planned ∈ s.plan.blocks) : p.visits.outcome? planned.id = some .succeeded := by
  -- a planned block that is visited succeeds, since the others are not planned
  have hvisited : ∀ id, (∃ planned, s.plan.find? id = some planned) →
      (p.visits.outcome? id).isSome → p.visits.outcome? id = some .succeeded := by
    rintro id ⟨planned, hfind⟩ hvisited
    obtain ⟨outcome, houtcome⟩ := Option.isSome_iff_exists.1 hvisited
    by_cases hsuccess : outcome = .succeeded
    · rw [houtcome, hsuccess]
    · rw [(h.foreseen id outcome houtcome).left_out hsuccess] at hfind
      cases hfind
  have hfind : ∃ found, s.plan.find? planned.id = some found :=
    ⟨planned, (Plan.find?_eq_some_iff hcovers.once).2 ⟨hplanned, rfl⟩⟩
  obtain ⟨root, hroot, hrootPlanned, hr⟩ :=
    hcovers.exists_root hwf planned.id (hcovers.within planned hplanned) hfind
  obtain ⟨hrootVisited, hbelow⟩ := hroots root hroot
  have hrootSuccess := hvisited root hrootPlanned hrootVisited
  rcases Relation.reflTransGen_iff_eq_or_transGen.1 hr with hsame | hr
  · exact hsame ▸ hrootSuccess
  · exact hvisited planned.id hfind (hbelow hrootSuccess planned.id hr)

/-- However a session came about, and whatever has run before: a run of the whole pipeline in which the
    engine refuses no call makes the planned blocks as they are planned, and leaves out the others. -/
theorem runAll_planned (h : s.Reachable) (engine : Engine σ) (config : RunConfig) (state : σ)
    (haccepted : Accepted (engine.transcribing.runAll config s (state, [])).engineState.2) :
    PlanAgreement config s (engine.transcribing.runAll config s (state, [])).engineState.2
      (engine.runAll config s state) := by
  have hwf := h.wellFormed
  have hcovers : s.plan.Covers s.graph s.graph.ids := Plan.ofGraph_covers hwf
  obtain ⟨hsteps, hroots⟩ := Engine.runAll_steps hwf engine.transcribing config (state, [])
  have heffect := Engine.Steps.effect hwf rfl hsteps
  have hnodup := (Engine.Steps.recorded hsteps).nodup
  have hagrees := Engine.Steps.agrees hwf hcovers hsteps haccepted
  -- the run itself is the one with a transcript, without the transcript
  rw [Engine.runAll_project engine.transcribing_mirrors s (state, [])]
  generalize engine.transcribing.runAll config s (state, []) = p at *
  have hrecorded : ∀ {id outcome}, ⟨id, outcome⟩ ∈ p.visits ↔ p.visits.outcome? id = some outcome :=
    (Visits.outcome?_eq_some_iff hnodup).symm
  refine
    { planned_once := hcovers.once
      recorded_once := hnodup
      succeeded_iff := fun id => ⟨fun hsuccess => ?_, ?_⟩
      calls := hagrees.calls
      created := fun planned hplanned => hcovers.created hwf hplanned
      output := fun planned hplanned => ?_
      failed := fun id message hfailed => (hagrees.foreseen id _ (hrecorded.1 hfailed)).2
      left_out := fun id hid hleft => hcovers.exists_reason hwf hid ?_ }
  · obtain ⟨planned, hfind⟩ := hagrees.foreseen id _ (hrecorded.1 hsuccess)
    exact ⟨planned, (Plan.find?_eq_some_iff hcovers.once).1 hfind⟩
  · rintro ⟨planned, hplanned, rfl⟩
    exact hrecorded.2 (hagrees.succeeded hwf hcovers hroots hplanned)
  · obtain ⟨block, hblock⟩ := hwf.mem_ids_iff.1 (hcovers.within planned hplanned)
    have hfind := (Plan.find?_eq_some_iff hcovers.once).2 ⟨hplanned, rfl⟩
    have hsettled : p.session.graph.find? planned.id = some (block.settle (some .succeeded)) := by
      rw [heffect.settled, hagrees.succeeded hwf hcovers hroots hplanned, hblock, Option.map_some]
    show (p.session.graph.find? planned.id).bind Block.outputTable = _
    rw [hsettled, hcovers.output_eq hwf hblock hfind]
    rfl
  · -- had it been planned, it would have been recorded otherwise
    rw [Plan.find?_eq_none_iff]
    intro hmem
    obtain ⟨planned, hplanned, rfl⟩ := List.mem_map.1 hmem
    have hsuccess := hrecorded.2 (hagrees.succeeded hwf hcovers hroots hplanned)
    rcases hleft with hskipped | habsent
    · have hsame := (hrecorded.1 hskipped).symm.trans (hrecorded.1 hsuccess)
      cases hsame
    · exact habsent (List.mem_map_of_mem hsuccess)

/-- A pipeline that has run before, in part without success. Now no call is refused, but a chart below
    the filter has no axes yet, and a sort is not connected. -/
theorem planned_with_incomplete_chart :
    let load : BlockId := ⟨1⟩
    let filter : BlockId := ⟨2⟩
    let chart : BlockId := ⟨3⟩
    let sort : BlockId := ⟨4⟩
    let edited := [Session.Edit.addConfig load (.load { tableName := "orders" }),
      .addConfig filter (.filter { column := "amount", value := some (.text "7") }),
      .addKind chart .chart, .addConfig sort (.sort { column := "amount" }), .connect load filter,
      .connect filter chart].foldl Session.Edit.apply .empty
    let refusing : Scripted.Script := ⟨[.ok [], .ok [], .error ⟨"no column"⟩], [], []⟩
    let s := (Scripted.engine.runAll {} edited refusing).session
    let accepting : Scripted.Script := ⟨[], [], []⟩
    let p := Scripted.engine.runAll {} s accepting
    let transcript := (Scripted.engine.transcribing.runAll {} s (accepting, [])).engineState.2
    s.Reachable ∧ Accepted transcript ∧ transcript.length = 7 ∧
      p.visits = [⟨load, .succeeded⟩, ⟨filter, .succeeded⟩,
        ⟨chart, .failed "X and Y axis are required"⟩] ∧
      PlanAgreement {} s transcript p := by
  intro load filter chart sort edited refusing s accepting p transcript
  have hreach : s.Reachable := .runAll _ _ _ (.edits .empty (by decide +kernel))
  have haccepted : Accepted transcript := by decide +kernel
  exact ⟨hreach, haccepted, by decide +kernel, by decide +kernel,
    runAll_planned hreach Scripted.engine {} accepting haccepted⟩

end BlockPipeline

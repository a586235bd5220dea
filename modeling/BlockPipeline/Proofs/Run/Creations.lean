import BlockPipeline.Engine.Scripted
import BlockPipeline.Proofs.Run.Order
import BlockPipeline.Proofs.Run.Planned
import BlockPipeline.Proofs.Run.Turns
import BlockPipeline.Proofs.Sql.Targets

set_option autoImplicit false

/-! # In which order tables are made

A plan lists its statements in topological order, which goes by pipeline order. A run makes the same
tables by the same statements, but level by level below each load block, and of the blocks that one
block feeds the one that was connected last comes first. So a run issues the statements of the plan, each
once, and in the order of the plan if that is the order of the run. -/

namespace BlockPipeline

variable {σ α β : Type} {g : Graph} {plan : Plan} {id : BlockId} {config : RunConfig} {s : Session}

/-- If there is nothing to pick from the rest of a list, all is picked from the part. -/
theorem filterMap_filter_mem [DecidableEq α] {part whole : List α} {f : α → Option β}
    (h : ∀ a ∈ whole, (f a).isSome → a ∈ part) :
    (whole.filter (· ∈ part)).filterMap f = whole.filterMap f := by
  rw [List.filterMap_filter]
  refine List.filterMap_congr fun a ha => ?_
  by_cases hmem : a ∈ part
  · rw [if_pos (by simpa using hmem)]
  · rw [if_neg (by simpa using hmem)]
    by_contra hne
    exact hmem (h a ha (Option.isSome_iff_ne_none.2 (Ne.symm hne)))

theorem filterMap_of_sublist [DecidableEq α] {part whole : List α} (hnodup : whole.Nodup)
    (hsub : part.Sublist whole) {f : α → Option β} (h : ∀ a ∈ whole, (f a).isSome → a ∈ part) :
    whole.filterMap f = part.filterMap f := by
  rw [← filterMap_filter_mem h, filter_mem_of_sublist hnodup hsub]

/-- What is picked from two lists is the same if it is picked for the same items, provided that no two
    items have the same thing picked for them. -/
theorem filterMap_eq_filterMap_iff {first second : List α} {f : α → Option β}
    (hinj : ∀ a a' b, f a = some b → f a' = some b → a = a') :
    first.filterMap f = second.filterMap f ↔
      first.filter (fun a => (f a).isSome) = second.filter (fun a => (f a).isSome) := by
  have hpicked (items : List α) :
      (items.filter fun a => (f a).isSome).filterMap f = items.filterMap f := by
    rw [List.filterMap_filter]
    refine List.filterMap_congr fun a _ => ?_
    cases f a <;> rfl
  constructor
  · intro h
    induction first generalizing second with
    | nil =>
      symm
      rw [List.filter_nil, List.filter_eq_nil_iff]
      intro a ha hsome
      rw [Option.isSome_iff_ne_none] at hsome
      exact hsome (List.filterMap_eq_nil_iff.1 h.symm a ha)
    | cons a first ih =>
      cases ha : f a with
      | none =>
        rw [List.filterMap_cons_none ha] at h
        rw [List.filter_cons_of_neg (by simp [ha]), ih h]
      | some b =>
        rw [List.filterMap_cons_some ha] at h
        obtain ⟨front, a', rest, rfl, hfront, ha', hrest⟩ := List.filterMap_eq_cons_iff.1 h.symm
        obtain rfl := hinj a a' b ha ha'
        have hnone : front.filter (fun a => (f a).isSome) = [] := by
          rw [List.filter_eq_nil_iff]
          intro c hc
          simp [hfront c hc]
        rw [List.filter_append, hnone, List.nil_append, List.filter_cons_of_pos (by simp [ha]),
          List.filter_cons_of_pos (by simp [ha]), ih hrest.symm]
  · intro h
    rw [← hpicked first, h, hpicked second]

/-! ## The statements of a plan -/

namespace Plan

/-- The statement that the plan has for a block, if the block needs one. -/
def statementOf? (plan : Plan) (id : BlockId) : Option String :=
  (plan.find? id).bind fun planned => if planned.sql.isEmpty then none else some planned.sql

theorem mem_of_statementOf? (h : (plan.statementOf? id).isSome) :
    id ∈ plan.blocks.map PlannedBlock.id := by
  by_contra hnot
  rw [statementOf?, find?_eq_none_iff.2 hnot] at h
  cases h

/-- The statements of a plan are those of its blocks, in order. -/
theorem statements_eq (h : (plan.blocks.map PlannedBlock.id).Nodup) :
    plan.statements = (plan.blocks.map PlannedBlock.id).filterMap plan.statementOf? := by
  rw [statements, List.filterMap_map, ← List.filterMap_eq_filter, List.filterMap_map]
  refine List.filterMap_congr fun planned hplanned => ?_
  have hfind := (find?_eq_some_iff h).2 ⟨hplanned, rfl⟩
  simp only [Function.comp_apply, statementOf?, hfind, Option.bind_some]
  cases hempty : planned.sql.isEmpty with
  | true => simp [Option.guard, hempty]
  | false => simp [Option.guard, hempty]

/-- A plan takes up blocks in the order in which they are planned. -/
theorem foldl_extend_blocks (hwf : g.WellFormed) (order : List BlockId) (plan : Plan) :
    ∃ rest, (order.foldl (Plan.extend g) plan).blocks = plan.blocks ++ rest ∧
      (rest.map PlannedBlock.id).Sublist order := by
  induction order generalizing plan with
  | nil => exact ⟨[], (List.append_nil _).symm, List.Sublist.refl _⟩
  | cons id order ih =>
    obtain ⟨rest, hrest, hsub⟩ := ih (plan.extend g id)
    rw [List.foldl_cons, hrest]
    unfold Plan.extend
    split
    · exact ⟨rest, rfl, hsub.cons id⟩
    · next block hfind =>
      split
      · next planned hentry =>
        have hid : planned.id = id := (entry_eq_ok hentry).id_eq.trans (hwf.id_of_find? hfind)
        refine ⟨planned :: rest, by rw [List.append_assoc, List.singleton_append], ?_⟩
        rw [List.map_cons, hid]
        exact hsub.cons_cons id
      · exact ⟨rest, rfl, hsub.cons id⟩

/-- The planned blocks are a part of the topological order. -/
theorem blocks_sublist (hwf : g.WellFormed) :
    ((ofGraph g).blocks.map PlannedBlock.id).Sublist g.topologicalOrder := by
  obtain ⟨rest, hblocks, hsub⟩ := foldl_extend_blocks hwf g.topologicalOrder ⟨[], []⟩
  rw [ofGraph, hblocks]
  exact hsub

theorem statements_eq_of_topologicalOrder (hwf : g.WellFormed) :
    (ofGraph g).statements = g.topologicalOrder.filterMap (ofGraph g).statementOf? := by
  rw [statements_eq (ofGraph_covers hwf).once]
  exact (filterMap_of_sublist (Graph.topologicalOrder_ordered hwf).nodup (blocks_sublist hwf)
    fun id _ h => mem_of_statementOf? h).symm

namespace Covers

/-- What is planned for a block is made of the block. -/
theorem entryOf (hwf : g.WellFormed) (h : plan.Covers g g.ids) {planned : PlannedBlock}
    (hfind : plan.find? id = some planned) :
    ∃ block, g.find? id = some block ∧ plan.EntryOf g block planned := by
  obtain ⟨hplanned, rfl⟩ := (find?_eq_some_iff h.once).1 hfind
  have hin := h.within planned hplanned
  obtain ⟨block, hblock⟩ := hwf.mem_ids_iff.1 hin
  have hid := hwf.id_of_find? hblock
  have hsettles := h.settles block (hid ▸ hblock) (hid ▸ hin)
  exact ⟨block, hblock, entry_eq_ok (hsettles.entry_eq_ok (hid ▸ hfind))⟩

/-- Of the calls for a block the only one that makes anything is the statement of the plan. -/
theorem creations (hwf : g.WellFormed) (h : plan.Covers g g.ids) (id : BlockId) :
    (plan.callsOf config id).filter Call.creates =
      (plan.statementOf? id).toList.map Call.execute := by
  cases hfind : plan.find? id with
  | none => simp [callsOf, statementOf?, hfind]
  | some planned =>
    obtain ⟨block, hblock, hspec⟩ := h.entryOf hwf hfind
    obtain ⟨hplanned, rfl⟩ := (find?_eq_some_iff h.once).1 hfind
    rw [h.created hwf hplanned, statementOf?, hfind, Option.bind_some]
    by_cases hsource : block.kind.isSource = true
    · have hload : planned.kind = .load := hspec.kind_eq.trans (BlockKind.isSource_iff.1 hsource)
      rw [if_pos hload, hspec.source hsource]
      rfl
    · rw [Bool.not_eq_true] at hsource
      obtain ⟨feeder, above, -, -, hsql⟩ := hspec.fed hsource
      have hload : planned.kind ≠ .load := hspec.kind_eq ▸ BlockKind.isSource_eq_false_iff.1 hsource
      have hcreates : Sql.creates planned.sql = true := by
        rw [hsql]
        exact Sql.creates_compile hsource _ _
      rw [if_neg hload, if_neg (Sql.not_isEmpty_of_creates hcreates)]
      rfl

/-- The statement that the plan has for a block is made of the block and of the table that is planned
    for the one that feeds it. -/
theorem compiled_of_statementOf? (hwf : g.WellFormed) (h : plan.Covers g g.ids) {sql : String}
    (hsql : plan.statementOf? id = some sql) : ∃ block feeder above,
      g.find? id = some block ∧ block.kind ≠ .load ∧ block.config.validate = .ok () ∧
        g.Feeds feeder id ∧ plan.find? feeder = some above ∧
          sql = (Sql.compile block.config above.output block.targetTable).text := by
  obtain ⟨planned, hfind, hstatement⟩ := Option.bind_eq_some_iff.1 hsql
  obtain ⟨block, found, hspec⟩ := h.entryOf hwf hfind
  split at hstatement
  · cases hstatement
  · next hempty =>
    obtain rfl := Option.some.inj hstatement
    have hsource : block.kind.isSource = false := by
      rw [← Bool.not_eq_true]
      intro hsource
      rw [hspec.source hsource] at hempty
      exact hempty rfl
    obtain ⟨feeder, above, hf, habove, hcompiled⟩ := hspec.fed hsource
    exact ⟨block, feeder, above, found, BlockKind.isSource_eq_false_iff.1 hsource, hspec.complete,
      hwf.id_of_find? found ▸ hf, habove, hcompiled⟩

/-- The statement that the plan has for a block makes the table of the block. -/
theorem target?_of_statementOf? (hwf : g.WellFormed) (h : plan.Covers g g.ids) {sql : String}
    (hsql : plan.statementOf? id = some sql) :
    (Sql.target? sql).map Sql.Target.name = some (.derived id) := by
  obtain ⟨block, feeder, above, hblock, hkind, -, -, -, rfl⟩ := h.compiled_of_statementOf? hwf hsql
  rw [Block.targetTable_of_ne_load hkind, hwf.id_of_find? hblock, Sql.target?_compile hkind]
  rfl

/-- No two blocks have the same statement. -/
theorem statementOf?_inj (hwf : g.WellFormed) (h : plan.Covers g g.ids) (id other : BlockId)
    (sql : String) (hsql : plan.statementOf? id = some sql)
    (hother : plan.statementOf? other = some sql) : id = other := by
  have htarget := h.target?_of_statementOf? hwf hsql
  rw [h.target?_of_statementOf? hwf hother] at htarget
  exact (TableName.derived_injective (Option.some.inj htarget)).symm

end Covers

end Plan

/-! ## Whole runs -/

/-- What the calls of a run make, beside the statements of the plan. -/
structure MadeInOrder (s : Session) (transcript : Transcript) : Prop where
  run_order : (transcript.map Exchange.call).filter Call.creates =
    (s.graph.runOrder.filterMap s.plan.statementOf?).map Call.execute
  plan_order : s.plan.statements = s.graph.topologicalOrder.filterMap s.plan.statementOf?
  /-- The statements are the same, each as often. -/
  perm : ((transcript.map Exchange.call).filter Call.creates).Perm
    (s.plan.statements.map Call.execute)
  /-- They come in the same order if and only if the order of the run and the topological order are the
      same, as far as blocks with statements go. -/
  same_order_iff : (transcript.map Exchange.call).filter Call.creates =
      s.plan.statements.map Call.execute ↔
    s.graph.runOrder.filter (fun id => (s.plan.statementOf? id).isSome) =
      s.graph.topologicalOrder.filter (fun id => (s.plan.statementOf? id).isSome)
  /-- That is so if the run keeps to pipeline order. -/
  same_order : s.graph.runOrder.Sublist s.graph.ids →
    (transcript.map Exchange.call).filter Call.creates = s.plan.statements.map Call.execute

/-- The calls of a run that make anything are the statements of the blocks visited. -/
theorem Agrees.creations {p : Progress (σ × Transcript)} (h : Agrees s config p)
    (hwf : s.graph.WellFormed) :
    (p.engineState.2.map Exchange.call).filter Call.creates =
      ((p.visits.map Visit.block).filterMap s.plan.statementOf?).map Call.execute := by
  have hcovers : s.plan.Covers s.graph s.graph.ids := Plan.ofGraph_covers hwf
  rw [h.calls, List.filter_flatMap, List.filterMap_map]
  induction p.visits with
  | nil => rfl
  | cons visit visits ih =>
    rw [List.flatMap_cons, hcovers.creations hwf, ih, List.filterMap_cons, Function.comp_apply]
    cases s.plan.statementOf? visit.block with
    | none => rfl
    | some sql => rfl

/-- However a session came about: a run of the whole pipeline in which the engine refuses no call makes
    tables by the statements of the plan, in the order of the run. -/
theorem runAll_makes (h : s.Reachable) (engine : Engine σ) (config : RunConfig) (state : σ)
    (haccepted : Accepted (engine.transcribing.runAll config s (state, [])).engineState.2) :
    MadeInOrder s (engine.transcribing.runAll config s (state, [])).engineState.2 := by
  have hwf := h.wellFormed
  have hcovers : s.plan.Covers s.graph s.graph.ids := Plan.ofGraph_covers hwf
  obtain ⟨hsteps, hroots⟩ := Engine.runAll_steps hwf engine.transcribing config (state, [])
  obtain ⟨visits, hvisits, hsub⟩ :=
    (Engine.runAll_along engine.transcribing config s (state, [])).visits
  have hnodup := (Engine.Steps.recorded hsteps).nodup
  have hagrees := Engine.Steps.agrees hwf hcovers hsteps haccepted
  have hcreations := hagrees.creations hwf
  generalize engine.transcribing.runAll config s (state, []) = p at *
  rw [List.nil_append] at hvisits
  rw [← hvisits] at hsub
  -- the planned blocks are among those visited, and those visited are a part of the order of the run
  have hplanned : ∀ id, (s.plan.statementOf? id).isSome → id ∈ p.visits.map Visit.block := by
    intro id hstatement
    obtain ⟨planned, hmem, rfl⟩ := List.mem_map.1 (Plan.mem_of_statementOf? hstatement)
    rw [← Visits.outcome?_isSome_iff, hagrees.succeeded hwf hcovers hroots hmem]
    rfl
  have hrun : s.graph.runOrder.filterMap s.plan.statementOf? =
      (p.visits.map Visit.block).filterMap s.plan.statementOf? :=
    filterMap_of_sublist (Graph.runOrder_nodup hwf) hsub fun id _ => hplanned id
  have hplan : s.plan.statements = s.graph.topologicalOrder.filterMap s.plan.statementOf? :=
    Plan.statements_eq_of_topologicalOrder hwf
  -- so the topological order can be cut down to the order of the run
  have hcut : (s.graph.topologicalOrder.filter (· ∈ s.graph.runOrder)).filterMap
      s.plan.statementOf? = s.plan.statements := by
    rw [hplan]
    exact filterMap_filter_mem fun id _ hstatement => hsub.subset (hplanned id hstatement)
  rw [← hrun] at hcreations
  refine ⟨hcreations, hplan, ?_, ?_, ?_⟩
  · rw [hcreations, ← hcut]
    exact ((Graph.runOrder_perm hwf).filterMap _).map _
  · have hinjective : Function.Injective Call.execute := fun sql other => Call.execute.inj
    rw [hcreations, hplan, (List.map_injective_iff.2 hinjective).eq_iff]
    exact filterMap_eq_filterMap_iff (hcovers.statementOf?_inj hwf)
  · intro hsame
    rw [hcreations, ← hcut, Graph.topologicalOrder_filter hwf hsame]

/-- A pipeline whose blocks were moved to where a run comes to them, after a run in which the engine
    refused the filter. The chart has no axes yet, so it is not made. -/
theorem made_after_move :
    let load : BlockId := ⟨1⟩
    let filter : BlockId := ⟨2⟩
    let sort : BlockId := ⟨3⟩
    let chart : BlockId := ⟨4⟩
    let edited := [Session.Edit.addConfig load (.load { tableName := "orders" }),
      .addConfig filter (.filter { column := "amount", value := some (.text "7") }),
      .addConfig sort (.sort { column := "amount" }), .addKind chart .chart, .connect load filter,
      .connect load sort, .connect filter chart].foldl Session.Edit.apply .empty
    let refusing : Scripted.Script := ⟨.replicate 7 (.ok []) ++ [.error ⟨"no column"⟩], [], []⟩
    let ran := (Scripted.engine.runAll {} edited refusing).session
    let s := (Session.Edit.move sort 1).apply ran
    let transcript := (Scripted.engine.transcribing.runAll {} s (⟨[], [], []⟩, [])).engineState.2
    s.Reachable ∧ Accepted transcript ∧ s.graph.ids = [load, sort, filter, chart] ∧
      s.graph.runOrder.Sublist s.graph.ids ∧ s.plan.statements.length = 2 ∧
      MadeInOrder s transcript := by
  intro load filter sort chart edited refusing ran s transcript
  have hreach : s.Reachable := .edit _ (.runAll _ _ _ (.edits .empty (by decide +kernel)))
    (by decide +kernel)
  have haccepted : Accepted transcript := by decide +kernel
  exact ⟨hreach, haccepted, by decide +kernel, by decide +kernel, by decide +kernel,
    runAll_makes hreach Scripted.engine {} ⟨[], [], []⟩ haccepted⟩

/-- Of two blocks below a load block the second one is connected last, so the run makes it first, while
    the plan has it last. -/
theorem made_against_plan_order :
    let load : BlockId := ⟨1⟩
    let filter : BlockId := ⟨2⟩
    let sort : BlockId := ⟨3⟩
    let s := [Session.Edit.addConfig load (.load { tableName := "orders" }),
      .addConfig filter (.filter { column := "amount", value := some (.text "7") }),
      .addConfig sort (.sort { column := "amount" }), .connect load filter,
      .connect load sort].foldl Session.Edit.apply .empty
    let transcript := (Scripted.engine.transcribing.runAll {} s (⟨[], [], []⟩, [])).engineState.2
    let filterSql := "CREATE OR REPLACE TABLE temp_00000000000000000000000000000002 AS SELECT * " ++
      "FROM orders WHERE \"amount\" = '7'"
    let sortSql := "CREATE OR REPLACE TABLE temp_00000000000000000000000000000003 AS SELECT * " ++
      "FROM orders ORDER BY \"amount\" ASC"
    s.Reachable ∧ Accepted transcript ∧ s.plan.statements = [filterSql, sortSql] ∧
      (transcript.map Exchange.call).filter Call.creates = [.execute sortSql, .execute filterSql] := by
  intro load filter sort s transcript filterSql sortSql
  have hreach : s.Reachable := .edits .empty (by decide +kernel)
  exact ⟨hreach, by decide +kernel, by decide +kernel, by decide +kernel⟩

end BlockPipeline

import BlockPipeline.Proofs.Run.Effect
import BlockPipeline.Proofs.Session.Changes

set_option autoImplicit false

/-! # Status, output and result of a block go together

Between edits and runs no block is running, a block has a result just when it has an output table, and
the table is the one that the block makes (`coherent_of_reachable`). An edit keeps this because of the
four ways in which it changes blocks, and a run because it sets the table and the result of a block
together, and only when the block is complete and has succeeded. -/

namespace BlockPipeline

/-- How the status and the output table of a block stand when nothing runs. -/
structure Block.Rested (block : Block) : Prop where
  not_running : block.status ≠ .running
  success : block.status = .success → block.outputTable.isSome = true
  idle : block.status = .idle → block.outputTable = none
  derived : block.kind ≠ .load → ∀ table, block.outputTable = some table → table = .derived block.id
  plain : block.kind = .load → ∀ table, block.outputTable = some table → table.isPlain = true

variable {block : Block} {g : Graph} {s s' : Session} {id : BlockId}

namespace Block

theorem Unrun.rested (h : block.Unrun) : block.Rested := by
  refine ⟨?_, ?_, ?_, ?_, ?_⟩
  · simp [h.status]
  · simp [h.status]
  · exact fun _ => h.outputTable
  · simp [h.outputTable]
  · simp [h.outputTable]

/-- The label of a block does not matter. -/
theorem Rested.relabel (h : block.Rested) (label : String) : { block with label }.Rested :=
  ⟨h.not_running, h.success, h.idle, h.derived, h.plain⟩

theorem Rested.markStale (h : block.Rested) : block.markStale.Rested :=
  ⟨h.not_running, h.success, h.idle, h.derived, h.plain⟩

/-- Of a configuration only the kind matters. -/
theorem Rested.configure (h : block.Rested) {config : BlockConfig} (hkind : config.kind = block.kind) :
    { block with config }.Rested := by
  refine ⟨h.not_running, h.success, h.idle, fun hload => ?_, fun hload => ?_⟩
  · exact h.derived (hkind ▸ hload)
  · exact h.plain (hkind ▸ hload)

theorem Rested.fail (h : block.Rested) (message : String) : (block.fail message).Rested :=
  ⟨by simp [Block.fail], by simp [Block.fail], by simp [Block.fail], h.derived, h.plain⟩

theorem isPlain_of_validate {load : LoadConfig} (h : load.validate = .ok ()) :
    TableName.isPlain ⟨load.tableName⟩ = true := by
  unfold LoadConfig.validate at h
  split_ifs at h with hempty hplain
  exact hplain

theorem validate_of_isPlain {load : LoadConfig} (h : TableName.isPlain ⟨load.tableName⟩ = true) :
    load.validate = .ok () := by
  have hne : load.tableName.isEmpty = false := by
    rw [← Bool.not_eq_true, String.isEmpty_iff]
    intro hempty
    rw [hempty] at h
    cases h
  rw [LoadConfig.validate, hne, h]
  rfl

/-- A complete block makes a table that is named for the block, or by a plain identifier. -/
theorem rested_succeed (h : block.config.validate = .ok ()) :
    (block.succeed block.targetTable).Rested := by
  refine ⟨by simp [succeed], by simp [succeed], by simp [succeed], ?_, ?_⟩
  · rintro hkind table ⟨⟩
    unfold targetTable
    cases hconfig : block.config with
    | load load => exact absurd (by simp [succeed, Block.kind, hconfig, BlockConfig.kind]) hkind
    | _ => rfl
  · rintro hkind table ⟨⟩
    unfold targetTable
    cases hconfig : block.config with
    | load load =>
      rw [hconfig] at h
      exact isPlain_of_validate h
    | _ => simp [succeed, Block.kind, hconfig, BlockConfig.kind] at hkind

end Block

namespace Session

/-- The blocks are at rest, and just those with an output table have a result. -/
structure AtRest (s : Session) : Prop where
  rested : ∀ id block, s.graph.find? id = some block → block.Rested
  cached : ∀ id, (s.results.find? id).isSome = ((s.graph.find? id).bind Block.outputTable).isSome

theorem atRest_of_unrun (hresults : s.results = []) (h : s.graph.Unrun) : s.AtRest := by
  refine ⟨fun id block hfind => (h id block hfind).rested, fun id => ?_⟩
  rw [hresults]
  cases hfind : s.graph.find? id with
  | none => rfl
  | some block =>
    rw [Option.bind_some, (h id block hfind).outputTable]
    rfl

/-! ## Edits -/

theorem AtRest.change {configured? : Option BlockId} (h : s.AtRest)
    (hchange : Change s s' configured?) : s'.AtRest := by
  cases hchange with
  | relabel label found results =>
    refine ⟨fun id block hfind => ?_, fun id => ?_⟩
    · rw [found] at hfind
      obtain ⟨former, hformer, rfl⟩ := Option.map_eq_some_iff.1 hfind
      exact (h.rested id former hformer).relabel _
    · rw [results, h.cached, found]
      cases s.graph.find? id <;> rfl
  | add block new unrun found results =>
    refine ⟨fun id other hfind => ?_, fun id => ?_⟩
    · rw [found] at hfind
      split at hfind
      · cases hfind
        exact unrun.rested
      · exact h.rested id other hfind
    · rw [results, h.cached, found]
      split
      · next hsame =>
          rw [hsame, new, Option.bind_some, unrun.outputTable]
          rfl
      · rfl
  | remove id found results =>
    refine ⟨fun other block hfind => ?_, fun other => ?_⟩
    · rw [found] at hfind
      split at hfind
      · cases hfind
      · exact h.rested other block hfind
    · rw [results, found]
      split
      · next hsame =>
          subst hsame
          exact congrArg Option.isSome (Assoc.find?_erase_self _ _)
      · next hne => exact (congrArg Option.isSome (Assoc.find?_erase_of_ne hne _)).trans (h.cached other)
  | configure id config block former kind self found results =>
    refine ⟨fun other after hfind => ?_, fun other => ?_⟩
    · by_cases hsame : other = id
      · rw [hsame, self] at hfind
        cases hfind
        exact (h.rested id block former).configure kind
      · rw [found other hsame] at hfind
        obtain ⟨before, hbefore, rfl⟩ := Option.map_eq_some_iff.1 hfind
        have hrested := h.rested other before hbefore
        split
        · exact hrested.markStale
        · exact hrested
    · rw [results, h.cached]
      by_cases hsame : other = id
      · rw [hsame, self, former]
        rfl
      · rw [found other hsame]
        cases s.graph.find? other with
        | none => rfl
        | some before =>
          rw [Option.map_some, Option.bind_some, Option.bind_some]
          split <;> rfl

/-! ## Runs -/

section
variable {σ : Type} {engine : Engine σ} {config : RunConfig} {start p q : Progress σ}

/-- Only complete blocks succeed. -/
theorem validate_of_fetchedAt {result : BlockResult}
    (h : engine.FetchedAt config start q p block result)
    (hsuccess : p.visits.outcome? block.id = some .succeeded) : block.config.validate = .ok () := by
  have hvisited : (engine.visit config q block.id).1.visits.outcome? block.id = some
      (q.session.conclude block.id (engine.attempt config q.session block q.engineState).1).2 := by
    rw [Engine.visit_eq engine config h.found]
    exact Visits.outcome?_append_self h.unvisited
  have houtcome := h.after.outcome?_eq hvisited
  rw [hsuccess] at houtcome
  obtain ⟨table, result', hanswer⟩ := Session.conclude_eq_succeeded (Option.some.inj houtcome).symm
  unfold Engine.attempt at hanswer
  split at hanswer
  · cases hanswer
  · next work htask => exact (Session.task_eq_ok_iff.1 htask).1

theorem AtRest.effect (h : start.session.AtRest) (hwf : start.session.graph.WellFormed)
    (heffect : engine.Effect config start p) : p.session.AtRest := by
  have hfound (id : BlockId) (hfetched : p.visits.outcome? id = some .succeeded) :
      ∃ block result, start.session.graph.find? id = some block ∧
        p.session.results.find? id = some result ∧ block.config.validate = .ok () := by
    obtain ⟨block, result, q, hblock, hresult, hat⟩ := heffect.fetched id hfetched
    obtain rfl := hwf.id_of_find? hblock
    exact ⟨block, result, hblock, hresult, validate_of_fetchedAt hat hfetched⟩
  refine ⟨fun id after hfind => ?_, fun id => ?_⟩
  · rw [heffect.settled] at hfind
    obtain ⟨block, hblock, rfl⟩ := Option.map_eq_some_iff.1 hfind
    have hrested := h.rested id block hblock
    cases houtcome : p.visits.outcome? id with
    | none => exact hrested
    | some outcome =>
      cases outcome with
      | skipped => exact hrested
      | failed message => exact hrested.fail message
      | succeeded =>
        obtain ⟨found, -, hfound, -, hvalid⟩ := hfound id houtcome
        obtain rfl := Option.some.inj (hfound.symm.trans hblock)
        exact Block.rested_succeed hvalid
  · by_cases hsuccess : p.visits.outcome? id = some .succeeded
    · obtain ⟨block, result, hblock, hresult, -⟩ := hfound id hsuccess
      rw [hresult, heffect.settled, hblock, hsuccess]
      rfl
    · rw [heffect.kept id hsuccess, heffect.settled, h.cached]
      cases hblock : start.session.graph.find? id with
      | none => rfl
      | some block =>
        cases houtcome : p.visits.outcome? id with
        | none => rfl
        | some outcome =>
          cases outcome with
          | skipped => rfl
          | failed message => rfl
          | succeeded => exact absurd houtcome hsuccess

theorem AtRest.ran {state : σ} (h : s.AtRest) (hwf : s.graph.WellFormed)
    (hran : engine.Ran config s state p) : p.session.AtRest := by
  obtain ⟨entry, hsteps⟩ := hran.steps hwf
  have hstart : (⟨s, state, []⟩ : Progress σ).session.AtRest := h
  exact hstart.effect hwf (Engine.Steps.effect hwf rfl hsteps)

end

/-! ## All sessions -/

theorem Reachable.atRest (h : s.Reachable) : s.AtRest := by
  induction h with
  | empty => exact atRest_of_unrun rfl fun _ _ hfind => by cases hfind
  | stored made =>
    obtain ⟨hresults, hunrun⟩ := unrun_of_ofDefinition made
    exact atRest_of_unrun hresults hunrun
  | edit edit past fresh ih => exact ih.change (change_of_edit past.wellFormed fresh)
  | run engine config state id past ran ih => exact ih.ran past.wellFormed (.one ran)
  | runAll engine config state past ih => exact ih.ran past.wellFormed .all
  | removeBlock engine config state state' id block past removed ih =>
    exact ih.change (change_of_remove (remove_of_removeBlock removed))

/-- How blocks and results go together between edits and runs. -/
structure Coherent (s : Session) : Prop where
  not_running : ∀ id block, s.graph.find? id = some block → block.status ≠ .running
  /-- Only blocks that are there have results. -/
  known : ∀ id ∈ s.results.ids, id ∈ s.graph.ids
  cached_iff : ∀ id block, s.graph.find? id = some block →
    (s.results.contains id = true ↔ block.outputTable.isSome = true)
  success : ∀ id block, s.graph.find? id = some block → block.status = .success →
    block.outputTable.isSome = true
  idle : ∀ id block, s.graph.find? id = some block → block.status = .idle → block.outputTable = none
  derived : ∀ id block, s.graph.find? id = some block → block.kind ≠ .load →
    ∀ table, block.outputTable = some table → table = .derived id
  plain : ∀ id block, s.graph.find? id = some block → block.kind = .load →
    ∀ table, block.outputTable = some table → table.isPlain = true

/-- However a session came about, its blocks and results go together. -/
theorem coherent_of_reachable (h : s.Reachable) : s.Coherent := by
  have hwf := h.wellFormed
  have hrest := h.atRest
  refine
    { not_running := fun id block hfind => (hrest.rested id block hfind).not_running
      known := fun id hid => ?_
      cached_iff := fun id block hfind => ?_
      success := fun id block hfind => (hrest.rested id block hfind).success
      idle := fun id block hfind => (hrest.rested id block hfind).idle
      derived := fun id block hfind => ?_
      plain := fun id block hfind => (hrest.rested id block hfind).plain }
  · obtain ⟨result, hresult⟩ := Assoc.mem_keys_iff.1 hid
    have hcached := hrest.cached id
    rw [ResultStore.find?, hresult] at hcached
    cases hfind : s.graph.find? id with
    | some block => exact hwf.mem_ids_iff.2 ⟨block, hfind⟩
    | none =>
      rw [hfind] at hcached
      cases hcached
  · have hcached := hrest.cached id
    rw [hfind, Option.bind_some] at hcached
    rw [← hcached]
    exact Iff.rfl
  · obtain rfl := hwf.id_of_find? hfind
    exact (hrest.rested _ block hfind).derived

/-- A pipeline that has run. Then its load block is given a table name that it cannot run with, its
    filter is copied, and it runs once more. -/
theorem coherent_after_edited_load :
    let load : BlockId := ⟨1⟩
    let filter : BlockId := ⟨2⟩
    let copy : BlockId := ⟨3⟩
    let made := [Edit.addConfig load (.load { tableName := "orders" }),
      .addConfig filter (.filter { column := "amount", value := some (.text "7") }),
      .connect load filter].foldl Edit.apply .empty
    let ran := (Scripted.engine.runAll {} made ⟨[], [], []⟩).session
    let edited := [Edit.setConfig load (.load { tableName := "new orders" }),
      .duplicate filter copy].foldl Edit.apply ran
    let s := (Scripted.engine.runAll {} edited ⟨[], [], []⟩).session
    s.Reachable ∧ s.results.ids = [load, filter] ∧
      s.graph.blocks.map (fun block => (block.status, block.outputTable)) =
        [(.error "Table name 'new orders' must be a plain identifier", some ⟨"orders"⟩),
          (.success, some (.derived filter)), (.idle, none)] ∧ s.Coherent := by
  intro load filter copy made ran edited s
  have hran : ran.Reachable := .runAll _ _ _ (.edits .empty (by decide +kernel))
  have hreach : s.Reachable := .runAll _ _ _ (.edits hran (by decide +kernel))
  exact ⟨hreach, by decide +kernel, by decide +kernel, coherent_of_reachable hreach⟩

end Session

end BlockPipeline

import BlockPipeline.Proofs.Run.Effect
import BlockPipeline.Proofs.Run.Extent
import BlockPipeline.Proofs.Run.Trial
import BlockPipeline.Proofs.Run.Turns

set_option autoImplicit false

/-! # What a run comes to on the engine in memory

What becomes of a block on the engine in memory can be told without a run: it depends on the block, on
what becomes of the one that feeds it, and on the tables and refusals that are there when the run
begins (`Forecast`). The order in which blocks are run does not come into it, since every block writes
a table of its own and reads one that its feeder has made. Each step of a run bears the forecast out,
in its record, in the tables of the engine and in the results that are kept (`Steps.borne`).

For this the engine has to find the names in the statements as they were meant, and no load block may
read a table that another block makes (`Session.Legible`). -/

namespace BlockPipeline

/-- The engine in memory reads the statements of the session as they were meant: no name or text that
    stands behind the input of a statement holds the words in front of a source. And no load block
    reads a table that is named for a block. -/
structure Session.Legible (s : Session) : Prop where
  unmarked : ∀ block ∈ s.graph.blocks, ∀ text ∈ block.config.lateTexts,
    ¬ " FROM ".toList <:+: text.toList
  apart : ∀ block ∈ s.graph.blocks, block.kind = .load → ∀ id ∈ s.graph.ids,
    block.targetTable ≠ .derived id

theorem Graph.mem_roots_iff {g : Graph} {id : BlockId} {block : Block} (hwf : g.WellFormed)
    (found : g.find? id = some block) : id ∈ g.roots ↔ block.kind = .load := by
  rw [Engine.mem_roots hwf, found]
  simp [BlockKind.isSource_iff]

/-- The table that a load block reads is not named for a block. -/
theorem Session.Legible.source_ne {s : Session} {block : Block} {id other : BlockId} (h : s.Legible)
    (hwf : s.graph.WellFormed) (found : s.graph.find? id = some block) (load : block.kind = .load)
    (hother : other ∈ s.graph.ids) : block.targetTable.text ≠ (TableName.derived other).text := by
  obtain rfl := hwf.id_of_find? found
  exact TableName.text_ne (h.apart block (hwf.mem_blocks_iff.2 found) load other hother)

namespace Memory

variable {g : Graph} {db : Database} {limit : Nat} {id feeder : BlockId} {block : Block}
  {table : TableName} {content : Table} {config : RunConfig} {s : Session} {p q : Progress Database}

/-! ## Fates -/

/-- What becomes of a block that a run comes to. -/
inductive Fate where
  | skipped
  | ran (trial : Trial)

namespace Fate

/-- What is recorded of the block. -/
def outcome : Fate → Outcome
  | skipped => .skipped
  | ran trial => trial.outcome

/-- The content of the table of the block, if there is one on account of it. -/
def content? : Fate → Option Table
  | skipped => none
  | ran trial => trial.content?

theorem eq_of_succeeded {fate : Fate} (h : fate.outcome = .succeeded) :
    ∃ table content, fate = ran (.succeeded table content) := by
  rcases fate with _ | (_ | ⟨table, content⟩)
  · cases h
  · cases h
  · exact ⟨table, content, rfl⟩

end Fate

/-- What becomes of a block, if a run on these tables comes to it. -/
inductive Forecast (g : Graph) (db : Database) (limit : Nat) : BlockId → Fate → Prop where
  | load {id : BlockId} {block : Block} (found : g.find? id = some block)
    (load : block.kind = .load) : Forecast g db limit id (.ran (.ofLoad db limit block))
  | copy {id feeder : BlockId} {block : Block} {input : TableName} {content : Table}
    (found : g.find? id = some block) (feeds : g.Feeds feeder id)
    (above : Forecast g db limit feeder (.ran (.succeeded input content))) :
    Forecast g db limit id (.ran (.ofCopy db limit block input content))
  | halted {id feeder : BlockId} {fate : Fate} (feeds : g.Feeds feeder id)
    (above : Forecast g db limit feeder fate) (halts : fate.outcome ≠ .succeeded) :
    Forecast g db limit id .skipped

namespace Forecast

variable {fate fate' : Fate}

theorem not_fed (hwf : g.WellFormed) (found : g.find? id = some block) (load : block.kind = .load) :
    ¬ g.Feeds feeder id := by
  intro feeds
  have hsource := hwf.fed_kind feeds found
  rw [load] at hsource
  cases hsource

/-- One thing becomes of a block. -/
theorem unique (hwf : g.WellFormed) (h : Forecast g db limit id fate)
    (h' : Forecast g db limit id fate') : fate = fate' := by
  induction h generalizing fate' with
  | load found load =>
    cases h' with
    | load found' _ => rw [Option.some.inj (found.symm.trans found')]
    | copy _ feeds _ => exact absurd feeds (not_fed hwf found load)
    | halted feeds _ _ => exact absurd feeds (not_fed hwf found load)
  | copy found feeds _ ih =>
    cases h' with
    | load found' load => exact absurd feeds (not_fed hwf found' load)
    | copy found' feeds' above' =>
      obtain rfl := Graph.feeder_unique feeds feeds'
      cases ih above'
      rw [Option.some.inj (found.symm.trans found')]
    | halted feeds' above' halts =>
      obtain rfl := Graph.feeder_unique feeds feeds'
      exact absurd (ih above' ▸ rfl) halts
  | halted feeds _ halts ih =>
    cases h' with
    | load found' load => exact absurd feeds (not_fed hwf found' load)
    | copy _ feeds' above' =>
      obtain rfl := Graph.feeder_unique feeds feeds'
      exact absurd (ih above' ▸ rfl) halts
    | halted => rfl

/-- A block that succeeds is complete and gives its own table. That of a load block is there before. -/
theorem given (hwf : g.WellFormed) (h : Forecast g db limit id fate)
    (hfate : fate = .ran (.succeeded table content)) :
    ∃ block, g.find? id = some block ∧ block.config.validate = .ok () ∧ table = block.targetTable ∧
      (block.kind = .load → db.table? table.text = some content) := by
  cases h with
  | load found load =>
    obtain ⟨hvalid, rfl, htable⟩ := Trial.ofLoad_eq_succeeded (Fate.ran.inj hfate)
    exact ⟨_, found, hvalid, rfl, fun _ => htable⟩
  | copy found feeds above =>
    obtain ⟨hvalid, rfl, -⟩ := Trial.ofCopy_eq_succeeded (Fate.ran.inj hfate)
    exact ⟨_, found, hvalid, rfl, fun load => absurd feeds (not_fed hwf found load)⟩
  | halted => cases hfate

theorem mem_ids (hwf : g.WellFormed) (h : Forecast g db limit id fate) : id ∈ g.ids := by
  cases h with
  | load found _ => exact hwf.mem_ids_iff.2 ⟨_, found⟩
  | copy found _ _ => exact hwf.mem_ids_iff.2 ⟨_, found⟩
  | halted feeds _ _ => exact hwf.fed_mem feeds

end Forecast

/-! ## What is borne out -/

/-- The block has this table and this result. -/
structure Yields (p : Progress Database) (id : BlockId) (table : TableName) (result : BlockResult) :
    Prop where
  output : (p.session.graph.find? id).bind Block.outputTable = some table
  result : p.session.results.find? id = some result

/-- So far the run has borne the forecast out. A block that is no load block has written its own table,
    and no other table has changed. -/
structure Borne (s : Session) (db : Database) (config : RunConfig) (p : Progress Database) : Prop where
  refusals : p.engineState.refusals = db.refusals
  foretold : ∀ id outcome, p.visits.outcome? id = some outcome →
    ∃ fate, Forecast s.graph db config.previewLimit id fate ∧ fate.outcome = outcome
  cached : ∀ id table content, (p.visits.outcome? id).isSome →
    Forecast s.graph db config.previewLimit id (.ran (.succeeded table content)) →
      p.session.results.find? id = some (content.result config.previewLimit)
  made : ∀ id fate, (p.visits.outcome? id).isSome → id ∉ s.graph.roots →
    Forecast s.graph db config.previewLimit id fate →
      p.engineState.table? (TableName.derived id).text =
        fate.content?.or (db.table? (TableName.derived id).text)
  kept : ∀ name, (∀ id, (p.visits.outcome? id).isSome → id ∉ s.graph.roots →
    name ≠ (TableName.derived id).text) → p.engineState.table? name = db.table? name

theorem borne_start (s : Session) (db : Database) (config : RunConfig) :
    Borne s db config ⟨s, db, []⟩ := by
  refine ⟨rfl, ?_, ?_, ?_, fun _ _ => rfl⟩
  · intro id outcome hvisited
    cases hvisited
  · intro id table content hvisited
    cases hvisited
  · intro id fate hvisited
    cases hvisited

/-- One more block is recorded as foretold. It writes its own table, if it is no load block, and no
    other. -/
theorem Borne.extend (hwf : s.graph.WellFormed) (h : Borne s db config p) {fate : Fate}
    (unvisited : p.visits.outcome? id = none)
    (hfate : Forecast s.graph db config.previewLimit id fate)
    (hvisits : q.visits = p.visits ++ [⟨id, fate.outcome⟩])
    (hrefusals : q.engineState.refusals = p.engineState.refusals)
    (hothers : ∀ name, (id ∉ s.graph.roots → name ≠ (TableName.derived id).text) →
      q.engineState.table? name = p.engineState.table? name)
    (hself : id ∉ s.graph.roots → q.engineState.table? (TableName.derived id).text =
      fate.content?.or (p.engineState.table? (TableName.derived id).text))
    (hresults : ∀ other, other ≠ id → q.session.results.find? other = p.session.results.find? other)
    (hresult : ∀ table content, fate = .ran (.succeeded table content) →
      q.session.results.find? id = some (content.result config.previewLimit)) :
    Borne s db config q := by
  have hnow : q.visits.outcome? id = some fate.outcome := by
    rw [hvisits]
    exact Visits.outcome?_append_self unvisited
  have hbefore : ∀ other, other ≠ id → q.visits.outcome? other = p.visits.outcome? other :=
    fun other hne => by
      rw [hvisits]
      exact Visits.outcome?_append_of_ne hne.symm
  refine ⟨hrefusals.trans h.refusals, ?_, ?_, ?_, ?_⟩
  · intro other outcome hvisited
    by_cases hsame : other = id
    · subst hsame
      exact ⟨fate, hfate, Option.some.inj (hnow.symm.trans hvisited)⟩
    · rw [hbefore other hsame] at hvisited
      exact h.foretold other outcome hvisited
  · intro other table content hvisited hother
    by_cases hsame : other = id
    · subst hsame
      exact hresult table content (hfate.unique hwf hother)
    · rw [hbefore other hsame] at hvisited
      rw [hresults other hsame]
      exact h.cached other table content hvisited hother
  · intro other fate' hvisited hroot hother
    by_cases hsame : other = id
    · subst hsame
      -- the table of the block has not been written before
      have hkept : p.engineState.table? (TableName.derived other).text =
          db.table? (TableName.derived other).text := by
        refine h.kept _ fun former hformer _ => TableName.derived_text_ne ?_
        rintro rfl
        rw [unvisited] at hformer
        cases hformer
      rw [hself hroot, hkept, hfate.unique hwf hother]
    · rw [hbefore other hsame] at hvisited
      rw [hothers _ fun _ => TableName.derived_text_ne hsame]
      exact h.made other fate' hvisited hroot hother
  · intro name hname
    have hid : id ∉ s.graph.roots → name ≠ (TableName.derived id).text :=
      hname id (by rw [hnow]; rfl)
    rw [hothers name hid]
    refine h.kept name fun other hvisited => hname other ?_
    by_cases hsame : other = id
    · rw [hsame, hnow]
      rfl
    · rwa [hbefore other hsame]

/-- An attempt that comes to what is foretold is recorded as foretold. -/
theorem Borne.conclude (hwf : s.graph.WellFormed) (h : Borne s db config p) {trial : Trial}
    {after : Database} (found : p.session.graph.find? id = some block)
    (unvisited : p.visits.outcome? id = none)
    (hfate : Forecast s.graph db config.previewLimit id (.ran trial))
    (hattempt : engine.attempt config p.session block p.engineState =
      (trial.answer config.previewLimit, after))
    (hrefusals : after.refusals = p.engineState.refusals)
    (hothers : ∀ name, (id ∉ s.graph.roots → name ≠ (TableName.derived id).text) →
      after.table? name = p.engineState.table? name)
    (hself : id ∉ s.graph.roots → after.table? (TableName.derived id).text =
      trial.content?.or (p.engineState.table? (TableName.derived id).text)) :
    Borne s db config (engine.visit config p id).1 := by
  have houtcome : (p.session.conclude id (trial.answer config.previewLimit)).2 =
      (Fate.ran trial).outcome := by
    cases trial <;> rfl
  rw [Engine.visit_eq engine config found, hattempt]
  refine h.extend hwf unvisited hfate ?_ hrefusals hothers hself ?_ ?_
  · simp only [houtcome]
  · intro other hne
    exact Session.results_conclude_of_ne hne _
  · intro table content hsame
    obtain rfl := Fate.ran.inj hsame
    exact Assoc.find?_insert_self _ _ _

/-- A load block reads a table that no block of the run writes. -/
theorem Borne.source_eq (hwf : s.graph.WellFormed) (hlegible : s.Legible) (h : Borne s db config p)
    (found : s.graph.find? id = some block) (load : block.kind = .load) :
    p.engineState.table? block.targetTable.text = db.table? block.targetTable.text := by
  refine h.kept _ fun other hvisited _ => ?_
  obtain ⟨outcome, houtcome⟩ := Option.isSome_iff_exists.1 hvisited
  obtain ⟨fate, hfate, -⟩ := h.foretold other outcome houtcome
  exact hlegible.source_ne hwf found load (hfate.mem_ids hwf)

/-- The table that a block has given holds what was foretold. -/
theorem Borne.table?_given (hwf : s.graph.WellFormed) (hlegible : s.Legible)
    (h : Borne s db config p) (hvisited : (p.visits.outcome? id).isSome)
    (hfate : Forecast s.graph db config.previewLimit id (.ran (.succeeded table content))) :
    p.engineState.table? table.text = some content := by
  obtain ⟨block, found, -, rfl, hload⟩ := hfate.given hwf rfl
  by_cases load : block.kind = .load
  · rw [h.source_eq hwf hlegible found load, hload load]
  · have hroot : id ∉ s.graph.roots := mt (Graph.mem_roots_iff hwf found).1 load
    rw [Block.targetTable_of_ne_load load, hwf.id_of_find? found, h.made id _ hvisited hroot hfate]
    rfl

/-- A block that has succeeded has the table and the result that were foretold. -/
theorem Borne.yields (hwf : s.graph.WellFormed) (h : Borne s db config p)
    (heffect : engine.Effect config ⟨s, db, []⟩ p) (hsuccess : p.visits.outcome? id = some .succeeded)
    (hfate : Forecast s.graph db config.previewLimit id (.ran (.succeeded table content))) :
    Yields p id table (content.result config.previewLimit) := by
  obtain ⟨block, found, -, rfl, -⟩ := hfate.given hwf rfl
  refine ⟨?_, h.cached id _ content (by rw [hsuccess]; rfl) hfate⟩
  rw [heffect.settled, hsuccess, found]
  rfl

theorem Borne.visit_load (hwf : s.graph.WellFormed) (hlegible : s.Legible) (h : Borne s db config p)
    (found : p.session.graph.find? id = some block) (start : s.graph.find? id = some block)
    (unvisited : p.visits.outcome? id = none) (load : block.kind = .load) :
    Borne s db config (engine.visit config p id).1 := by
  obtain ⟨statements, hattempt⟩ := @attempt_load p.session block load config p.engineState
  have hroot : id ∈ s.graph.roots := (Graph.mem_roots_iff hwf start).2 load
  rw [Trial.ofLoad_congr h.refusals (h.source_eq hwf hlegible start load)] at hattempt
  exact h.conclude hwf found unvisited (.load start load) hattempt rfl (fun _ _ => rfl)
    fun hnot => absurd hroot hnot

theorem Borne.visit_copy (hwf : s.graph.WellFormed) (hlegible : s.Legible)
    (heffect : engine.Effect config ⟨s, db, []⟩ p) (h : Borne s db config p)
    (found : p.session.graph.find? id = some block) (start : s.graph.find? id = some block)
    (unvisited : p.visits.outcome? id = none) (feeds : s.graph.Feeds feeder id)
    (hsuccess : p.visits.outcome? feeder = some .succeeded) :
    Borne s db config (engine.visit config p id).1 := by
  obtain ⟨fate, hfate, houtcome⟩ := h.foretold feeder .succeeded hsuccess
  obtain ⟨input, content, rfl⟩ := Fate.eq_of_succeeded houtcome
  obtain ⟨above, habove, hvalid, rfl, -⟩ := hfate.given hwf rfl
  have hcontent := h.table?_given hwf hlegible (by rw [hsuccess]; rfl) hfate
  have hload : block.kind ≠ .load := fun load => Forecast.not_fed hwf start load feeds
  have hid := hwf.id_of_find? start
  have hinput : p.session.inputTable? block.id = some above.targetTable := by
    rw [hid]
    exact heffect.inputTable?_eq feeds habove hsuccess
  have hlate := hlegible.unmarked block (hwf.mem_blocks_iff.2 (hid.symm ▸ start))
  obtain ⟨statements, hattempt⟩ :=
    attempt_copy hload hlate hinput (isPlain_targetTable hvalid) hcontent config
  rw [Trial.ofCopy_congr h.refusals, Block.targetTable_of_ne_load hload, hid] at hattempt
  refine h.conclude hwf found unvisited (.copy start feeds hfate) hattempt ?_ ?_ ?_
  · exact Database.refusals_with? _ _ _
  · intro name hname
    have hroot : id ∉ s.graph.roots := fun hroot => Engine.not_fed_of_root hwf hroot feeds
    exact Database.table?_with?_of_ne (hname hroot) _ _
  · intro _
    exact Database.table?_with?_self _ _ _

/-! ## Whole runs -/

theorem Steps.borne (hwf : s.graph.WellFormed) (hlegible : s.Legible)
    (hsteps : engine.Steps config (· ∈ s.graph.roots) ⟨s, db, []⟩ p) : Borne s db config p := by
  induction hsteps with
  | refl => exact borne_start s db config
  | tail hbefore hstep ih =>
    have heffect := Engine.Steps.effect hwf rfl hbefore
    have hfeeds := Graph.feeds_of_outline heffect.outline
    cases hstep with
    | run found unvisited ready =>
      have start := (heffect.find?_eq unvisited).symm.trans found
      rcases ready with hroot | ⟨feeder, feeds, hsuccess⟩
      · exact ih.visit_load hwf hlegible found start unvisited ((Graph.mem_roots_iff hwf start).1 hroot)
      · exact ih.visit_copy hwf hlegible heffect found start unvisited (hfeeds ▸ feeds) hsuccess
    | skip unvisited fed visited halted =>
      obtain ⟨fate, hfate, rfl⟩ := ih.foretold _ _ visited
      exact ih.extend hwf unvisited (.halted (hfeeds ▸ fed) hfate halted) rfl rfl (fun _ _ => rfl)
        (fun _ => rfl) (fun _ _ => rfl) fun _ _ hsame => by cases hsame

/-- A run of a whole pipeline bears the forecast out. -/
theorem runAll_borne (hwf : s.graph.WellFormed) (hlegible : s.Legible) (db : Database)
    (config : RunConfig) : Borne s db config (engine.runAll config s db) :=
  Steps.borne hwf hlegible (Engine.runAll_steps hwf engine config db).1

/-- Of a block that has succeeded in a run the table and its content were foretold. -/
theorem runAll_yields (hwf : s.graph.WellFormed) (hlegible : s.Legible)
    (hsuccess : (engine.runAll config s db).visits.outcome? id = some .succeeded) :
    ∃ table content, Forecast s.graph db config.previewLimit id (.ran (.succeeded table content)) ∧
      Yields (engine.runAll config s db) id table (content.result config.previewLimit) := by
  have hborne := runAll_borne hwf hlegible db config
  obtain ⟨fate, hfate, houtcome⟩ := hborne.foretold id .succeeded hsuccess
  obtain ⟨table, content, rfl⟩ := Fate.eq_of_succeeded houtcome
  exact ⟨table, content, hfate,
    hborne.yields hwf (Engine.runAll_effect hwf engine config db) hsuccess hfate⟩

end Memory

end BlockPipeline

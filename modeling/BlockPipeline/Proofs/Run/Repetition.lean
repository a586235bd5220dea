import BlockPipeline.Engine.Scripted
import BlockPipeline.Proofs.Run.Order
import BlockPipeline.Proofs.Run.Present
import BlockPipeline.Proofs.Session.Stored

set_option autoImplicit false

/-! # Running a block once more

On the engine in memory a run of a block can be repeated: the second run records what the first one
did, and changes nothing any more (`run_repeated`). This is so although the first run may have come
only half-way, with tables whose results could not be fetched and with blocks that were skipped.

Each step of the first run keeps that every block that was run would come to the same if it were run
now (`Lasting`). What could get in the way is that a later block makes a table that an earlier one
reads. But all blocks of the run go by tables of one content, since each reads what the one above it
has copied (`Lasts`); so a table that is made anew holds what it held before, wherever it is read. -/

namespace BlockPipeline

open Assoc (Ascending)

/-- What of a session takes part in its runs on the engine in memory. -/
structure Session.Foreseen (s : Session) : Prop where
  wellFormed : s.graph.WellFormed
  atRest : s.AtRest
  ascending : Ascending s.results
  unmarked : ∀ block ∈ s.graph.blocks, ∀ text ∈ block.config.lateTexts,
    ¬ " FROM ".toList <:+: text.toList

namespace Session

variable {s s' : Session} {id : BlockId} {block : Block}

theorem inputTable?_congr (houtline : s'.graph.outline = s.graph.outline)
    (hfeeders : ∀ feeder, s.graph.Feeds feeder id → s'.graph.find? feeder = s.graph.find? feeder) :
    s'.inputTable? id = s.inputTable? id := by
  have hinput : ∀ s : Session, s.inputTable? id =
      (s.graph.inputOf id).bind fun feeder => (s.graph.find? feeder).bind Block.outputTable :=
    fun _ => rfl
  rw [hinput, hinput, Graph.inputOf_of_outline houtline]
  cases hfed : s.graph.inputOf id with
  | none => rfl
  | some feeder => rw [Option.bind_some, Option.bind_some, hfeeders feeder hfed]

/-- An answer that is recorded changes the input of no block that the recorded one does not feed. -/
theorem inputTable?_conclude {other : BlockId} (hnot : ¬ s.graph.Feeds id other)
    (answer : Except String (TableName × BlockResult)) :
    (s.conclude id answer).1.inputTable? other = s.inputTable? other := by
  refine inputTable?_congr (outline_conclude _ _ _) fun feeder hf => find?_conclude_of_ne ?_ _
  rintro rfl
  exact hnot hf

theorem inputTable?_of_feeds {feeder : BlockId} (hf : s.graph.Feeds feeder id)
    (hfind : s.graph.find? feeder = some block) : s.inputTable? id = block.outputTable := by
  have hinput : s.inputTable? id =
      (s.graph.inputOf id).bind fun feeder => (s.graph.find? feeder).bind Block.outputTable := rfl
  rw [hinput, hf, Option.bind_some, hfind, Option.bind_some]

/-- Every table that a block reads has a plain name. -/
theorem AtRest.isPlain_input (h : s.AtRest) {input : TableName}
    (hinput : s.inputTable? id = some input) : input.isPlain = true := by
  obtain ⟨feeder, -, hfeeder⟩ := Option.bind_eq_some_iff.1 hinput
  obtain ⟨block, hfind, houtput⟩ := Option.bind_eq_some_iff.1 hfeeder
  have hrested := h.rested feeder block hfind
  by_cases hload : block.kind = .load
  · exact hrested.plain hload input houtput
  · rw [hrested.derived hload input houtput]
    exact TableName.isPlain_derived block.id

theorem Reachable.foreseen (h : s.Reachable) (hunmarked : ∀ block ∈ s.graph.blocks,
    ∀ text ∈ block.config.lateTexts, ¬ " FROM ".toList <:+: text.toList) : s.Foreseen :=
  ⟨h.wellFormed, h.atRest, h.ascending, hunmarked⟩

/-- Steps of a run keep what takes part in it. -/
theorem Foreseen.steps {σ : Type} {engine : Engine σ} {config : RunConfig} {entry : BlockId → Prop}
    {state : σ} {p : Progress σ} (h : s.Foreseen)
    (hsteps : engine.Steps config entry ⟨s, state, []⟩ p) : p.session.Foreseen := by
  have houtline := Engine.Steps.outline_eq hsteps
  have heffect := Engine.Steps.effect h.wellFormed rfl hsteps
  refine ⟨h.wellFormed.of_outline houtline, AtRest.effect h.atRest h.wellFormed heffect,
    ascending_of_steps hsteps h.ascending, ?_⟩
  intro block hblock
  have hmem : block.outline ∈ s.graph.blocks.map Block.outline := by
    rw [← Graph.blocks_of_outline houtline]
    exact List.mem_map_of_mem hblock
  obtain ⟨former, hformer, hsame⟩ := List.mem_map.1 hmem
  obtain ⟨-, -, hconfig⟩ := BlockDefinition.mk.inj hsame
  rw [← hconfig]
  exact h.unmarked former hformer

end Session

namespace Memory

variable {s s' : Session} {db db' after : Database} {limit : Nat} {id root : BlockId} {block : Block}
  {outcome : Outcome} {table : TableName} {trial : Trial} {config : RunConfig}
  {p q : Progress Database} {content? : Option Table}

/-! ## Blocks that are visited -/

theorem conclude_answer (s : Session) (id : BlockId) (trial : Trial) (limit : Nat) :
    (s.conclude id (trial.answer limit)).2 = trial.outcome := by
  cases trial <;> rfl

/-- A visit comes to what is foreseen of the block. -/
theorem visit_now (h : p.session.Foreseen) (hfind : p.session.graph.find? id = some block)
    (config : RunConfig) :
    ∃ trial after, Trial.now p.session p.engineState config.previewLimit block = trial ∧
      (engine.visit config p id).1 =
        ⟨(p.session.conclude id (trial.answer config.previewLimit)).1, after,
          p.visits ++ [⟨id, trial.outcome⟩]⟩ ∧
      Leaves trial block.targetTable p.engineState after := by
  have hid := h.wellFormed.id_of_find? hfind
  have hlate := h.unmarked block (h.wellFormed.mem_blocks_iff.2 (hid.symm ▸ hfind))
  obtain ⟨after, hattempt, hleaves⟩ := attempt_now hlate
    (fun input hinput => h.atRest.isPlain_input hinput) config p.engineState
  refine ⟨_, after, rfl, ?_, hleaves⟩
  rw [Engine.visit_eq engine config hfind, hattempt, conclude_answer]

/-- A table that holds what the block goes by holds it afterwards. -/
theorem Leaves.keeps (h : Leaves trial table db after)
    (hmade : ∀ content, trial.content? = some content → content? = some content) {name : String}
    (hname : db.table? name = content?) : after.table? name = content? := by
  rw [h.tables]
  split
  · cases hcontent : trial.content? with
    | none => rw [Option.none_or, hname]
    | some content => rw [Option.some_or, hmade content hcontent]
  · exact hname

theorem held?_keeps (hinput : s'.inputTable? block.id = s.inputTable? block.id)
    (hkeeps : ∀ name, db.table? name = content? → db'.table? name = content?)
    (hheld : held? s db block = content?) : held? s' db' block = content? := by
  have hsource : s'.sourceTable? block = s.sourceTable? block := by
    rw [Session.sourceTable?, Session.sourceTable?, hinput]
  rw [held?] at hheld ⊢
  rw [hsource]
  cases htable : s.sourceTable? block with
  | none => rwa [htable] at hheld
  | some table =>
    rw [htable, Option.bind_some] at hheld
    exact hkeeps table.text hheld

/-! ## What lasts -/

/-- If the block were run now, this would be recorded of it and nothing would change. -/
structure Lasting (limit : Nat) (s : Session) (db : Database) (block : Block) (outcome : Outcome) :
    Prop where
  recorded : (Trial.now s db limit block).outcome = outcome
  settled : block.settle (some outcome) = block
  made : ∀ content, (Trial.now s db limit block).content? = some content →
    db.table? block.targetTable.text = some content
  cached : ∀ table content, Trial.now s db limit block = .succeeded table content →
    s.results.find? block.id = some (content.result limit)

theorem Lasting.congr (h : Lasting limit s db block outcome) (hrefusals : db'.refusals = db.refusals)
    (hinput : s'.inputTable? block.id = s.inputTable? block.id)
    (hkeeps : ∀ name, db.table? name = held? s db block → db'.table? name = held? s db block)
    (hresult : s'.results.find? block.id = s.results.find? block.id) :
    Lasting limit s' db' block outcome := by
  have hnow : Trial.now s' db' limit block = Trial.now s db limit block :=
    Trial.now_congr hrefusals hinput (held?_keeps hinput hkeeps rfl)
  refine ⟨?_, h.settled, fun content hcontent => ?_, fun table content hsuccess => ?_⟩
  · rw [hnow, h.recorded]
  · rw [hnow] at hcontent
    have hheld := Trial.content?_now hcontent
    rw [hkeeps _ ((h.made content hcontent).trans hheld.symm), hheld]
  · rw [hnow] at hsuccess
    rw [hresult, h.cached table content hsuccess]

/-- Running a block of which this lasts changes nothing. -/
theorem Lasting.visit_eq (h : Lasting config.previewLimit p.session p.engineState block outcome)
    (hp : p.session.Foreseen) (hfind : p.session.graph.find? id = some block) :
    ∃ after, (engine.visit config p id).1 = ⟨p.session, after, p.visits ++ [⟨id, outcome⟩]⟩ ∧
      after.refusals = p.engineState.refusals ∧
      ∀ name, after.table? name = p.engineState.table? name := by
  obtain ⟨trial, after, hnow, hvisit, hleaves⟩ := visit_now hp hfind config
  obtain rfl := hp.wellFormed.id_of_find? hfind
  have houtcome : trial.outcome = outcome := hnow ▸ h.recorded
  have hsession : (p.session.conclude block.id (trial.answer config.previewLimit)).1 = p.session := by
    refine Session.conclude_eq_self hp.wellFormed hp.ascending hfind ?_ ?_
    · rw [conclude_answer, houtcome, h.settled]
    · intro table result hanswer
      cases htrial : trial with
      | failed message made =>
        rw [htrial] at hanswer
        cases hanswer
      | succeeded output content =>
        rw [htrial] at hanswer
        cases hanswer
        have hsuccess := hnow.trans htrial
        exact ⟨Trial.now_eq_succeeded hsuccess, h.cached _ content hsuccess⟩
  refine ⟨after, ?_, hleaves.refusals, fun name => ?_⟩
  · rw [hvisit, hsession, houtcome]
  · rw [hleaves.tables]
    split
    · next hname =>
      cases hcontent : trial.content? with
      | none => rfl
      | some content => rw [Option.some_or, hname, h.made content (hnow ▸ hcontent)]
    · rfl

/-- What is recorded of a block that is run lasts. -/
theorem lasting_visit (hp : p.session.Foreseen) (hfind : p.session.graph.find? id = some block)
    (hnow : Trial.now p.session p.engineState config.previewLimit block = trial)
    (hleaves : Leaves trial block.targetTable p.engineState after) :
    Lasting config.previewLimit (p.session.conclude id (trial.answer config.previewLimit)).1 after
        (block.settle (some trial.outcome)) trial.outcome ∧
      held? (p.session.conclude id (trial.answer config.previewLimit)).1 after
        (block.settle (some trial.outcome)) = held? p.session p.engineState block := by
  have hwf := hp.wellFormed
  obtain rfl := hwf.id_of_find? hfind
  have houtline : (block.settle (some trial.outcome)).outline = block.outline := by
    cases trial <;> rfl
  obtain ⟨hid, -, -⟩ := BlockDefinition.mk.inj houtline
  have hinput : (p.session.conclude block.id (trial.answer config.previewLimit)).1.inputTable? block.id =
      p.session.inputTable? block.id :=
    Session.inputTable?_conclude (fun hself => hwf.reaches_ne (.single hself) rfl) _
  have hkeeps : ∀ name, p.engineState.table? name = held? p.session p.engineState block →
      after.table? name = held? p.session p.engineState block := fun name =>
    hleaves.keeps fun content hcontent => Trial.content?_now (hnow.symm ▸ hcontent)
  have hheld : held? (p.session.conclude block.id (trial.answer config.previewLimit)).1 after block =
      held? p.session p.engineState block := held?_keeps hinput hkeeps rfl
  have hheld' : held? (p.session.conclude block.id (trial.answer config.previewLimit)).1 after
      (block.settle (some trial.outcome)) = held? p.session p.engineState block := by
    rw [← hheld, held?, held?, Session.sourceTable?, Session.sourceTable?,
      Block.kind_of_outline houtline, Block.targetTable_of_outline houtline, hid]
  have hagain : Trial.now (p.session.conclude block.id (trial.answer config.previewLimit)).1 after
      config.previewLimit (block.settle (some trial.outcome)) = trial := by
    rw [Trial.now_of_outline houtline, Trial.now_congr hleaves.refusals hinput hheld, hnow]
  refine ⟨⟨?_, ?_, fun content hcontent => ?_, fun table content hsuccess => ?_⟩, hheld'⟩
  · rw [hagain]
  · cases trial <;> rfl
  · rw [hagain] at hcontent
    rw [Block.targetTable_of_outline houtline, hleaves.tables, if_pos rfl, hcontent, Option.some_or]
  · rw [hagain] at hsuccess
    rw [hid, hsuccess]
    exact Assoc.find?_insert_self _ _ _

/-! ## The first run -/

/-- What is recorded of every block that was run lasts, and they all go by this content. -/
def Lasts (config : RunConfig) (content? : Option Table) (p : Progress Database) : Prop :=
  ∀ id block outcome, p.session.graph.find? id = some block → p.visits.outcome? id = some outcome →
    outcome ≠ .skipped → held? p.session p.engineState block = content? ∧
      Lasting config.previewLimit p.session p.engineState block outcome

/-- One more block that goes by the same content does not disturb those before, if it feeds none. -/
theorem Lasts.visit (h : Lasts config content? p) (hp : p.session.Foreseen)
    (hfind : p.session.graph.find? id = some block) (unvisited : p.visits.outcome? id = none)
    (hheld : held? p.session p.engineState block = content?)
    (hfeeds : ∀ other, (p.visits.outcome? other).isSome → ¬ p.session.graph.Feeds id other) :
    Lasts config content? (engine.visit config p id).1 := by
  obtain ⟨trial, after, hnow, hvisit, hleaves⟩ := visit_now hp hfind config
  rw [hvisit]
  intro other found outcome hfound houtcome hran
  simp only at hfound houtcome ⊢
  by_cases hsame : other = id
  · subst hsame
    rw [Visits.outcome?_append_self unvisited] at houtcome
    obtain rfl := Option.some.inj houtcome
    have hsettled := @Session.find?_conclude_self _ _ _ hfind (trial.answer config.previewLimit) ?_
    · rw [hsettled, conclude_answer] at hfound
      obtain rfl := Option.some.inj hfound
      obtain ⟨hlasting, hagain⟩ := lasting_visit hp hfind hnow hleaves
      exact ⟨hagain.trans hheld, hlasting⟩
    · intro table result hanswer
      cases trial with
      | failed message made => cases hanswer
      | succeeded output content =>
        cases hanswer
        exact Trial.now_eq_succeeded hnow
  · rw [Session.find?_conclude_of_ne hsame] at hfound
    rw [Visits.outcome?_append_of_ne (Ne.symm hsame)] at houtcome
    obtain ⟨hformer, hlasting⟩ := h other found outcome hfound houtcome hran
    obtain rfl := hp.wellFormed.id_of_find? hfound
    have hinput : (p.session.conclude id (trial.answer config.previewLimit)).1.inputTable? found.id =
        p.session.inputTable? found.id :=
      Session.inputTable?_conclude (hfeeds found.id (Option.isSome_of_mem houtcome)) _
    have hkeeps : ∀ name, p.engineState.table? name = content? → after.table? name = content? :=
      fun name => hleaves.keeps fun content hcontent =>
        hheld.symm.trans (Trial.content?_now (hnow.symm ▸ hcontent))
    refine ⟨held?_keeps hinput hkeeps hformer, hlasting.congr hleaves.refusals hinput ?_ ?_⟩
    · rwa [hformer]
    · exact Session.results_conclude_of_ne hsame _

/-- A block below one that has succeeded goes by what that one has gone by. -/
theorem Lasts.held?_fed {feeder : BlockId} (h : Lasts config content? p) (hp : p.session.Foreseen)
    (hfind : p.session.graph.find? id = some block) (hf : p.session.graph.Feeds feeder id)
    (hsuccess : p.visits.outcome? feeder = some .succeeded) :
    held? p.session p.engineState block = content? := by
  have hwf := hp.wellFormed
  obtain ⟨above, habove⟩ := hwf.mem_ids_iff.1 (hwf.feeder_mem hf)
  obtain ⟨hheld, hlasting⟩ := h feeder above .succeeded habove hsuccess (by simp)
  have hsource : ¬ block.kind.isSource = true := by
    rw [hwf.fed_kind hf hfind]
    exact Bool.false_ne_true
  have houtput : above.outputTable = some above.targetTable :=
    (congrArg Block.outputTable hlasting.settled).symm
  obtain rfl := hwf.id_of_find? hfind
  have hinput := (Session.inputTable?_of_feeds hf habove).trans houtput
  rw [held?_of_input hsource hinput]
  cases hnow : Trial.now p.session p.engineState config.previewLimit above with
  | failed message made =>
    have hfailed := hlasting.recorded
    rw [hnow] at hfailed
    cases hfailed
  | succeeded table content =>
    have hcontent : (Trial.now p.session p.engineState config.previewLimit above).content? =
        some content := by rw [hnow]; rfl
    rw [hlasting.made content hcontent, ← hheld, Trial.content?_now hcontent]

theorem lasts_of_steps (h : s.Foreseen)
    (hsteps : engine.Steps config (· = root) ⟨s, db, []⟩ p) : ∃ content?, Lasts config content? p := by
  induction hsteps with
  | refl => exact ⟨none, fun _ _ _ _ hvisited => by cases hvisited⟩
  | @tail p q hbefore hstep ih =>
    have hp := h.steps hbefore
    have hrecorded := (Engine.Steps.recorded hbefore).congr
      (Graph.feeds_of_outline (Engine.Steps.outline_eq hbefore))
    obtain ⟨content?, hlasts⟩ := ih
    cases hstep with
    | @run id block found unvisited ready =>
      have hfeeds : ∀ other, (p.visits.outcome? other).isSome → ¬ p.session.graph.Feeds id other := by
        intro other hother
        refine hrecorded.not_feeds_visited hp.wellFormed unvisited ?_ hother
        exact ready.imp_right fun ⟨feeder, hf, hsuccess⟩ => ⟨feeder, hf, by rw [hsuccess]; rfl⟩
      rcases ready with rfl | ⟨feeder, hf, hsuccess⟩
      · -- nothing has been recorded yet, so the content is that of the first block
        refine ⟨held? p.session p.engineState block, ?_⟩
        refine Lasts.visit ?_ hp found unvisited rfl hfeeds
        intro other _ _ _ hvisited
        rw [hrecorded.eq_nil_of_root unvisited] at hvisited
        cases hvisited
      · exact ⟨content?, hlasts.visit hp found unvisited (hlasts.held?_fed hp found hf hsuccess) hfeeds⟩
    | @skip id feeder outcome unvisited fed visited halted =>
      refine ⟨content?, fun other block outcome hfound houtcome hran => ?_⟩
      rcases Visits.outcome?_append_cases houtcome with hbefore | hlast
      · exact hlasts other block outcome hfound hbefore hran
      · exact absurd (Visit.mk.inj hlast).2.symm hran

/-! ## The second run -/

/-- A run that began where another one has ended has come some way, and has done nothing but record
    what that one recorded. -/
structure Retraces (p q : Progress Database) : Prop where
  session : q.session = p.session
  refusals : q.engineState.refusals = p.engineState.refusals
  tables : ∀ name, q.engineState.table? name = p.engineState.table? name
  recorded : ∀ id outcome, q.visits.outcome? id = some outcome → p.visits.outcome? id = some outcome

theorem retraces_start (p : Progress Database) : Retraces p ⟨p.session, p.engineState, []⟩ :=
  ⟨rfl, rfl, fun _ => rfl, fun _ _ hvisited => by cases hvisited⟩

/-- If the second run has come to all blocks of the first one, it has recorded the same. -/
theorem Retraces.visits_eq (h : Retraces p q) {order : List BlockId} (hnodup : order.Nodup)
    (hp : (p.visits.map Visit.block).Sublist order) (hq : (q.visits.map Visit.block).Sublist order)
    (hall : ∀ id, (p.visits.outcome? id).isSome → (q.visits.outcome? id).isSome) :
    q.visits = p.visits := by
  refine Visits.eq_of_outcomes hnodup hp hq fun id => Option.ext fun outcome => ?_
  refine ⟨h.recorded id outcome, fun houtcome => ?_⟩
  obtain ⟨found, hfound⟩ := Option.isSome_iff_exists.1 (hall id (Option.isSome_of_mem houtcome))
  rw [hfound, ← houtcome, h.recorded id found hfound]

/-- The second run records one more block as the first one did. -/
theorem Retraces.extend {r : Progress Database} (h : Retraces p q) (hsession : r.session = q.session)
    (hrefusals : r.engineState.refusals = q.engineState.refusals)
    (htables : ∀ name, r.engineState.table? name = q.engineState.table? name)
    (hvisits : r.visits = q.visits ++ [⟨id, outcome⟩]) (hrecorded : p.visits.outcome? id = some outcome) :
    Retraces p r := by
  refine ⟨hsession.trans h.session, hrefusals.trans h.refusals,
    fun name => (htables name).trans (h.tables name), fun other found hfound => ?_⟩
  rw [hvisits] at hfound
  rcases Visits.outcome?_append_cases hfound with hbefore | hlast
  · exact h.recorded other found hbefore
  · obtain ⟨rfl, rfl⟩ := Visit.mk.inj hlast
    exact hrecorded

/-- A block that was run is run again, to the same effect. -/
theorem Retraces.visit (h : Retraces p q) (hp : p.session.Foreseen) (hlasts : Lasts config content? p)
    (hfind : q.session.graph.find? id = some block) (hrecorded : p.visits.outcome? id = some outcome)
    (hran : outcome ≠ .skipped) :
    Retraces p (engine.visit config q id).1 ∧
      (engine.visit config q id).1.visits = q.visits ++ [⟨id, outcome⟩] := by
  have hlasting := (hlasts id block outcome (h.session ▸ hfind) hrecorded hran).2
  have hlasting' : Lasting config.previewLimit q.session q.engineState block outcome := by
    rw [h.session]
    exact hlasting.congr h.refusals rfl (fun name hname => (h.tables name).trans hname) rfl
  obtain ⟨after, hvisit, hrefusals, htables⟩ := hlasting'.visit_eq (h.session.symm ▸ hp) hfind
  rw [hvisit]
  exact ⟨h.extend rfl hrefusals htables rfl hrecorded, rfl⟩

/-- If the first run has come to all blocks below the one with which it began, a second one takes the
    same steps. -/
theorem retraces_of_steps (hp : p.session.Foreseen) (hlasts : Lasts config content? p)
    (hrecorded : Recorded p.session.graph (· = root) p.visits)
    (hcomplete : ∀ id, Relation.ReflTransGen p.session.graph.Feeds root id →
      (p.visits.outcome? id).isSome)
    (hsteps : engine.Steps config (· = root) ⟨p.session, p.engineState, []⟩ q) : Retraces p q := by
  induction hsteps with
  | refl => exact retraces_start p
  | @tail q r hbefore hstep ih =>
    have hwf := hp.wellFormed
    -- what is fed by a block that both runs have recorded, the first run has recorded accordingly
    have hfed : ∀ feeder id above, p.session.graph.Feeds feeder id →
        q.visits.outcome? feeder = some above → ∃ outcome,
          p.visits.outcome? id = some outcome ∧ (outcome = .skipped ↔ above ≠ .succeeded) := by
      intro feeder id above hf habove
      have hfeeder := ih.recorded feeder above habove
      have hreached := hrecorded.downward (Option.isSome_of_mem hfeeder)
      obtain ⟨outcome, houtcome⟩ := Option.isSome_iff_exists.1 (hcomplete id (hreached.tail hf))
      have hne : id ≠ root := by
        rintro rfl
        exact hwf.acyclic id (.tail' hreached hf)
      obtain ⟨above', habove', hiff⟩ := hrecorded.skipped_iff_feeder hne hf houtcome
      obtain rfl := Option.some.inj (hfeeder.symm.trans habove')
      exact ⟨outcome, houtcome, hiff⟩
    cases hstep with
    | @run id block found unvisited ready =>
      obtain ⟨outcome, houtcome, hran⟩ : ∃ outcome, p.visits.outcome? id = some outcome ∧
          outcome ≠ .skipped := by
        rcases ready with rfl | ⟨feeder, hf, hsuccess⟩
        · obtain ⟨outcome, houtcome⟩ := Option.isSome_iff_exists.1 (hcomplete id .refl)
          exact ⟨outcome, houtcome, hrecorded.root_ran houtcome⟩
        · obtain ⟨outcome, houtcome, hiff⟩ := hfed feeder id _ (ih.session ▸ hf) hsuccess
          exact ⟨outcome, houtcome, fun hskipped => hiff.1 hskipped rfl⟩
      exact (ih.visit hp hlasts found houtcome hran).1
    | @skip id feeder above unvisited fed visited halted =>
      obtain ⟨outcome, houtcome, hiff⟩ := hfed feeder id above (ih.session ▸ fed) visited
      obtain rfl := hiff.2 halted
      exact ih.extend rfl rfl (fun _ => rfl) rfl houtcome

/-- If the first run has ended with its first block, so does the second one. -/
theorem run_eq_of_failed (hp : p.session.Foreseen) (hlasts : Lasts config content? p)
    (hroot : root ∈ p.session.graph.ids) (hrecorded : p.visits.outcome? root = some outcome)
    (hran : outcome ≠ .skipped) (hfailed : outcome ≠ .succeeded) :
    ∃ q, engine.run config p.session p.engineState root = .ok q ∧ Retraces p q ∧
      q.visits = [⟨root, outcome⟩] := by
  obtain ⟨block, hfind⟩ := hp.wellFormed.mem_ids_iff.1 hroot
  obtain ⟨hretraces, hvisits⟩ := (retraces_start p).visit hp hlasts hfind hrecorded hran
  have hstart : (⟨p.session, p.engineState, []⟩ : Progress Database).session.graph.find? root =
      some block := hfind
  obtain ⟨found, hfound, hsays⟩ := @Engine.visit_records _ engine config _ root block hstart
  have hsame : found = outcome := by
    rw [hvisits, List.nil_append, List.nil_append] at hfound
    exact (Visit.mk.inj (List.singleton_inj.1 hfound)).2.symm
  refine ⟨_, Engine.run_eq hp.wellFormed hroot, ?_⟩
  rw [Engine.cascade_eq List.not_mem_nil, hsays, hsame, if_neg (mt Engine.isSuccess_iff.1 hfailed)]
  exact ⟨hretraces, hvisits⟩

/-- If the first run has gone on below its first block, so does the second one, and comes to the same
    blocks. -/
theorem run_eq_of_succeeded (hs : s.Foreseen) (hid : id ∈ s.graph.ids)
    (hrun : engine.run config s db id = .ok p) (hlasts : Lasts config content? p)
    (hsuccess : p.visits.outcome? id = some .succeeded)
    (hcovers : ∀ other, s.graph.Reaches id other → (p.visits.outcome? other).isSome) :
    ∃ q, engine.run config p.session p.engineState id = .ok q ∧ Retraces p q ∧ q.visits = p.visits := by
  have hsteps := Engine.steps_of_run hs.wellFormed hrun
  have hp := hs.steps hsteps
  have houtline := Engine.Steps.outline_eq hsteps
  have hfeeds := Graph.feeds_of_outline houtline
  have hid' : id ∈ p.session.graph.ids := Graph.ids_of_outline houtline ▸ hid
  have hrecorded := (Engine.Steps.recorded hsteps).congr hfeeds
  have hcomplete : ∀ other, Relation.ReflTransGen p.session.graph.Feeds id other →
      (p.visits.outcome? other).isSome := by
    intro other hreached
    rcases Relation.reflTransGen_iff_eq_or_transGen.1 hreached with rfl | hr
    · exact Option.isSome_of_mem hsuccess
    · exact hcovers other (by rwa [hfeeds] at hr)
  obtain ⟨q, hagain, hsteps', hvisited', hcovers', -⟩ :=
    @Engine.run_steps _ engine config p.session p.engineState id hp.wellFormed hid'
  have hretraces := retraces_of_steps hp hlasts hrecorded hcomplete hsteps'
  -- the second run has succeeded with the first block too, so it has come to all blocks below
  have hsuccess' : q.visits.outcome? id = some .succeeded := by
    obtain ⟨first, hfirst⟩ := Option.isSome_iff_exists.1 hvisited'
    rw [hfirst, ← hsuccess, hretraces.recorded id first hfirst]
  have hall : ∀ other, (p.visits.outcome? other).isSome → (q.visits.outcome? other).isSome := by
    intro other hother
    rcases Relation.reflTransGen_iff_eq_or_transGen.1 (hrecorded.downward hother) with rfl | hr
    · exact hvisited'
    · exact hcovers' hsuccess' other hr
  have horder := (Engine.run_along hs.wellFormed hid hrun).sublist
  have horder' := (Engine.run_along hp.wellFormed hid' hagain).sublist
  rw [Graph.downstreamOf_of_outline houtline] at horder'
  exact ⟨q, hagain, hretraces,
    hretraces.visits_eq (Graph.downward_nodup hs.wellFormed id) horder horder' hall⟩

/-- However a session came about, whatever the engine refuses and whatever tables there are, a run of a
    block can be repeated: the second run records the same in the same order, and leaves the session
    and the tables of the engine as the first one has left them. It does not matter which tables the
    load blocks read. -/
theorem run_repeated (h : s.Reachable) (hunmarked : ∀ block ∈ s.graph.blocks,
    ∀ text ∈ block.config.lateTexts, ¬ " FROM ".toList <:+: text.toList) (hid : id ∈ s.graph.ids)
    (config : RunConfig) (db : Database) :
    ∃ p q, engine.run config s db id = .ok p ∧ engine.run config p.session p.engineState id = .ok q ∧
      q.visits = p.visits ∧ q.session = p.session ∧
      ∀ name, q.engineState.table? name = p.engineState.table? name := by
  have hs := h.foreseen hunmarked
  obtain ⟨p, hrun, hsteps, hvisited, hcovers, hends⟩ :=
    @Engine.run_steps _ engine config s db id hs.wellFormed hid
  obtain ⟨content?, hlasts⟩ := lasts_of_steps hs hsteps
  obtain ⟨outcome, houtcome⟩ := Option.isSome_iff_exists.1 hvisited
  by_cases hsuccess : outcome = .succeeded
  · subst hsuccess
    obtain ⟨q, hagain, hretraces, hvisits⟩ :=
      run_eq_of_succeeded hs hid hrun hlasts houtcome (hcovers houtcome)
    exact ⟨p, q, hrun, hagain, hvisits, hretraces.session, hretraces.tables⟩
  · have houtline := Engine.Steps.outline_eq hsteps
    have hid' : id ∈ p.session.graph.ids := Graph.ids_of_outline houtline ▸ hid
    have hrecorded := (Engine.Steps.recorded hsteps).congr (Graph.feeds_of_outline houtline)
    obtain ⟨q, hagain, hretraces, hvisits⟩ :=
      run_eq_of_failed (hs.steps hsteps) hlasts hid' houtcome (hrecorded.root_ran houtcome) hsuccess
    refine ⟨p, q, hrun, hagain, ?_, hretraces.session, hretraces.tables⟩
    have hnot : p.visits.outcome? id ≠ some .succeeded := by
      rw [houtcome]
      exact fun heq => hsuccess (Option.some.inj heq)
    -- the first run has recorded nothing else either
    obtain ⟨block, hfind⟩ := hs.wellFormed.mem_ids_iff.1 hid
    obtain ⟨first, hfirst, -⟩ := @Engine.visit_records _ engine config ⟨s, db, []⟩ id block hfind
    rw [← hends hnot, List.nil_append] at hfirst
    rw [hfirst] at houtcome ⊢
    have hsame : Visits.outcome? [⟨id, first⟩] id = some first :=
      @Visits.outcome?_append_self [] id first rfl
    rw [hvisits, Option.some.inj (hsame.symm.trans houtcome)]

/-- A pipeline that has run, whose load block has got another table since. Now its filter is run, which
    reads what the load block gave before. The engine makes the table of the sort and refuses to show
    it, so the chart is skipped. -/
theorem repeated_from_filter :
    let load : BlockId := ⟨1⟩
    let filter : BlockId := ⟨2⟩
    let sort : BlockId := ⟨3⟩
    let chart : BlockId := ⟨4⟩
    let made := [Session.Edit.addConfig load (.load { tableName := "orders" }),
      .addConfig filter (.filter { column := "paid", value := some (.text "yes") }),
      .addConfig sort (.sort { column := "day" }),
      .addConfig chart (.chart { xAxis := "day", yAxis := "amount" }), .connect load filter,
      .connect filter sort, .connect sort chart].foldl Session.Edit.apply .empty
    let before := (Scripted.engine.runAll {} made ⟨[], [], []⟩).session
    let s := Session.Edit.apply before (.setConfig load (.load { tableName := "returns" }))
    let day : Row := [("day", .string "1")]
    let db : Database := ⟨[("orders", ⟨[⟨"day", "DATE"⟩], [day, []]⟩)], [],
      [⟨"SELECT * FROM " ++ (TableName.derived sort).text, "no view"⟩]⟩
    s.Reachable ∧ (∀ block ∈ s.graph.blocks, ∀ text ∈ block.config.lateTexts,
        ¬ " FROM ".toList <:+: text.toList) ∧ filter ∈ s.graph.ids ∧
      ∃ p q, engine.run {} s db filter = .ok p ∧
        engine.run {} p.session p.engineState filter = .ok q ∧
        p.visits = [⟨filter, .succeeded⟩, ⟨sort, .failed "no view"⟩, ⟨chart, .skipped⟩] ∧
        q.visits = p.visits ∧ q.session = p.session ∧
        ∀ name, q.engineState.table? name = p.engineState.table? name := by
  intro load filter sort chart made before s day db
  have hmade : made.Reachable := .edits .empty (by decide +kernel)
  have hbefore : before.Reachable := .runAll _ _ _ hmade
  have hreach : s.Reachable := .edit (.setConfig load _) hbefore (by decide +kernel)
  have hunmarked : ∀ block ∈ s.graph.blocks, ∀ text ∈ block.config.lateTexts,
      ¬ " FROM ".toList <:+: text.toList := by decide +kernel
  have hfilter : filter ∈ s.graph.ids := by decide +kernel
  have hvisits : (engine.run {} s db filter).toOption.map Progress.visits =
      some [⟨filter, .succeeded⟩, ⟨sort, .failed "no view"⟩, ⟨chart, .skipped⟩] := by
    decide +kernel
  obtain ⟨p, q, hrun, hagain, hsame⟩ := run_repeated hreach hunmarked hfilter {} db
  rw [hrun] at hvisits
  exact ⟨hreach, hunmarked, hfilter, p, q, hrun, hagain, Option.some.inj hvisits, hsame⟩

end Memory

end BlockPipeline

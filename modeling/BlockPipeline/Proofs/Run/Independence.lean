import BlockPipeline.Proofs.Run.Agreement
import BlockPipeline.Proofs.Session.Stored

set_option autoImplicit false

/-! # Sessions that share an engine

Sessions without a common block may share the engine in memory. A run writes tables that are named for
its own blocks, and reads these and source tables only. So what the run of one session does to the
engine leaves the other one `Undisturbed`: that one's run comes to the same, with the same session in
the end and the same tables of its own. Two such runs can be made in either order
(`runAll_independent`). -/

namespace BlockPipeline

open Assoc (Ascending)

/-- The sessions have no block in common, and no load block of one reads a table that is named for a
    block of the other. -/
structure Session.Unrelated (s t : Session) : Prop where
  disjoint : s.graph.ids.Disjoint t.graph.ids
  sources : ∀ block ∈ s.graph.blocks, block.kind = .load → ∀ id ∈ t.graph.ids,
    block.targetTable ≠ .derived id
  sources' : ∀ block ∈ t.graph.blocks, block.kind = .load → ∀ id ∈ s.graph.ids,
    block.targetTable ≠ .derived id

theorem Session.Unrelated.symm {s t : Session} (h : s.Unrelated t) : t.Unrelated s :=
  ⟨fun _ ht hs => h.disjoint hs ht, h.sources', h.sources⟩

namespace Memory

variable {s t : Session} {g : Graph} {db db' : Database} {limit : Nat} {id : BlockId} {fate : Fate}
  {outcome : Outcome} {config : RunConfig} {name : String} {p : Progress Database}

/-! ## What a run writes -/

/-- The run has written the table: it is named for a block that the run has come to, which is no load
    block. -/
def Writes (s : Session) (p : Progress Database) (name : String) : Prop :=
  ∃ id, (p.visits.outcome? id).isSome ∧ id ∉ s.graph.roots ∧ name = (TableName.derived id).text

theorem Borne.table?_of_not_writes (h : Borne s db config p) (hnot : ¬ Writes s p name) :
    p.engineState.table? name = db.table? name := by
  refine h.kept name fun id hvisited hroot hname => ?_
  exact hnot ⟨id, hvisited, hroot, hname⟩

/-- Only blocks of the pipeline are recorded. -/
theorem Borne.mem_ids (h : Borne s db config p) (hwf : s.graph.WellFormed)
    (hvisited : (p.visits.outcome? id).isSome) : id ∈ s.graph.ids := by
  obtain ⟨outcome, houtcome⟩ := Option.isSome_iff_exists.1 hvisited
  obtain ⟨fate, hfate, -⟩ := h.foretold id outcome houtcome
  exact hfate.mem_ids hwf

/-- Unrelated sessions write different tables. -/
theorem Borne.not_writes {q : Progress Database} (h : s.Unrelated t) (hs : s.graph.WellFormed)
    (ht : t.graph.WellFormed) {db' : Database} {config' : RunConfig} (hp : Borne s db config p)
    (hq : Borne t db' config' q) (hwrites : Writes s p name) : ¬ Writes t q name := by
  rintro ⟨other, hother, -, rfl⟩
  obtain ⟨id, hvisited, -, hname⟩ := hwrites
  refine TableName.derived_text_ne ?_ hname
  rintro rfl
  exact h.disjoint (hp.mem_ids hs hvisited) (hq.mem_ids ht hother)

/-! ## Undisturbed sessions -/

/-- The session finds no difference between the databases: they refuse the same and have the same
    source tables and the same tables of its blocks. -/
structure Undisturbed (s : Session) (db db' : Database) : Prop where
  refusals : db'.refusals = db.refusals
  sources : ∀ id block, s.graph.find? id = some block → block.kind = .load →
    db'.table? block.targetTable.text = db.table? block.targetTable.text
  own : ∀ id ∈ s.graph.ids,
    db'.table? (TableName.derived id).text = db.table? (TableName.derived id).text

/-- The run of an unrelated session leaves a session undisturbed. -/
theorem undisturbed_of_unrelated (h : s.Unrelated t) (hs : s.graph.WellFormed)
    (ht : t.graph.WellFormed) (hborne : Borne t db config p) : Undisturbed s db p.engineState := by
  have hother : ∀ id ∈ s.graph.ids, ¬ Writes t p (TableName.derived id).text := by
    rintro id hid ⟨other, hvisited, -, hname⟩
    refine TableName.derived_text_ne ?_ hname
    rintro rfl
    exact h.disjoint hid (hborne.mem_ids ht hvisited)
  have hsource : ∀ id block, s.graph.find? id = some block → block.kind = .load →
      ¬ Writes t p block.targetTable.text := by
    rintro id block hfind hload ⟨other, hvisited, -, hname⟩
    obtain rfl := hs.id_of_find? hfind
    have hne := h.sources block (hs.mem_blocks_iff.2 hfind) hload other (hborne.mem_ids ht hvisited)
    exact TableName.text_ne hne hname
  exact ⟨hborne.refusals,
    fun id block hfind hload => hborne.table?_of_not_writes (hsource id block hfind hload),
    fun id hid => hborne.table?_of_not_writes (hother id hid)⟩

/-- What becomes of a block is known from what its session finds. -/
theorem Forecast.undisturbed (h : Undisturbed s db db') (hfate : Forecast s.graph db limit id fate) :
    Forecast s.graph db' limit id fate := by
  induction hfate with
  | load found load =>
    rw [← Trial.ofLoad_congr h.refusals (h.sources _ _ found load)]
    exact .load found load
  | copy found feeds _ ih =>
    rw [← Trial.ofCopy_congr h.refusals]
    exact .copy found feeds ih
  | halted feeds _ halts ih => exact .halted feeds ih halts

namespace Undisturbed

theorem symm (h : Undisturbed s db db') : Undisturbed s db' db where
  refusals := h.refusals.symm
  sources id block hfind hload := (h.sources id block hfind hload).symm
  own id hid := (h.own id hid).symm

section
variable (hwf : s.graph.WellFormed) (hlegible : s.Legible)
include hwf hlegible

theorem carries (h : Undisturbed s db db') (limit : Nat) :
    Carries (fun _ => True) limit s db s db' where
  wellFormed := hwf
  wellFormed' := hwf
  legible := hlegible
  legible' := hlegible
  agrees := ⟨fun _ _ _ _ => trivial, fun _ _ => rfl, fun _ _ => rfl⟩
  fate _ _ _ hfate := hfate.undisturbed h

theorem outcome?_eq (h : Undisturbed s db db') (config : RunConfig) (id : BlockId) :
    (engine.runAll config s db').visits.outcome? id =
      (engine.runAll config s db).visits.outcome? id :=
  Option.ext fun _ => ⟨(h.symm.carries hwf hlegible _).outcome?_of_some trivial,
    (h.carries hwf hlegible _).outcome?_of_some trivial⟩

/-- Both runs record the same in the same order. -/
theorem visits_eq (h : Undisturbed s db db') (config : RunConfig) :
    (engine.runAll config s db').visits = (engine.runAll config s db).visits :=
  Visits.eq_of_outcomes (Graph.runOrder_nodup hwf) (Engine.runAll_along engine config s db).sublist
    (Engine.runAll_along engine config s db').sublist (h.outcome?_eq hwf hlegible config)

theorem result_eq (h : Undisturbed s db db') (config : RunConfig) (id : BlockId) :
    (engine.runAll config s db').session.results.find? id =
      (engine.runAll config s db).session.results.find? id := by
  have houtcome := h.outcome?_eq hwf hlegible config id
  by_cases hsuccess : (engine.runAll config s db).visits.outcome? id = some .succeeded
  · obtain ⟨table, result, hyields', hyields⟩ := (h.carries hwf hlegible _).yields trivial hsuccess
    rw [hyields.result, hyields'.result]
  · rw [(Engine.runAll_effect hwf engine config db).kept id hsuccess]
    exact (Engine.runAll_effect hwf engine config db').kept id (houtcome ▸ hsuccess)

/-- Both runs leave the same session. -/
theorem session_eq (h : Undisturbed s db db') (hs : Ascending s.results) (config : RunConfig) :
    (engine.runAll config s db').session = (engine.runAll config s db).session := by
  have heffect := Engine.runAll_effect hwf engine config db
  have heffect' := Engine.runAll_effect hwf engine config db'
  have hascending : ∀ db, Ascending (engine.runAll config s db).session.results := fun db =>
    Session.ascending_of_steps (Engine.runAll_steps hwf engine config db).1 hs
  refine Session.eq_of_found (hwf.of_outline heffect.outline) (hascending db) (hascending db')
    (heffect'.outline.trans heffect.outline.symm) (heffect'.metadata.trans heffect.metadata.symm)
    (heffect'.policy.trans heffect.policy.symm) ?_ (h.result_eq hwf hlegible config)
  intro id
  rw [heffect.settled, heffect'.settled, h.outcome?_eq hwf hlegible]

theorem writes_iff (h : Undisturbed s db db') (config : RunConfig) (name : String) :
    Writes s (engine.runAll config s db') name ↔ Writes s (engine.runAll config s db) name := by
  simp only [Writes, h.outcome?_eq hwf hlegible]

/-- What one run has made of a table that it writes, the other one has made of it too. -/
theorem table?_eq_of_writes (h : Undisturbed s db db')
    (hwrites : Writes s (engine.runAll config s db) name) :
    (engine.runAll config s db').engineState.table? name =
      (engine.runAll config s db).engineState.table? name := by
  obtain ⟨id, hvisited, hroot, rfl⟩ := hwrites
  have hown := h.own id ((runAll_borne hwf hlegible db config).mem_ids hwf hvisited)
  exact (h.carries hwf hlegible _).made_eq trivial hown hvisited hroot

end

end Undisturbed

/-! ## Two sessions -/

/-- It does not matter which of the sessions runs first: either one is left as by a run of its own,
    with the same record, and the tables are the same in the end. -/
structure Interchange (config config' : RunConfig) (s t : Session) (db : Database) : Prop where
  session : (engine.runAll config s (engine.runAll config' t db).engineState).session =
    (engine.runAll config s db).session
  visits : (engine.runAll config s (engine.runAll config' t db).engineState).visits =
    (engine.runAll config s db).visits
  session' : (engine.runAll config' t (engine.runAll config s db).engineState).session =
    (engine.runAll config' t db).session
  visits' : (engine.runAll config' t (engine.runAll config s db).engineState).visits =
    (engine.runAll config' t db).visits
  tables : ∀ name,
    (engine.runAll config' t (engine.runAll config s db).engineState).engineState.table? name =
      (engine.runAll config s (engine.runAll config' t db).engineState).engineState.table? name

/-- However two unrelated sessions came about, whatever tables there are and whatever the engine
    refuses, they can run in either order on an engine that they share, and each as if it were alone. -/
theorem runAll_independent (hs : s.Reachable) (ht : t.Reachable) (hlegible : s.Legible)
    (hlegible' : t.Legible) (h : s.Unrelated t) (config config' : RunConfig) (db : Database) :
    Interchange config config' s t db := by
  have hwf := hs.wellFormed
  have hwf' := ht.wellFormed
  have hp := runAll_borne hwf hlegible db config
  have hq := runAll_borne hwf' hlegible' db config'
  have hfirst := undisturbed_of_unrelated h hwf hwf' hq
  have hsecond := undisturbed_of_unrelated h.symm hwf' hwf hp
  have hp' := runAll_borne hwf hlegible (engine.runAll config' t db).engineState config
  have hq' := runAll_borne hwf' hlegible' (engine.runAll config s db).engineState config'
  refine
    { session := hfirst.session_eq hwf hlegible hs.ascending config
      visits := hfirst.visits_eq hwf hlegible config
      session' := hsecond.session_eq hwf' hlegible' ht.ascending config'
      visits' := hsecond.visits_eq hwf' hlegible' config'
      tables := fun name => ?_ }
  have hwrites := hfirst.writes_iff hwf hlegible config name
  have hwrites' := hsecond.writes_iff hwf' hlegible' config' name
  by_cases hone : Writes s (engine.runAll config s db) name
  · rw [hfirst.table?_eq_of_writes hwf hlegible hone,
      hq'.table?_of_not_writes (hp.not_writes h hwf hwf' hq' hone)]
  · rw [hp'.table?_of_not_writes (mt hwrites.1 hone)]
    by_cases hother : Writes t (engine.runAll config' t db) name
    · exact hsecond.table?_eq_of_writes hwf' hlegible' hother
    · rw [hq'.table?_of_not_writes (mt hwrites'.1 hother), hp.table?_of_not_writes hone,
        hq.table?_of_not_writes hother]

/-- Two pipelines on one source table. The engine refuses the view of the second one, and the results
    of the two keep different numbers of rows. -/
theorem independent_beside_refusal :
    let load : BlockId := ⟨1⟩
    let filter : BlockId := ⟨2⟩
    let load' : BlockId := ⟨3⟩
    let chart : BlockId := ⟨4⟩
    let s := [Session.Edit.addConfig load (.load { tableName := "orders" }),
      .addConfig filter (.filter { column := "paid", value := some (.text "yes") }),
      .connect load filter].foldl Session.Edit.apply .empty
    let t := [Session.Edit.addConfig load' (.load { tableName := "orders" }),
      .addConfig chart (.chart { xAxis := "day", yAxis := "amount" }),
      .connect load' chart].foldl Session.Edit.apply .empty
    let day : Row := [("day", .string "1")]
    let db : Database := ⟨[("orders", ⟨[⟨"day", "DATE"⟩], [day, []]⟩)], [], [⟨"VIEW", "no views"⟩]⟩
    s.Reachable ∧ t.Reachable ∧ s.Legible ∧ t.Legible ∧ s.Unrelated t ∧
      (engine.runAll { previewLimit := 1 } t db).visits =
        [⟨load', .succeeded⟩, ⟨chart, .failed "no views"⟩] ∧
      Interchange {} { previewLimit := 1 } s t db := by
  intro load filter load' chart s t day db
  have hs : s.Reachable := .edits .empty (by decide +kernel)
  have ht : t.Reachable := .edits .empty (by decide +kernel)
  have hlegible : s.Legible := ⟨by decide +kernel, by decide +kernel⟩
  have hlegible' : t.Legible := ⟨by decide +kernel, by decide +kernel⟩
  have hdisjoint : ∀ id ∈ s.graph.ids, id ∉ t.graph.ids := by decide +kernel
  have hunrelated : s.Unrelated t :=
    ⟨fun id hs ht => hdisjoint id hs ht, by decide +kernel, by decide +kernel⟩
  have hvisits : (engine.runAll { previewLimit := 1 } t db).visits =
      [⟨load', .succeeded⟩, ⟨chart, .failed "no views"⟩] := by decide +kernel
  exact ⟨hs, ht, hlegible, hlegible', hunrelated, hvisits,
    runAll_independent hs ht hlegible hlegible' hunrelated {} { previewLimit := 1 } db⟩

end Memory

end BlockPipeline

import BlockPipeline.Proofs.Run.Forecast

set_option autoImplicit false

/-! # Pipelines that agree in part

Two graphs agree on some blocks if these are configured alike, have the same inputs, and are fed by one
another only (`Graph.AgreesOn`). What becomes of a block on the engine in memory depends on nothing but
the blocks above it, so runs of both pipelines on equal engines come to the same at these blocks
(`Matches.outcome?_eq`): neither the order in which a run comes to them matters, nor what it does
elsewhere. -/

namespace BlockPipeline

/-! ## Graphs -/

namespace Graph

variable {g g' : Graph} {kept : BlockId → Prop} {feeder id a b : BlockId} {block : Block}

/-- The graphs have the same blocks of this kind with the same inputs, which are of this kind too. -/
structure AgreesOn (g' : Graph) (kept : BlockId → Prop) (g : Graph) : Prop where
  above : ∀ feeder id, g.Feeds feeder id → kept id → kept feeder
  inputOf : ∀ id, kept id → g'.inputOf id = g.inputOf id
  outlines : ∀ id, kept id → (g'.find? id).map Block.outline = (g.find? id).map Block.outline

theorem Alike.agreesOn (h : g'.Alike g) : g'.AgreesOn (fun _ => True) g :=
  ⟨fun _ _ _ _ => trivial, fun id _ => congrFun h.inputOf id, fun id _ => h.outlines id⟩

namespace AgreesOn

theorem feeds_iff (h : g'.AgreesOn kept g) (hid : kept id) : g'.Feeds feeder id ↔ g.Feeds feeder id := by
  rw [Feeds, Feeds, h.inputOf id hid]

theorem symm (h : g'.AgreesOn kept g) : g.AgreesOn kept g' where
  above feeder id hf hid := h.above feeder id ((h.feeds_iff hid).1 hf) hid
  inputOf id hid := (h.inputOf id hid).symm
  outlines id hid := (h.outlines id hid).symm

theorem found (h : g'.AgreesOn kept g) (hid : kept id) (hfind : g.find? id = some block) :
    ∃ block', g'.find? id = some block' ∧ block'.outline = block.outline := by
  have houtline := h.outlines id hid
  rw [hfind, Option.map_some] at houtline
  exact Option.map_eq_some_iff.1 houtline

/-- A way to a block leads over blocks on which the graphs agree, so it is there in both. -/
theorem reaches (h : g'.AgreesOn kept g) (hr : g.Reaches a b) (hb : kept b) :
    kept a ∧ g'.Reaches a b := by
  induction hr with
  | single feeds => exact ⟨h.above _ _ feeds hb, .single ((h.feeds_iff hb).2 feeds)⟩
  | tail _ feeds ih =>
    obtain ⟨ha, hr⟩ := ih (h.above _ _ feeds hb)
    exact ⟨ha, hr.tail ((h.feeds_iff hb).2 feeds)⟩

theorem mem_roots (h : g'.AgreesOn kept g) (hwf : g.WellFormed) (hwf' : g'.WellFormed) (hid : kept id)
    (hroot : id ∈ g.roots) : id ∈ g'.roots := by
  obtain ⟨block, hfind, hsource⟩ := (Engine.mem_roots hwf).1 hroot
  obtain ⟨block', hfind', houtline⟩ := h.found hid hfind
  exact (Engine.mem_roots hwf').2 ⟨block', hfind', Block.kind_of_outline houtline ▸ hsource⟩

end AgreesOn

end Graph

namespace Memory

variable {g g' : Graph} {kept : BlockId → Prop} {db db' : Database} {limit : Nat} {id : BlockId}
  {fate : Fate} {s s' : Session} {config : RunConfig} {outcome : Outcome}

/-! ## Forecasts -/

/-- What becomes of a block is known from the blocks above it. -/
theorem Forecast.agrees (hagrees : g'.AgreesOn kept g) (h : Forecast g db limit id fate)
    (hid : kept id) : Forecast g' db limit id fate := by
  induction h with
  | load found load =>
    obtain ⟨block', hfind, houtline⟩ := hagrees.found hid found
    rw [← Trial.ofLoad_of_outline houtline]
    exact .load hfind ((Block.kind_of_outline houtline).trans load)
  | copy found feeds _ ih =>
    obtain ⟨block', hfind, houtline⟩ := hagrees.found hid found
    rw [← Trial.ofCopy_of_outline houtline]
    exact .copy hfind ((hagrees.feeds_iff hid).2 feeds) (ih (hagrees.above _ _ feeds hid))
  | halted feeds _ halts ih =>
    exact .halted ((hagrees.feeds_iff hid).2 feeds) (ih (hagrees.above _ _ feeds hid)) halts

/-! ## Runs -/

/-- Two sessions, each on a database of its own, agree on some blocks. What is foretold of these in the
    first one is foretold in the second one too. -/
structure Carries (kept : BlockId → Prop) (limit : Nat) (s : Session) (db : Database) (s' : Session)
    (db' : Database) : Prop where
  wellFormed : s.graph.WellFormed
  wellFormed' : s'.graph.WellFormed
  legible : s.Legible
  legible' : s'.Legible
  agrees : s'.graph.AgreesOn kept s.graph
  fate : ∀ id fate, kept id → Forecast s.graph db limit id fate → Forecast s'.graph db' limit id fate

namespace Carries

/-- If both runs come to a block, they record the same of it. -/
theorem outcome?_of_visited (h : Carries kept config.previewLimit s db s' db') (hid : kept id)
    (houtcome : (engine.runAll config s db).visits.outcome? id = some outcome)
    (hvisited : ((engine.runAll config s' db').visits.outcome? id).isSome) :
    (engine.runAll config s' db').visits.outcome? id = some outcome := by
  obtain ⟨fate, hfate, rfl⟩ :=
    (runAll_borne h.wellFormed h.legible db config).foretold id outcome houtcome
  obtain ⟨outcome', houtcome'⟩ := Option.isSome_iff_exists.1 hvisited
  obtain ⟨fate', hfate', rfl⟩ :=
    (runAll_borne h.wellFormed' h.legible' db' config).foretold id outcome' houtcome'
  rw [houtcome', (h.fate id fate hid hfate).unique h.wellFormed' hfate']

theorem outcome?_of_some (h : Carries kept config.previewLimit s db s' db') (hid : kept id)
    (houtcome : (engine.runAll config s db).visits.outcome? id = some outcome) :
    (engine.runAll config s' db').visits.outcome? id = some outcome := by
  obtain ⟨-, hcomplete⟩ := Engine.runAll_steps h.wellFormed' engine config db'
  obtain ⟨root, hroot, habove⟩ := (Engine.runAll_visited_iff h.wellFormed engine config db).1
    (Option.isSome_of_mem houtcome)
  rcases habove with rfl | ⟨hsuccess, hr⟩
  · have hroot' := h.agrees.mem_roots h.wellFormed h.wellFormed' hid hroot
    exact h.outcome?_of_visited hid houtcome (hcomplete id hroot').1
  · -- the load block above succeeds in both runs, so both come to the block
    obtain ⟨hkept, hr'⟩ := h.agrees.reaches hr hid
    have hroot' := h.agrees.mem_roots h.wellFormed h.wellFormed' hkept hroot
    have hsuccess' := h.outcome?_of_visited hkept hsuccess (hcomplete root hroot').1
    exact h.outcome?_of_visited hid houtcome ((hcomplete root hroot').2 hsuccess' id hr')

/-- A block that succeeds has the same table and the same result after both runs. -/
theorem yields (h : Carries kept config.previewLimit s db s' db') (hid : kept id)
    (hsuccess : (engine.runAll config s db).visits.outcome? id = some .succeeded) :
    ∃ table result, Yields (engine.runAll config s' db') id table result ∧
      Yields (engine.runAll config s db) id table result := by
  obtain ⟨table, content, hfate, hyields⟩ := runAll_yields h.wellFormed h.legible hsuccess
  obtain ⟨table', content', hfate', hyields'⟩ :=
    runAll_yields h.wellFormed' h.legible' (h.outcome?_of_some hid hsuccess)
  cases (h.fate id _ hid hfate).unique h.wellFormed' hfate'
  exact ⟨table, _, hyields', hyields⟩

/-- What a run makes of the table of a block, the other one makes of it too, if the table was the same
    before. -/
theorem made_eq (h : Carries kept config.previewLimit s db s' db') (hid : kept id)
    (hbefore : db'.table? (TableName.derived id).text = db.table? (TableName.derived id).text)
    (hvisited : ((engine.runAll config s db).visits.outcome? id).isSome)
    (hroot : id ∉ s.graph.roots) :
    (engine.runAll config s' db').engineState.table? (TableName.derived id).text =
      (engine.runAll config s db).engineState.table? (TableName.derived id).text := by
  have hborne := runAll_borne h.wellFormed h.legible db config
  obtain ⟨outcome, houtcome⟩ := Option.isSome_iff_exists.1 hvisited
  obtain ⟨fate, hfate, -⟩ := hborne.foretold id outcome houtcome
  have hvisited' := Option.isSome_of_mem (h.outcome?_of_some hid houtcome)
  have hroot' := mt (h.agrees.symm.mem_roots h.wellFormed' h.wellFormed hid) hroot
  rw [hborne.made id fate hvisited hroot hfate, (runAll_borne h.wellFormed' h.legible' db' config).made
    id fate hvisited' hroot' (h.fate id fate hid hfate), hbefore]

end Carries

/-- The engine in memory reads both sessions as they were meant, and they agree on some blocks. -/
structure Matches (s' : Session) (kept : BlockId → Prop) (s : Session) : Prop where
  wellFormed' : s'.graph.WellFormed
  wellFormed : s.graph.WellFormed
  legible' : s'.Legible
  legible : s.Legible
  agrees : s'.graph.AgreesOn kept s.graph

namespace Matches

theorem symm (h : Matches s' kept s) : Matches s kept s' :=
  ⟨h.wellFormed, h.wellFormed', h.legible, h.legible', h.agrees.symm⟩

theorem carries (h : Matches s' kept s) (limit : Nat) (db : Database) :
    Carries kept limit s db s' db :=
  { h with fate := fun _ _ hid hfate => hfate.agrees h.agrees hid }

/-- Both runs record the same of a block on which the pipelines agree, or nothing. -/
theorem outcome?_eq (h : Matches s' kept s) (hid : kept id) (config : RunConfig) (db : Database) :
    (engine.runAll config s' db).visits.outcome? id =
      (engine.runAll config s db).visits.outcome? id :=
  Option.ext fun _ =>
    ⟨(h.symm.carries _ db).outcome?_of_some hid, (h.carries _ db).outcome?_of_some hid⟩

/-- A block that succeeds has the same table and the same result after both runs. -/
theorem yields (h : Matches s' kept s) (hid : kept id)
    (hsuccess : (engine.runAll config s db).visits.outcome? id = some .succeeded) :
    ∃ table result, Yields (engine.runAll config s' db) id table result ∧
      Yields (engine.runAll config s db) id table result := (h.carries _ db).yields hid hsuccess

/-- Pipelines that agree throughout leave the same tables. -/
theorem table?_eq (h : Matches s' (fun _ => True) s) (config : RunConfig) (db : Database)
    (name : String) : (engine.runAll config s' db).engineState.table? name =
      (engine.runAll config s db).engineState.table? name := by
  by_cases hmade : ∃ id, ((engine.runAll config s db).visits.outcome? id).isSome ∧
      id ∉ s.graph.roots ∧ name = (TableName.derived id).text
  · obtain ⟨id, hvisited, hroot, rfl⟩ := hmade
    exact (h.carries _ db).made_eq trivial rfl hvisited hroot
  · have hnot : ∀ id, ((engine.runAll config s db).visits.outcome? id).isSome →
        id ∉ s.graph.roots → name ≠ (TableName.derived id).text :=
      fun id hvisited hroot hname => hmade ⟨id, hvisited, hroot, hname⟩
    rw [(runAll_borne h.wellFormed h.legible db config).kept name hnot]
    refine (runAll_borne h.wellFormed' h.legible' db config).kept name fun id hvisited' hroot' => ?_
    rw [h.outcome?_eq trivial] at hvisited'
    exact hnot id hvisited' (mt (h.agrees.mem_roots h.wellFormed h.wellFormed' trivial) hroot')

end Matches

end Memory

end BlockPipeline

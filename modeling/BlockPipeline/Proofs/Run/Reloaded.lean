import BlockPipeline.Proofs.Run.Agreement
import BlockPipeline.Proofs.Session.Restored

set_option autoImplicit false

/-! # Running a pipeline that was stored and loaded again

What is loaded has no trace of earlier runs, and its connections were made in another order, so a run
comes to its blocks in another order. On the engine in memory none of this shows: the run records the
same, keeps the same results and leaves the same tables (`runAll_reloaded`). -/

namespace BlockPipeline

variable {s s' : Session} {visits visits' : Visits}

/-- Whether the statements of a pipeline are read as they were meant does not depend on what has run. -/
theorem Session.Legible.of_alike (h : s.Legible) (halike : s'.graph.Alike s.graph) : s'.Legible := by
  have hfound : ∀ block' ∈ s'.graph.blocks, ∃ block ∈ s.graph.blocks, block.outline = block'.outline :=
    fun block' hblock' => List.mem_map.1 (halike.blocks ▸ List.mem_map_of_mem hblock')
  constructor
  · intro block' hblock'
    obtain ⟨block, hblock, houtline⟩ := hfound block' hblock'
    obtain ⟨-, -, hconfig⟩ := BlockDefinition.mk.inj houtline
    exact hconfig ▸ h.unmarked block hblock
  · intro block' hblock' hload id hid
    obtain ⟨block, hblock, houtline⟩ := hfound block' hblock'
    rw [← Block.targetTable_of_outline houtline]
    exact h.apart block hblock ((Block.kind_of_outline houtline).trans hload) id (halike.ids ▸ hid)

/-- Visits in which the same is found of each block are the same up to their order. -/
theorem Visits.perm_of_outcome?_eq (hnodup : (visits.map Visit.block).Nodup)
    (hnodup' : (visits'.map Visit.block).Nodup)
    (h : ∀ id, visits'.outcome? id = visits.outcome? id) : visits'.Perm visits := by
  refine (List.perm_ext_iff_of_nodup hnodup'.of_map hnodup.of_map).2 fun ⟨id, outcome⟩ => ?_
  rw [← Visits.outcome?_eq_some_iff hnodup', h, Visits.outcome?_eq_some_iff hnodup]

namespace Memory

/-- However a session came about and whatever the engine refuses, a run of the pipeline as it is loaded
    from what was stored records the same as a run of the session itself. Every block that succeeds has
    the same table and the same result, and the same tables are left. -/
theorem runAll_reloaded (h : s.Reachable) (hlegible : s.Legible) (config : RunConfig) (db : Database) :
    ∃ r, Session.ofDefinition s.definition = .ok r ∧
      (engine.runAll config r db).visits.Perm (engine.runAll config s db).visits ∧
      (∀ id, ⟨id, .succeeded⟩ ∈ (engine.runAll config s db).visits → ∃ table result,
        Yields (engine.runAll config r db) id table result ∧
          Yields (engine.runAll config s db) id table result) ∧
      ∀ name, (engine.runAll config r db).engineState.table? name =
        (engine.runAll config s db).engineState.table? name := by
  obtain ⟨g, hgraph, halike, -⟩ := Definition.exists_alike h.wellFormed s.metadata
  have hstored : Session.ofDefinition s.definition = .ok { metadata := s.metadata, graph := g } :=
    bind_eq_ok_iff.2 ⟨g, hgraph, rfl⟩
  have hmatches : Matches { metadata := s.metadata, graph := g } (fun _ => True) s :=
    { wellFormed' := Session.wellFormed_toGraph hgraph
      wellFormed := h.wellFormed
      legible' := hlegible.of_alike halike
      legible := hlegible
      agrees := halike.agreesOn }
  have hnodup := Engine.runAll_once h.wellFormed engine config db
  have hnodup' := Engine.runAll_once hmatches.wellFormed' engine config db
  refine ⟨_, hstored, ?_, fun id hsuccess => ?_, hmatches.table?_eq config db⟩
  · exact Visits.perm_of_outcome?_eq hnodup hnodup' fun id => hmatches.outcome?_eq trivial config db
  · exact hmatches.yields trivial ((Visits.outcome?_eq_some_iff hnodup).2 hsuccess)

/-- Two filters read one load block, and the one that was connected last stands first in the pipeline.
    Both are stale since a run. The engine refuses what names the table of the second one. -/
theorem reloaded_after_run :
    let load : BlockId := ⟨1⟩
    let first : BlockId := ⟨2⟩
    let second : BlockId := ⟨3⟩
    let filter := BlockConfig.filter { column := "amount", value := some (.text "7") }
    let edited := [Session.Edit.addConfig load (.load { tableName := "orders" }),
      .addConfig first filter, .addConfig second filter, .connect load second, .connect load first,
      .setPolicy .reachability].foldl Session.Edit.apply .empty
    let ran := (Scripted.engine.runAll {} edited ⟨[], [], []⟩).session
    let s := (Session.Edit.setConfig load (.load { tableName := "people" })).apply ran
    let db : Database := ⟨[("people", ⟨[⟨"amount", "INTEGER"⟩], [[("amount", .string "7")]]⟩)], [],
      [⟨(TableName.derived second).text, "no room"⟩]⟩
    s.Reachable ∧ s.Legible ∧ s.graph.blocks.map Block.isStale = [false, true, true] ∧
      s.graph.links = [⟨load, first⟩, ⟨load, second⟩] ∧
      ⟨first, .succeeded⟩ ∈ (engine.runAll {} s db).visits ∧
      ∃ r, Session.ofDefinition s.definition = .ok r ∧
        (engine.runAll {} r db).visits.Perm (engine.runAll {} s db).visits ∧
        (∀ id, ⟨id, .succeeded⟩ ∈ (engine.runAll {} s db).visits → ∃ table result,
          Yields (engine.runAll {} r db) id table result ∧
            Yields (engine.runAll {} s db) id table result) ∧
        ∀ name, (engine.runAll {} r db).engineState.table? name =
          (engine.runAll {} s db).engineState.table? name := by
  intro load first second filter edited ran s db
  have hreach : s.Reachable :=
    .edit _ (.runAll _ _ _ (.edits .empty (by decide +kernel))) (by decide +kernel)
  have hlegible : s.Legible := ⟨by decide +kernel, by decide +kernel⟩
  exact ⟨hreach, hlegible, by decide +kernel, by decide +kernel, by decide +kernel,
    runAll_reloaded hreach hlegible {} db⟩

end Memory

end BlockPipeline

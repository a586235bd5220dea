import BlockPipeline.Engine.Scripted
import BlockPipeline.Proofs.Run.Agreement
import BlockPipeline.Proofs.Session.Changes

set_option autoImplicit false

/-! # How far another configuration carries

A block that gets another configuration may succeed or fail where it did not before, with all blocks
below it, and a load block may read another table. By the policy `reachability` these are the blocks
that such an edit affects. On the engine in memory a run comes to the same at all others, whether the
edit was made or not (`runAll_isolated`). So no block that this policy leaves unmarked is out of date. -/

namespace BlockPipeline

/-! ## Another configuration -/

theorem Block.status_settle_markStale (block : Block) (outcome : Option Outcome) :
    (block.markStale.settle outcome).status = (block.settle outcome).status := by
  rcases outcome with _ | (_ | _ | _) <;> rfl

theorem Block.outputTable_settle_markStale (block : Block) (outcome : Option Outcome) :
    (block.markStale.settle outcome).outputTable = (block.settle outcome).outputTable := by
  rcases outcome with _ | (_ | _ | _) <;> rfl

namespace Session

variable {s s' : Session} {edit : Edit} {edited id : BlockId} {block : Block} {config : BlockConfig}

/-- An edit that gives a block another configuration replaces it by one of the same kind. -/
theorem exists_replaceConfig (h : edit.configured? s = some edited) : ∃ block config,
    s.graph.find? edited = some block ∧ config.kind = block.kind ∧
      edit.apply s = (s.replaceConfig edited config).1 := by
  cases edit with
  | updateConfig id patch =>
    rw [Edit.configured?] at h
    cases hupdate : Session.updateConfig s id patch with
    | error error =>
      rw [hupdate] at h
      cases h
    | ok made =>
      rw [hupdate] at h
      obtain rfl := Option.some.inj h
      obtain ⟨block, config, hfind, hkind, hmade⟩ := updateConfig_eq_ok hupdate
      exact ⟨block, config, hfind, hkind, by rw [hmade, Edit.apply, hupdate]; rfl⟩
  | setConfig id config =>
    rw [Edit.configured?] at h
    cases hset : Session.setConfig s id config with
    | error error =>
      rw [hset] at h
      cases h
    | ok made =>
      rw [hset] at h
      obtain rfl := Option.some.inj h
      obtain ⟨block, hfind, hkind, hmade⟩ := setConfig_eq_ok hset
      exact ⟨block, config, hfind, hkind, by rw [hmade, Edit.apply, hset]; rfl⟩
  | _ => cases h

/-- What a stale block has in common with a fresh one the other blocks keep, when a block gets another
    configuration. -/
theorem Change.map_find?_eq {α : Type} (h : Change s s' (some edited)) (hne : id ≠ edited)
    {read : Block → α} (hread : ∀ block, read block.markStale = read block) :
    (s'.graph.find? id).map read = (s.graph.find? id).map read := by
  cases h with
  | configure _ _ _ _ _ _ found _ =>
    rw [found id hne]
    cases s.graph.find? id with
    | none => rfl
    | some block =>
      rw [Option.map_some, Option.map_some, Option.map_some]
      split
      · rw [hread]
      · rfl

/-- The block is neither the one that gets another configuration nor below it. -/
def Spares (s : Session) (edited id : BlockId) : Prop :=
  id ≠ edited ∧ id ∉ StalenessPolicy.reachability.affected s.graph edited

/-- Another configuration of a block changes nothing of the pipeline at the blocks that it spares. -/
theorem agreesOn_replaceConfig (hwf : s.graph.WellFormed) (hfind : s.graph.find? edited = some block)
    (hkind : config.kind = block.kind) :
    (s.replaceConfig edited config).1.graph.AgreesOn (s.Spares edited) s.graph where
  above feeder id hf hid := by
    have hbelow : ¬ s.graph.Reaches edited id := mt (Graph.mem_downstreamOf hwf).2 hid.2
    refine ⟨?_, fun hmem => hbelow (((Graph.mem_downstreamOf hwf).1 hmem).tail hf)⟩
    rintro rfl
    exact hbelow (.single hf)
  inputOf id _ := congrFun (Graph.inputOf_of_outline (outline_markStale _ _)) id
  outlines id hid := (change_replaceConfig hwf hfind hkind).map_find?_eq hid.1 fun _ => rfl

end Session

namespace Memory

variable {s : Session} {edit : Session.Edit} {edited id : BlockId}

/-! ## Blocks that are spared -/

/-- The runs record the same of the block and leave it with the same status, table and result. -/
structure AlikeAt (id : BlockId) (p' p : Progress Database) : Prop where
  outcome : p'.visits.outcome? id = p.visits.outcome? id
  status : (p'.session.graph.find? id).map Block.status = (p.session.graph.find? id).map Block.status
  output : (p'.session.graph.find? id).map Block.outputTable =
    (p.session.graph.find? id).map Block.outputTable
  result : p'.session.results.find? id = p.session.results.find? id

/-- However a session came about and whatever the engine refuses, an edit that gives a block another
    configuration does not show in a run at the blocks that it does not affect by reachability. -/
theorem runAll_isolated (h : s.Reachable) (hedit : edit.configured? s = some edited)
    (hlegible : s.Legible) (hlegible' : (edit.apply s).Legible) (config : RunConfig) (db : Database)
    (hne : id ≠ edited) (hspared : id ∉ StalenessPolicy.reachability.affected s.graph edited) :
    AlikeAt id (engine.runAll config (edit.apply s) db) (engine.runAll config s db) := by
  obtain ⟨block, replaced, hfind, hkind, happly⟩ := Session.exists_replaceConfig hedit
  rw [happly] at hlegible' ⊢
  have hwf := h.wellFormed
  have hwf' := Session.wellFormed_replaceConfig hwf hfind hkind
  have hchange := Session.change_replaceConfig hwf hfind hkind
  have hmatches : Matches (s.replaceConfig edited replaced).1 (s.Spares edited) s :=
    ⟨hwf', hwf, hlegible', hlegible, Session.agreesOn_replaceConfig hwf hfind hkind⟩
  have houtcome := hmatches.outcome?_eq ⟨hne, hspared⟩ config db
  have heffect := Engine.runAll_effect hwf engine config db
  have heffect' := Engine.runAll_effect hwf' engine config db
  refine ⟨houtcome, ?_, ?_, ?_⟩
  · rw [heffect'.settled, heffect.settled, houtcome, Option.map_map, Option.map_map]
    exact hchange.map_find?_eq hne fun block => block.status_settle_markStale _
  · rw [heffect'.settled, heffect.settled, houtcome, Option.map_map, Option.map_map]
    exact hchange.map_find?_eq hne fun block => block.outputTable_settle_markStale _
  · by_cases hsuccess : (engine.runAll config s db).visits.outcome? id = some .succeeded
    · obtain ⟨table, result, hyields', hyields⟩ := hmatches.yields ⟨hne, hspared⟩ hsuccess
      rw [hyields'.result, hyields.result]
    · rw [heffect.kept id hsuccess, heffect'.kept id (houtcome ▸ hsuccess)]
      rfl

/-- After a run the first of two filters gets a configuration that is not complete, and so the sort
    below it cannot run any more. The second filter is spared. -/
theorem isolated_second_filter :
    let load : BlockId := ⟨1⟩
    let first : BlockId := ⟨2⟩
    let second : BlockId := ⟨3⟩
    let sort : BlockId := ⟨4⟩
    let filter := BlockConfig.filter { column := "amount", value := some (.text "7") }
    let edited := [Session.Edit.addConfig load (.load { tableName := "orders" }),
      .addConfig first filter, .addConfig second filter, .addConfig sort (.sort { column := "day" }),
      .connect load first, .connect load second, .connect first sort].foldl Session.Edit.apply .empty
    let s := (Scripted.engine.runAll {} edited ⟨[], [], []⟩).session
    let edit := Session.Edit.setConfig first (.filter { column := "" })
    let db : Database := ⟨[("orders", ⟨[⟨"day", "DATE"⟩], [[("day", .string "1")]]⟩)], [],
      [⟨(TableName.derived second).text, "no room"⟩]⟩
    s.Reachable ∧ edit.configured? s = some first ∧ s.Legible ∧ (edit.apply s).Legible ∧
      second ≠ first ∧ StalenessPolicy.reachability.affected s.graph first = [sort] ∧
      AlikeAt second (engine.runAll {} (edit.apply s) db) (engine.runAll {} s db) := by
  intro load first second sort filter edited s edit db
  have hreach : s.Reachable := .runAll _ _ _ (.edits .empty (by decide +kernel))
  have hedit : edit.configured? s = some first := by decide +kernel
  have hlegible : s.Legible := ⟨by decide +kernel, by decide +kernel⟩
  have hlegible' : (edit.apply s).Legible := ⟨by decide +kernel, by decide +kernel⟩
  have hne : second ≠ first := by decide
  have haffected : StalenessPolicy.reachability.affected s.graph first = [sort] := by decide +kernel
  have hspared : second ∉ StalenessPolicy.reachability.affected s.graph first := by
    rw [haffected]
    decide
  exact ⟨hreach, hedit, hlegible, hlegible', hne, haffected,
    runAll_isolated hreach hedit hlegible hlegible' {} db hne hspared⟩

end Memory

end BlockPipeline

import BlockPipeline.Engine.Scripted
import BlockPipeline.Proofs.Session.Changes

set_option autoImplicit false

/-! # Updates of configurations

An update either fails, and then the session stays as it is, or it does what is told by `Updated`: the
block has the configuration that the patch makes, the affected blocks are marked, and all else is as it
was. It succeeds exactly if the block is there and the patch makes a configuration of its own
(`updateConfig_updated`). -/

namespace BlockPipeline

open Json

variable {g : Graph} {id : BlockId}

/-- Affected blocks are there. -/
theorem StalenessPolicy.affected_subset (hwf : g.WellFormed) (policy : StalenessPolicy)
    (id : BlockId) : policy.affected g id ⊆ g.ids := by
  intro other hother
  cases policy with
  | position =>
    simp only [affected, Graph.blocksAfter] at hother
    split at hother
    · exact List.mem_of_mem_drop hother
    · cases hother
  | reachability =>
    obtain ⟨feeder, -, hf⟩ := Relation.TransGen.tail'_iff.1 ((Graph.mem_downstreamOf hwf).1 hother)
    exact hwf.fed_mem hf

namespace Session

variable {s : Session}

/-- Another configuration does not change the order or the connections. -/
theorem shape_replaceConfig (s : Session) (id : BlockId) (config : BlockConfig) :
    (s.replaceConfig id config).1.graph.ids = s.graph.ids ∧
      (s.replaceConfig id config).1.graph.links = s.graph.links := by
  have hmarked := outline_markStale (s.graph.modify id fun block => { block with config })
    (s.policy.affected (s.graph.modify id fun block => { block with config }) id)
  exact ⟨(Graph.ids_of_outline hmarked).trans rfl, (Graph.links_of_outline hmarked).trans rfl⟩

/-- The session after an update of a configuration, and the blocks that were marked. -/
structure Updated (s : Session) (id : BlockId) (patch : Json) (s' : Session)
    (affected : List BlockId) : Prop where
  /-- The block has the configuration that the patch makes, of the same kind, and is the same
      otherwise. -/
  edited : ∃ block config, s.graph.find? id = some block ∧ block.config.Patched patch config ∧
    config.kind = block.kind ∧ s'.graph.find? id = some { block with config }
  affected_eq : affected = s.policy.affected s.graph id
  within : affected ⊆ s.graph.ids
  not_self : id ∉ affected
  /-- Other blocks are the same, but for the mark. -/
  others : ∀ other, other ≠ id → s'.graph.find? other = (s.graph.find? other).map fun block =>
    if other ∈ affected then { block with isStale := true } else block
  ids : s'.graph.ids = s.graph.ids
  links : s'.graph.links = s.graph.links
  results : s'.results = s.results
  metadata : s'.metadata = s.metadata
  policy : s'.policy = s.policy

/-- Whatever has led to a session, an update of a configuration succeeds exactly if the block is there
    and the patch makes a configuration of its own. Then nothing changes but what is told, and
    otherwise nothing changes. -/
theorem updateConfig_updated (h : s.Reachable) (id : BlockId) (patch : Json) :
    ((∃ made, s.updateConfig id patch = .ok made) ↔
      ∃ block config, s.graph.find? id = some block ∧ block.config.Patched patch config) ∧
    (∀ s' affected, s.updateConfig id patch = .ok (s', affected) →
      (Edit.updateConfig id patch).apply s = s' ∧ s.Updated id patch s' affected) ∧
    ∀ error, s.updateConfig id patch = .error error → (Edit.updateConfig id patch).apply s = s := by
  have hwf := h.wellFormed
  refine ⟨⟨?_, ?_⟩, ?_, ?_⟩
  · rintro ⟨⟨s', affected⟩, hupdate⟩
    obtain ⟨block, config, hfind, hpatched, -⟩ := updateConfig_eq_ok_iff.1 hupdate
    exact ⟨block, config, hfind, hpatched⟩
  · rintro ⟨block, config, hfind, hpatched⟩
    exact ⟨s.replaceConfig id config, updateConfig_eq_ok_iff.2 ⟨block, config, hfind, hpatched, rfl⟩⟩
  · intro s' affected hupdate
    obtain ⟨block, config, hfind, hpatched, hreplaced⟩ := updateConfig_eq_ok_iff.1 hupdate
    obtain ⟨hself, hothers⟩ := find?_replaceConfig hwf config hfind
    obtain ⟨hids, hlinks⟩ := shape_replaceConfig s id config
    have haffected : (s.replaceConfig id config).2 = s.policy.affected s.graph id :=
      StalenessPolicy.affected_modify _
    rw [hreplaced] at hself hothers hids hlinks haffected
    obtain rfl : affected = s.policy.affected s.graph id := haffected
    have hs' : (s.replaceConfig id config).1 = s' := congrArg Prod.fst hreplaced
    refine ⟨?_, ?_⟩
    · rw [Edit.apply, hupdate]
      rfl
    · exact
        { edited := ⟨block, config, hfind, hpatched, hpatched.kind_eq, hself⟩
          affected_eq := rfl
          within := StalenessPolicy.affected_subset hwf _ _
          not_self := StalenessPolicy.not_mem_affected_self hwf
          others := hothers
          ids := hids
          links := hlinks
          results := hs' ▸ rfl
          metadata := hs' ▸ rfl
          policy := hs' ▸ rfl }
  · intro error hupdate
    rw [Edit.apply, hupdate]
    rfl

/-- A filter that has run is updated, with its own kind and a name that no filter has; what it compares
    with is taken away. The sort below it becomes stale. A patch for another kind is refused. -/
theorem updated_filter :
    let load : BlockId := ⟨1⟩
    let filter : BlockId := ⟨2⟩
    let sort : BlockId := ⟨3⟩
    let edited := [Edit.addConfig load (.load { tableName := "orders" }),
      .addConfig filter (.filter { column := "amount", operator := .less, value := some (.text "7") }),
      .addConfig sort (.sort { column := "amount" }), .connect load filter,
      .connect filter sort].foldl Edit.apply .empty
    let s := (Scripted.engine.runAll {} edited ⟨[], [], []⟩).session
    let patch := Json.object [("column", .string "price"), ("type", .string "filter"),
      ("value", .null), ("colour", .bool true)]
    let s' := (Edit.updateConfig filter patch).apply s
    let refused := Json.object [("column", .string "price"), ("type", .string "sort")]
    s.Reachable ∧ s.updateConfig filter patch = .ok (s', [sort]) ∧
      s'.graph.find? filter = (s.graph.find? filter).map (fun block =>
        { block with config := .filter { column := "price", operator := .less, value := none } }) ∧
      s.Updated filter patch s' [sort] ∧
      (s.updateConfig filter refused).isOk = false ∧ (Edit.updateConfig filter refused).apply s = s := by
  intro load filter sort edited s patch s' refused
  have hreach : s.Reachable := .runAll _ _ _ (.edits .empty (by decide +kernel))
  have hupdate : s.updateConfig filter patch = .ok (s', [sort]) := by decide +kernel
  have hrefused : (s.updateConfig filter refused).isOk = false := by decide +kernel
  refine ⟨hreach, hupdate, by decide +kernel,
    ((updateConfig_updated hreach filter patch).2.1 s' [sort] hupdate).2, hrefused, ?_⟩
  cases hresult : s.updateConfig filter refused with
  | ok made =>
    rw [hresult] at hrefused
    cases hrefused
  | error error => exact (updateConfig_updated hreach filter refused).2.2 error hresult

end Session

end BlockPipeline

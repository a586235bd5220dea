import BlockPipeline.Proofs.Plan.Entries
import BlockPipeline.Proofs.Session.Reachable
import BlockPipeline.Proofs.Sql.Creation

set_option autoImplicit false

/-! # Which blocks a plan contains

A plan takes up every block once, as one that can run or as one that cannot. It takes them up one by
one, and looks only at what it has planned so far, so what it says of a block might depend on the order.
It does not: a block is planned exactly if it is `Supplied`, that is if no block on the way to it is
incomplete and the way begins with a load block (`Covers.planned_iff`). This is by induction along the
connections, as an entry depends on the entry of the feeder.

The entries themselves are told from the entries before them (`MadeFrom`). -/

namespace BlockPipeline

variable {g : Graph} {plan : Plan} {block : Block} {planned : PlannedBlock} {id feeder : BlockId}
  {done : List BlockId}

/-! ## Blocks that are supplied -/

/-- The block and all blocks above it are complete, and the topmost one is a load block. -/
structure Graph.Supplied (g : Graph) (id : BlockId) : Prop where
  complete : ∀ a, Relation.ReflTransGen g.Feeds a id →
    ∃ block, g.find? a = some block ∧ block.config.validate = .ok ()
  loaded : ∃ top block, Relation.ReflTransGen g.Feeds top id ∧ g.inputOf top = none ∧
    g.find? top = some block ∧ block.kind = .load

namespace Graph

/-- A block that nothing feeds is supplied if it is a complete load block. -/
theorem supplied_iff_of_top (hnone : g.inputOf id = none) (hfind : g.find? id = some block) :
    g.Supplied id ↔ block.config.validate = .ok () ∧ block.kind = .load := by
  have hself : ∀ a, Relation.ReflTransGen g.Feeds a id → a = id := by
    intro a hr
    rcases hr.cases_tail with rfl | ⟨b, -, hf⟩
    · rfl
    · rw [Feeds, hnone] at hf
      cases hf
  constructor
  · intro h
    obtain ⟨found, hfound, hvalid⟩ := h.complete id .refl
    obtain ⟨top, loaded, hr, -, htop, hload⟩ := h.loaded
    obtain rfl := hself top hr
    obtain rfl := Option.some.inj (hfind.symm.trans hfound)
    obtain rfl := Option.some.inj (hfind.symm.trans htop)
    exact ⟨hvalid, hload⟩
  · rintro ⟨hvalid, hload⟩
    refine ⟨fun a hr => ?_, id, block, .refl, hnone, hfind, hload⟩
    obtain rfl := hself a hr
    exact ⟨block, hfind, hvalid⟩

/-- A block that is fed is supplied if it is complete and the block that feeds it is supplied. -/
theorem supplied_iff_of_fed (hf : g.Feeds feeder id) (hfind : g.find? id = some block) :
    g.Supplied id ↔ block.config.validate = .ok () ∧ g.Supplied feeder := by
  have habove : ∀ a, Relation.ReflTransGen g.Feeds a id →
      a = id ∨ Relation.ReflTransGen g.Feeds a feeder := by
    intro a hr
    rcases hr.cases_tail with rfl | ⟨b, hr, hf'⟩
    · exact .inl rfl
    · rw [feeder_unique hf hf']
      exact .inr hr
  constructor
  · intro h
    obtain ⟨found, hfound, hvalid⟩ := h.complete id .refl
    obtain ⟨top, loaded, hr, hnone, hload⟩ := h.loaded
    obtain rfl := Option.some.inj (hfind.symm.trans hfound)
    refine ⟨hvalid, fun a hr => h.complete a (hr.tail hf), top, loaded, ?_, hnone, hload⟩
    refine (habove top hr).resolve_left ?_
    rintro rfl
    rw [Feeds, hnone] at hf
    cases hf
  · rintro ⟨hvalid, h⟩
    obtain ⟨top, loaded, hr, hload⟩ := h.loaded
    refine ⟨fun a hr => ?_, top, loaded, hr.tail hf, hload⟩
    rcases habove a hr with rfl | hr
    · exact ⟨block, hfind, hvalid⟩
    · exact h.complete a hr

end Graph

namespace Plan

/-- A block is planned exactly if it is supplied, provided that this holds of what feeds it. -/
theorem Covers.planned_iff_of_feeder (hwf : g.WellFormed) (h : plan.Covers g g.ids) (hid : id ∈ g.ids)
    (ih : ∀ feeder, g.Feeds feeder id →
      ((∃ planned, plan.find? feeder = some planned) ↔ g.Supplied feeder)) :
    (∃ planned, plan.find? id = some planned) ↔ g.Supplied id := by
  obtain ⟨block, hfind⟩ := hwf.mem_ids_iff.1 hid
  obtain rfl := hwf.id_of_find? hfind
  have hsettles := h.settles block hfind hid
  have hentry : (∃ planned, plan.find? block.id = some planned) ↔
      ∃ planned, plan.entry g block = .ok planned := by
    constructor
    · exact fun ⟨planned, hplanned⟩ => ⟨planned, hsettles.entry_eq_ok hplanned⟩
    · exact fun ⟨planned, hentry⟩ => ⟨planned, hsettles.of_ok hentry⟩
  rw [hentry]
  cases hinput : g.inputOf block.id with
  | none =>
    rw [Graph.supplied_iff_of_top hinput hfind, ← BlockKind.isSource_iff]
    constructor
    · rintro ⟨planned, hplanned⟩
      obtain ⟨hvalid, ⟨hsource, -⟩ | ⟨-, feeder, above, hf, -⟩⟩ := entry_cases hplanned
      · exact ⟨hvalid, hsource⟩
      · rw [Graph.Feeds, hinput] at hf
        cases hf
    · rintro ⟨hvalid, hsource⟩
      exact entry_of_source hvalid hsource
  | some feeder =>
    rw [Graph.supplied_iff_of_fed hinput hfind, ← ih feeder hinput]
    constructor
    · rintro ⟨planned, hplanned⟩
      obtain ⟨hvalid, ⟨hsource, -⟩ | ⟨-, feeder', above, hf, habove, -⟩⟩ := entry_cases hplanned
      · rw [hwf.fed_kind hinput hfind] at hsource
        cases hsource
      · obtain rfl := Graph.feeder_unique hinput hf
        exact ⟨hvalid, above, habove⟩
    · rintro ⟨hvalid, above, habove⟩
      exact entry_of_fed hvalid hinput habove

/-- The blocks planned are those that are supplied. -/
theorem Covers.planned_iff (hwf : g.WellFormed) (h : plan.Covers g g.ids) (id : BlockId) :
    (∃ planned, plan.find? id = some planned) ↔ g.Supplied id := by
  by_cases hid : id ∈ g.ids
  · exact hwf.induction_mem (fun id hid => h.planned_iff_of_feeder hwf hid) id hid
  -- neither holds of what is no block of the graph
  constructor
  · rintro ⟨planned, hfind⟩
    obtain ⟨hplanned, rfl⟩ := (find?_eq_some_iff h.once).1 hfind
    exact absurd (h.within planned hplanned) hid
  · intro hsupplied
    obtain ⟨block, hfind, -⟩ := hsupplied.complete id .refl
    exact absurd (hwf.mem_ids_iff.2 ⟨block, hfind⟩) hid

/-! ## What entries are made from -/

/-- An entry tells of its block, and unless this is a load block, of an entry before it. -/
inductive MadeFrom (g : Graph) (front : List PlannedBlock) : PlannedBlock → Prop where
  /-- A load block reads no table, and there is no statement for its source table. -/
  | load {id : BlockId} {block : Block} {config : LoadConfig} (found : g.find? id = some block)
    (loads : block.config = .load config) : MadeFrom g front ⟨id, .load, none, ⟨config.tableName⟩, ""⟩
  /-- Another block reads what the entry of its input makes, and there is a statement for its table. -/
  | fed {id : BlockId} {block : Block} {above : PlannedBlock} (found : g.find? id = some block)
    (kind : block.kind ≠ .load) (input : g.inputOf id = some above.id) (earlier : above ∈ front)
    (stated : (Sql.compile block.config above.output (.derived id)).text ≠ "") :
    MadeFrom g front ⟨id, block.kind, some above.output, .derived id,
      (Sql.compile block.config above.output (.derived id)).text⟩

/-- What becomes of a block is made from what is planned. -/
theorem madeFrom_of_entry (hfind : g.find? block.id = some block)
    (h : plan.entry g block = .ok planned) : MadeFrom g plan.blocks planned := by
  obtain ⟨-, ⟨hsource, rfl⟩ | ⟨hnot, feeder, above, hf, habove, rfl⟩⟩ := entry_cases h
  · have hload : block.kind = .load := BlockKind.isSource_iff.1 hsource
    cases hconfig : block.config with
    | load config =>
      have htarget : block.targetTable = ⟨config.tableName⟩ := by
        rw [Block.targetTable, hconfig]
      rw [hload, htarget]
      exact .load hfind hconfig
    | _ =>
      rw [Block.kind, hconfig] at hload
      cases hload
  · have hkind : block.kind ≠ .load := BlockKind.isSource_eq_false_iff.1 hnot
    have hid : above.id = feeder := by simpa using List.find?_some habove
    rw [Block.targetTable_of_ne_load hkind]
    refine .fed hfind hkind (hid ▸ hf) (List.mem_of_find?_eq_some habove) fun hempty => ?_
    have hcreates := Sql.creates_compile hnot above.output (.derived block.id)
    rw [hempty] at hcreates
    cases hcreates

/-- The plan has taken up these blocks, each once, and its entries are made from those before them. -/
structure Takes (plan : Plan) (g : Graph) (done : List BlockId) : Prop where
  perm : (plan.blocks.map PlannedBlock.id ++ plan.skipped.map SkippedBlock.id).Perm done
  made : ∀ front planned back, plan.blocks = front ++ planned :: back → MadeFrom g front planned

theorem Takes.extend (hwf : g.WellFormed) (h : plan.Takes g done) (hid : id ∈ g.ids) :
    (plan.extend g id).Takes g (id :: done) := by
  obtain ⟨block, hfind⟩ := hwf.mem_ids_iff.1 hid
  obtain rfl := hwf.id_of_find? hfind
  unfold Plan.extend
  rw [hfind]
  simp only
  cases hentry : plan.entry g block with
  | error reason =>
    refine ⟨?_, h.made⟩
    rw [List.map_append, ← List.append_assoc]
    exact (List.perm_append_singleton _ _).trans (h.perm.cons _)
  | ok planned =>
    have hplanned : planned.id = block.id := (entry_eq_ok hentry).id_eq
    constructor
    · rw [List.map_append, List.map_singleton, hplanned, List.append_assoc, List.singleton_append]
      exact List.perm_middle.trans (h.perm.cons _)
    · -- the entry asked for is the new one, or it was there before
      intro front made back hsplit
      rcases back.eq_nil_or_concat with rfl | ⟨back, last, rfl⟩
      · obtain ⟨rfl, hlast⟩ := List.append_inj' hsplit rfl
        obtain rfl := List.singleton_inj.1 hlast
        exact madeFrom_of_entry hfind hentry
      · rw [List.concat_eq_append, ← List.cons_append, ← List.append_assoc] at hsplit
        exact h.made front made back (List.append_inj' hsplit rfl).1

theorem Takes.extend_all (hwf : g.WellFormed) {order : List BlockId} (h : plan.Takes g done)
    (hids : order ⊆ g.ids) : (order.foldl (Plan.extend g) plan).Takes g (order.reverse ++ done) := by
  induction order generalizing plan done with
  | nil => exact h
  | cons id rest ih =>
    obtain ⟨hid, hrest⟩ := List.cons_subset.1 hids
    rw [List.reverse_cons, List.append_assoc]
    exact ih (h.extend hwf hid) hrest

theorem ofGraph_takes (h : g.WellFormed) : (ofGraph g).Takes g g.topologicalOrder.reverse := by
  have hempty : Plan.Takes ⟨[], []⟩ g [] := ⟨.nil, by simp⟩
  have htakes := hempty.extend_all h (Graph.topologicalOrder_ordered h).subset
  rwa [List.append_nil] at htakes

/-- The plan tells the blocks that can run from those that cannot. -/
structure Selects (plan : Plan) (g : Graph) : Prop where
  /-- The blocks planned and the blocks left out are the blocks of the graph. -/
  perm : (plan.blocks.map PlannedBlock.id ++ plan.skipped.map SkippedBlock.id).Perm g.ids
  once : (plan.blocks.map PlannedBlock.id ++ plan.skipped.map SkippedBlock.id).Nodup
  planned_iff : ∀ id, id ∈ plan.blocks.map PlannedBlock.id ↔ g.Supplied id
  made : ∀ front planned back, plan.blocks = front ++ planned :: back → MadeFrom g front planned

/-- However a graph came about, its plan contains the blocks that are supplied. -/
theorem ofGraph_selects (h : g.Occurs) : (ofGraph g).Selects g := by
  have hwf := h.wellFormed
  have htakes := ofGraph_takes hwf
  have hcovers := ofGraph_covers hwf
  have horder : g.topologicalOrder.reverse.Perm g.ids :=
    (List.reverse_perm _).trans (Graph.topologicalOrder_perm hwf)
  have hperm := htakes.perm.trans horder
  refine ⟨hperm, hperm.nodup_iff.2 hwf.ids_nodup, fun id => ?_, htakes.made⟩
  rw [← hcovers.planned_iff hwf id, ← Option.isSome_iff_exists, Option.isSome_iff_ne_none, ne_eq,
    find?_eq_none_iff, not_not]

/-- A filter that stands before its load block, a chart without axes and a filter below it, a sort that
    is not connected, and a load block without a table with a sort below it. -/
theorem selects_two :
    let load : BlockId := ⟨1⟩
    let filter : BlockId := ⟨2⟩
    let chart : BlockId := ⟨3⟩
    let below : BlockId := ⟨4⟩
    let alone : BlockId := ⟨5⟩
    let empty : BlockId := ⟨6⟩
    let starved : BlockId := ⟨7⟩
    let complete := BlockConfig.filter { column := "amount", value := some (.text "7") }
    let g := [Graph.Edit.addConfig load (.load { tableName := "orders" }),
      .addConfig filter complete, .addKind chart .chart, .addConfig below complete,
      .addConfig alone (.sort { column := "amount" }), .addKind empty .load,
      .addConfig starved (.sort { column := "amount" }), .connect load filter, .connect filter chart,
      .connect chart below, .connect empty starved, .move filter 0].foldl Graph.Edit.apply .empty
    g.Occurs ∧ (ofGraph g).blocks.map PlannedBlock.id = [load, filter] ∧
      (ofGraph g).skipped.map SkippedBlock.id = [chart, below, alone, empty, starved] ∧
      (ofGraph g).Selects g := by
  intro load filter chart below alone empty starved complete g
  have hoccurs : g.Occurs := .edited (.edits .empty (by decide +kernel))
  exact ⟨hoccurs, by decide +kernel, by decide +kernel, ofGraph_selects hoccurs⟩

end Plan

end BlockPipeline

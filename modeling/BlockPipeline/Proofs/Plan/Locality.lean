import BlockPipeline.Proofs.Plan.Selection
import BlockPipeline.Proofs.Run.Isolation

set_option autoImplicit false

/-! # How far another configuration shows in a plan

What a plan says of a block depends on the block, on what feeds it, and on the table that the feeder
offers, if it is planned at all (`entry_congr_offer`). So two graphs have the same entry for a block that
is configured alike in both, if everything above it offers the same (`OffersLike.verdict_eq`). A block
above may be configured alike, or it may be complete in both graphs and no load block: then it offers the
table that is named for it, whatever its configuration.

An edit of a configuration is of this kind for all blocks that are not below the edited one, and for all
blocks if the edited one is no load block and stays complete (`plan_edited`). -/

namespace BlockPipeline

variable {g g' : Graph} {plan plan' : Plan} {block block' : Block} {planned : PlannedBlock}
  {id feeder : BlockId} {kept : BlockId → Prop}

namespace Plan

/-- The table that a block offers to those it feeds, if it is planned. -/
def offer? (plan : Plan) (id : BlockId) : Option TableName := (plan.find? id).map PlannedBlock.output

/-- What the plan says of a block: the entry if it can run, and the reason if it is left out. -/
def verdict (plan : Plan) (id : BlockId) : Option PlannedBlock × Option String :=
  (plan.find? id, (plan.skipped.find? (·.id == id)).map SkippedBlock.reason)

/-! ## Entries and offers -/

/-- The entry of a block depends on its configuration, its feeder and the table that this one offers. -/
theorem entry_congr_offer (houtline : block'.outline = block.outline)
    (hinput : g'.inputOf block.id = g.inputOf block.id)
    (hoffer : ∀ feeder, g.Feeds feeder block.id → plan'.offer? feeder = plan.offer? feeder) :
    plan'.entry g' block' = plan.entry g block := by
  obtain ⟨hid, -, hconfig⟩ := BlockDefinition.mk.inj houtline
  rw [entry_eq, entry_eq, hid, hconfig, Block.kind_of_outline houtline,
    Block.targetTable_of_outline houtline, hinput]
  cases hfeeder : g.inputOf block.id with
  | none => rfl
  | some feeder =>
    have hsame := hoffer feeder hfeeder
    unfold offer? at hsame
    cases hfind : plan.find? feeder with
    | none =>
      rw [hfind, Option.map_none, Option.map_eq_none_iff] at hsame
      simp only [hsame, hfind]
    | some above =>
      rw [hfind, Option.map_some, Option.map_eq_some_iff] at hsame
      obtain ⟨above', hfind', houtput⟩ := hsame
      simp only [hfind', hfind, houtput]

/-- A complete block that is no load block is planned if its feeder offers a table. -/
theorem output_entry (hvalid : block.config.validate = .ok ()) (hkind : block.kind ≠ .load) :
    (plan.entry g block).toOption.map PlannedBlock.output =
      ((g.inputOf block.id).bind plan.offer?).map fun _ => .derived block.id := by
  have hsource : block.kind.isSource = false := BlockKind.isSource_eq_false_iff.2 hkind
  rw [entry_eq, hvalid]
  simp only [hsource, Bool.false_eq_true, if_false]
  cases hfeeder : g.inputOf block.id with
  | none => rfl
  | some feeder =>
    rw [Option.bind_some, offer?]
    cases hfind : plan.find? feeder with
    | none => simp only [hfind]; rfl
    | some above =>
      simp only [hfind]
      exact congrArg some (Block.targetTable_of_ne_load hkind)

/-! ## The plan of a graph -/

/-- The plan says of each block of the graph what it makes of it itself. -/
theorem verdict_ofGraph (hwf : g.WellFormed) (hfind : g.find? id = some block) :
    (ofGraph g).verdict id = match (ofGraph g).entry g block with
      | .ok planned => (some planned, none)
      | .error reason => (none, some reason) := by
  obtain rfl := hwf.id_of_find? hfind
  have hcovers := ofGraph_covers hwf
  have hsettles := hcovers.settles block hfind (hwf.mem_ids_iff.2 ⟨block, hfind⟩)
  have hnodup := (ofGraph_takes hwf).perm.nodup_iff.2
    (List.nodup_reverse.2 (Graph.topologicalOrder_ordered hwf).nodup)
  obtain ⟨-, hskipped, hdisjoint⟩ := List.nodup_append'.1 hnodup
  unfold verdict
  cases hentry : (ofGraph g).entry g block with
  | ok planned =>
    have hplanned := hsettles.of_ok hentry
    obtain ⟨hmem, hid⟩ := (find?_eq_some_iff hcovers.once).1 hplanned
    have hnone : (ofGraph g).skipped.find? (·.id == block.id) = none := by
      rw [List.find?_eq_none]
      intro skipped hmem' hsame
      refine hdisjoint (List.mem_map_of_mem hmem) ?_
      rw [hid, ← beq_iff_eq.1 hsame]
      exact List.mem_map_of_mem hmem'
    rw [hplanned, hnone]
    rfl
  | error reason =>
    obtain ⟨hnone, hmem⟩ := hsettles.of_error hentry
    rw [hnone, (find?_key_eq_some_iff hskipped).2 ⟨hmem, rfl⟩]
    rfl

/-- The plan says nothing of what is no block. -/
theorem verdict_of_no_block (hwf : g.WellFormed) (hfind : g.find? id = none) :
    (ofGraph g).verdict id = (none, none) := by
  have hout : id ∉ g.ids := by
    intro hid
    obtain ⟨block, hblock⟩ := hwf.mem_ids_iff.1 hid
    rw [hfind] at hblock
    cases hblock
  have hmem : ∀ other, other ∈ (ofGraph g).blocks.map PlannedBlock.id ++
      (ofGraph g).skipped.map SkippedBlock.id → other ∈ g.ids := by
    intro other hother
    have := (ofGraph_takes hwf).perm.mem_iff.1 hother
    exact (Graph.mem_topologicalOrder hwf).1 (List.mem_reverse.1 this)
  have hplanned : (ofGraph g).find? id = none :=
    find?_eq_none_iff.2 fun h => hout (hmem id (List.mem_append_left _ h))
  have hskipped : (ofGraph g).skipped.find? (·.id == id) = none := by
    rw [List.find?_eq_none]
    intro skipped h hsame
    refine hout (hmem id (List.mem_append_right _ ?_))
    rw [← beq_iff_eq.1 hsame]
    exact List.mem_map_of_mem h
  rw [verdict, hplanned, hskipped]
  rfl

theorem offer?_of_verdict (plan : Plan) (id : BlockId) :
    plan.offer? id = (plan.verdict id).1.map PlannedBlock.output := rfl

end Plan

/-! ## Graphs that offer the same -/

namespace Graph

/-- The block is complete and makes its own table from another one. -/
def Derives (g : Graph) (id : BlockId) : Prop :=
  ∃ block, g.find? id = some block ∧ block.kind ≠ .load ∧ block.config.validate = .ok ()

/-- The graphs have the same blocks of this kind with the same inputs, which are of this kind too. Each
    block is configured alike in both, or makes its own table in both. -/
structure OffersLike (g' : Graph) (kept : BlockId → Prop) (g : Graph) : Prop where
  above : ∀ feeder id, g.Feeds feeder id → kept id → kept feeder
  inputOf : ∀ id, kept id → g'.inputOf id = g.inputOf id
  blocks : ∀ id, kept id → (g'.find? id).map Block.outline = (g.find? id).map Block.outline ∨
    g'.Derives id ∧ g.Derives id

theorem AgreesOn.offersLike (h : g'.AgreesOn kept g) : g'.OffersLike kept g :=
  ⟨h.above, h.inputOf, fun id hid => .inl (h.outlines id hid)⟩

/-- What makes its own table offers it if it is offered one. -/
theorem Derives.offer?_eq (hwf : g.WellFormed) (h : g.Derives id) :
    (Plan.ofGraph g).offer? id =
      ((g.inputOf id).bind (Plan.ofGraph g).offer?).map fun _ => .derived id := by
  obtain ⟨block, hfind, hkind, hvalid⟩ := h
  obtain rfl := hwf.id_of_find? hfind
  rw [← Plan.output_entry hvalid hkind, Plan.offer?_of_verdict, Plan.verdict_ofGraph hwf hfind]
  cases (Plan.ofGraph g).entry g block <;> rfl

namespace OffersLike

/-- The plans say the same of a block that is configured alike if its feeder offers the same. -/
theorem verdict_eq_of_feeder (hwf' : g'.WellFormed) (hwf : g.WellFormed) (h : g'.OffersLike kept g)
    (hid : kept id) (houtline : (g'.find? id).map Block.outline = (g.find? id).map Block.outline)
    (hoffer : ∀ feeder, g.Feeds feeder id →
      (Plan.ofGraph g').offer? feeder = (Plan.ofGraph g).offer? feeder) :
    (Plan.ofGraph g').verdict id = (Plan.ofGraph g).verdict id := by
  cases hfind : g.find? id with
  | none =>
    rw [hfind, Option.map_none, Option.map_eq_none_iff] at houtline
    rw [Plan.verdict_of_no_block hwf' houtline, Plan.verdict_of_no_block hwf hfind]
  | some block =>
    rw [hfind, Option.map_some, Option.map_eq_some_iff] at houtline
    obtain ⟨block', hfind', houtline⟩ := houtline
    obtain rfl := hwf.id_of_find? hfind
    rw [Plan.verdict_ofGraph hwf' hfind', Plan.verdict_ofGraph hwf hfind,
      Plan.entry_congr_offer houtline (h.inputOf _ hid) hoffer]

/-- All these blocks offer the same. By induction along the connections. -/
theorem offer?_eq (hwf' : g'.WellFormed) (hwf : g.WellFormed) (h : g'.OffersLike kept g) :
    ∀ id ∈ g.ids, kept id → (Plan.ofGraph g').offer? id = (Plan.ofGraph g).offer? id := by
  refine hwf.induction fun id ih hid => ?_
  have hoffer : ∀ feeder, g.Feeds feeder id →
      (Plan.ofGraph g').offer? feeder = (Plan.ofGraph g).offer? feeder :=
    fun feeder hf => ih feeder hf (h.above feeder id hf hid)
  rcases h.blocks id hid with houtline | ⟨hderives', hderives⟩
  · rw [Plan.offer?_of_verdict, Plan.offer?_of_verdict,
      h.verdict_eq_of_feeder hwf' hwf hid houtline hoffer]
  · rw [hderives'.offer?_eq hwf', hderives.offer?_eq hwf, h.inputOf id hid]
    cases hfeeder : g.inputOf id with
    | none => rfl
    | some feeder => rw [Option.bind_some, Option.bind_some, hoffer feeder hfeeder]

/-- The plans say the same of all these blocks that are configured alike. -/
theorem verdict_eq (hwf' : g'.WellFormed) (hwf : g.WellFormed) (h : g'.OffersLike kept g)
    (hid : kept id) (houtline : (g'.find? id).map Block.outline = (g.find? id).map Block.outline) :
    (Plan.ofGraph g').verdict id = (Plan.ofGraph g).verdict id :=
  h.verdict_eq_of_feeder hwf' hwf hid houtline fun feeder hf =>
    h.offer?_eq hwf' hwf feeder (hwf.feeder_mem hf) (h.above feeder id hf hid)

end OffersLike

end Graph

/-! ## Edits -/

namespace Session

variable {s : Session} {edit : Edit} {edited : BlockId} {config : BlockConfig}

/-- A block that makes its own table before and after it gets another configuration offers the same, and
    so all blocks of the pipeline do. -/
theorem offersLike_replaceConfig (hwf : s.graph.WellFormed) (hfind : s.graph.find? edited = some block)
    (hkind : config.kind = block.kind) (hderives : s.graph.Derives edited)
    (hderives' : (s.replaceConfig edited config).1.graph.Derives edited) :
    (s.replaceConfig edited config).1.graph.OffersLike (fun _ => True) s.graph where
  above _ _ _ _ := trivial
  inputOf id _ := congrFun (Graph.inputOf_of_outline (outline_markStale _ _)) id
  blocks id _ := by
    by_cases hsame : id = edited
    · subst hsame
      exact .inr ⟨hderives', hderives⟩
    · exact .inl ((change_replaceConfig hwf hfind hkind).map_find?_eq hsame fun _ => rfl)

/-- However a session came about, an edit that gives a block another configuration changes what the plan
    says of this block and of blocks below it only. If the block is no load block and is complete before
    and after the edit, it changes what the plan says of this block only. -/
theorem plan_edited (h : s.Reachable) (hedit : edit.configured? s = some edited) :
    (∀ id, id ≠ edited → ¬ s.graph.Reaches edited id →
      (edit.apply s).plan.verdict id = s.plan.verdict id) ∧
    (s.graph.Derives edited → (edit.apply s).graph.Derives edited →
      ∀ id, id ≠ edited → (edit.apply s).plan.verdict id = s.plan.verdict id) := by
  obtain ⟨block, config, hfind, hkind, happly⟩ := exists_replaceConfig hedit
  rw [happly]
  have hwf := h.wellFormed
  have hwf' := wellFormed_replaceConfig hwf hfind hkind
  have hchange := change_replaceConfig hwf hfind hkind
  constructor
  · intro id hne hbelow
    have hspared : s.Spares edited id := ⟨hne, mt (Graph.mem_downstreamOf hwf).1 hbelow⟩
    have hagrees := agreesOn_replaceConfig hwf hfind hkind
    exact hagrees.offersLike.verdict_eq hwf' hwf hspared (hagrees.outlines id hspared)
  · intro hderives hderives' id hne
    exact (offersLike_replaceConfig hwf hfind hkind hderives hderives').verdict_eq hwf' hwf trivial
      (hchange.map_find?_eq hne fun _ => rfl)

/-- Of two filters the first gets another value, and then none. Its new statement is the only change of
    the plan at first, and then it is left out with the sort below it. -/
theorem plan_edited_filter :
    let load : BlockId := ⟨1⟩
    let first : BlockId := ⟨2⟩
    let second : BlockId := ⟨3⟩
    let sort : BlockId := ⟨4⟩
    let filter (value : Option FilterValue) := BlockConfig.filter { column := "amount", value }
    let s := [Edit.addConfig load (.load { tableName := "orders" }),
      .addConfig first (filter (some (.text "7"))), .addConfig second (filter (some (.text "8"))),
      .addConfig sort (.sort { column := "day" }), .connect load first, .connect load second,
      .connect first sort].foldl Edit.apply .empty
    let changed := Edit.updateConfig first (.object [("value", .bool true)])
    let cleared := Edit.setConfig first (filter none)
    s.Reachable ∧ changed.configured? s = some first ∧ cleared.configured? s = some first ∧
      s.graph.Derives first ∧ (changed.apply s).graph.Derives first ∧
      (changed.apply s).plan.verdict first ≠ s.plan.verdict first ∧
      (changed.apply s).plan.verdict sort = s.plan.verdict sort ∧
      (cleared.apply s).plan.verdict sort =
        (none, some ("upstream block " ++ first.text ++ " was skipped")) ∧
      (cleared.apply s).plan.verdict second = s.plan.verdict second := by
  intro load first second sort filter s changed cleared
  have hreach : s.Reachable := .edits .empty (by decide +kernel)
  have hchanged : changed.configured? s = some first := by decide +kernel
  have hcleared : cleared.configured? s = some first := by decide +kernel
  have hderives : s.graph.Derives first :=
    ⟨.ofConfig first (filter (some (.text "7"))), by decide +kernel, by decide, by decide⟩
  have hderives' : (changed.apply s).graph.Derives first :=
    ⟨.ofConfig first (filter (some (.bool true))), by decide +kernel, by decide, by decide⟩
  have hbelow : ¬ s.graph.Reaches first second := by
    rw [← Graph.mem_downstreamOf hreach.wellFormed]
    decide +kernel
  exact ⟨hreach, hchanged, hcleared, hderives, hderives', by decide +kernel,
    (plan_edited hreach hchanged).2 hderives hderives' sort (by decide), by decide +kernel,
    (plan_edited hreach hcleared).1 second (by decide) hbelow⟩

end Session

end BlockPipeline

import BlockPipeline.Pipeline.Plan
import BlockPipeline.Proofs.Attempt
import BlockPipeline.Proofs.Graph.Topological

set_option autoImplicit false

/-! # The entries of a plan

A plan is built along the topological order, and the entry of a block depends on the plan so far. It
depends only on the entry of the block that feeds it, which is there by then and does not change any
more. So the entry of a block is the one that the finished plan itself gives it (`ofGraph_covers`),
and the way the plan was built can be forgotten. -/

namespace BlockPipeline.Plan

variable {plan plan' : Plan} {g : Graph} {block : Block} {planned : PlannedBlock} {id : BlockId}

/-! ## One entry -/

/-- The entry of a block, case by case. -/
theorem entry_eq (plan : Plan) (g : Graph) (block : Block) :
    plan.entry g block = match block.config.validate with
      | .error error => .error error.message
      | .ok () =>
        if block.kind.isSource then .ok ⟨block.id, block.kind, none, block.targetTable, ""⟩
        else match g.inputOf block.id with
          | none => .error PipelineError.missingInput.message
          | some feeder =>
            match plan.find? feeder with
            | none => .error ("upstream block " ++ feeder.text ++ " was skipped")
            | some above => .ok ⟨block.id, block.kind, some above.output, block.targetTable,
              (Sql.compile block.config above.output block.targetTable).text⟩ := by
  unfold entry
  cases block.config.validate <;> rfl

/-- The entry of a block depends on the entry of its feeder only. -/
theorem entry_congr (h : ∀ feeder, g.Feeds feeder block.id → plan'.find? feeder = plan.find? feeder) :
    plan'.entry g block = plan.entry g block := by
  rw [entry_eq, entry_eq]
  cases hinput : g.inputOf block.id with
  | none => rfl
  | some feeder => simp only [h feeder hinput]

/-- The entry of a block that can run: that of a load block, or one made of the entry of its feeder. -/
theorem entry_cases (h : plan.entry g block = .ok planned) :
    block.config.validate = .ok () ∧
      (block.kind.isSource = true ∧
          planned = ⟨block.id, block.kind, none, block.targetTable, ""⟩ ∨
        block.kind.isSource = false ∧ ∃ feeder above, g.Feeds feeder block.id ∧
          plan.find? feeder = some above ∧
          planned = ⟨block.id, block.kind, some above.output, block.targetTable,
            (Sql.compile block.config above.output block.targetTable).text⟩) := by
  rw [entry_eq] at h
  cases hvalid : block.config.validate with
  | error error =>
    rw [hvalid] at h
    cases h
  | ok done =>
    rw [hvalid] at h
    refine ⟨rfl, ?_⟩
    cases hsource : block.kind.isSource with
    | true =>
      simp only [hsource, if_true] at h
      exact .inl ⟨rfl, (Except.ok.inj h).symm⟩
    | false =>
      simp only [hsource] at h
      cases hinput : g.inputOf block.id with
      | none =>
        simp only [hinput] at h
        cases h
      | some feeder =>
        cases hfind : plan.find? feeder with
        | none =>
          simp only [hinput, hfind] at h
          cases h
        | some above =>
          simp only [hinput, hfind] at h
          exact .inr ⟨rfl, feeder, above, hinput, hfind, (Except.ok.inj h).symm⟩

/-- What a block that can run reads and how it makes its table. -/
structure EntryOf (plan : Plan) (g : Graph) (block : Block) (planned : PlannedBlock) : Prop where
  id_eq : planned.id = block.id
  kind_eq : planned.kind = block.kind
  output_eq : planned.output = block.targetTable
  complete : block.config.validate = .ok ()
  source : block.kind.isSource = true → planned.sql = ""
  fed : block.kind.isSource = false → ∃ feeder above, g.Feeds feeder block.id ∧
    plan.find? feeder = some above ∧
      planned.sql = (Sql.compile block.config above.output block.targetTable).text

theorem entry_eq_ok (h : plan.entry g block = .ok planned) : plan.EntryOf g block planned := by
  obtain ⟨hvalid, ⟨hsource, rfl⟩ | ⟨hnot, feeder, above, hf, hfind, rfl⟩⟩ := entry_cases h
  · refine ⟨rfl, rfl, rfl, hvalid, fun _ => rfl, fun hnot => ?_⟩
    rw [hsource] at hnot
    cases hnot
  · refine ⟨rfl, rfl, rfl, hvalid, fun hsource => ?_, fun _ => ⟨feeder, above, hf, hfind, rfl⟩⟩
    rw [hnot] at hsource
    cases hsource

/-- An incomplete block is left out for what it lacks. -/
theorem entry_of_invalid {error : ValidationError} (h : block.config.validate = .error error) :
    plan.entry g block = .error error.message := by
  rw [entry_eq, h]

/-- A complete load block is planned. -/
theorem entry_of_source (hvalid : block.config.validate = .ok ())
    (hsource : block.kind.isSource = true) : ∃ planned, plan.entry g block = .ok planned := by
  rw [entry_eq, hvalid]
  simp only [hsource, if_true]
  exact ⟨_, rfl⟩

/-- A complete block is planned if the one that feeds it is. -/
theorem entry_of_fed (hvalid : block.config.validate = .ok ()) {feeder : BlockId}
    (hf : g.Feeds feeder block.id) {above : PlannedBlock} (hfind : plan.find? feeder = some above) :
    ∃ planned, plan.entry g block = .ok planned := by
  rw [entry_eq, hvalid]
  by_cases hsource : block.kind.isSource = true
  · simp only [hsource, if_true]
    exact ⟨_, rfl⟩
  · have hinput : g.inputOf block.id = some feeder := hf
    simp only [hsource, hinput, hfind]
    exact ⟨_, rfl⟩

/-- A block is left out if the one that feeds it is. -/
theorem entry_of_left_out {feeder : BlockId} (hkind : block.kind.isSource = false)
    (hf : g.Feeds feeder block.id) (hfind : plan.find? feeder = none) :
    ∃ reason, plan.entry g block = .error reason := by
  cases hentry : plan.entry g block with
  | error reason => exact ⟨reason, rfl⟩
  | ok planned =>
    obtain ⟨feeder', above, hf', habove, -⟩ := (entry_eq_ok hentry).fed hkind
    obtain rfl := Graph.feeder_unique hf hf'
    rw [hfind] at habove
    cases habove

/-! ## All entries -/

/-- What the plan says of the block is what the plan itself makes of it. -/
def Settles (plan : Plan) (g : Graph) (block : Block) : Prop :=
  match plan.entry g block with
  | .ok planned => plan.find? block.id = some planned
  | .error reason => plan.find? block.id = none ∧ ⟨block.id, reason⟩ ∈ plan.skipped

theorem Settles.of_ok (h : plan.Settles g block) (hentry : plan.entry g block = .ok planned) :
    plan.find? block.id = some planned := by
  unfold Settles at h
  rwa [hentry] at h

theorem Settles.of_error (h : plan.Settles g block) {reason : String}
    (hentry : plan.entry g block = .error reason) :
    plan.find? block.id = none ∧ ⟨block.id, reason⟩ ∈ plan.skipped := by
  unfold Settles at h
  rwa [hentry] at h

theorem Settles.entry_eq_ok (h : plan.Settles g block)
    (hfind : plan.find? block.id = some planned) : plan.entry g block = .ok planned := by
  cases hentry : plan.entry g block with
  | ok found => rw [Option.some.inj ((h.of_ok hentry).symm.trans hfind)]
  | error reason =>
    rw [(h.of_error hentry).1] at hfind
    cases hfind

/-- The plan says of these blocks what is to be said, and nothing of others. -/
structure Covers (plan : Plan) (g : Graph) (done : List BlockId) : Prop where
  once : (plan.blocks.map PlannedBlock.id).Nodup
  within : ∀ planned ∈ plan.blocks, planned.id ∈ done
  closed : ∀ id ∈ done, ∀ feeder, g.Feeds feeder id → feeder ∈ done
  settles : ∀ block, g.find? block.id = some block → block.id ∈ done → plan.Settles g block

/-- If no key has two items, the item found under a key is the one that has it. -/
theorem find?_key_eq_some_iff {α : Type} {key : α → BlockId} {items : List α}
    (h : (items.map key).Nodup) {item : α} :
    items.find? (key · == id) = some item ↔ item ∈ items ∧ key item = id := by
  constructor
  · intro hfind
    exact ⟨List.mem_of_find?_eq_some hfind, by simpa using List.find?_some hfind⟩
  · rintro ⟨hmem, rfl⟩
    obtain ⟨found, hfound⟩ := Option.isSome_iff_exists.1
      (List.find?_isSome (p := (key · == key item)).2 ⟨item, hmem, beq_self_eq_true (key item)⟩)
    have hkey : key found = key item := by simpa using List.find?_some hfound
    rw [hfound, List.inj_on_of_nodup_map h (List.mem_of_find?_eq_some hfound) hmem hkey]

theorem find?_eq_some_iff (h : (plan.blocks.map PlannedBlock.id).Nodup) :
    plan.find? id = some planned ↔ planned ∈ plan.blocks ∧ planned.id = id :=
  find?_key_eq_some_iff h

theorem find?_eq_none_iff : plan.find? id = none ↔ id ∉ plan.blocks.map PlannedBlock.id := by
  simp [find?, List.find?_eq_none]

/-- Settled entries stay settled when only entries of other blocks are added. -/
theorem Settles.mono (h : plan.Settles g block)
    (hfeeder : ∀ feeder, g.Feeds feeder block.id → plan'.find? feeder = plan.find? feeder)
    (hself : plan'.find? block.id = plan.find? block.id) (hskipped : plan.skipped ⊆ plan'.skipped) :
    plan'.Settles g block := by
  unfold Settles
  rw [entry_congr hfeeder, hself]
  cases hentry : plan.entry g block with
  | ok planned => exact h.of_ok hentry
  | error reason =>
    obtain ⟨hnone, hmem⟩ := h.of_error hentry
    exact ⟨hnone, hskipped hmem⟩

theorem find?_append (plan : Plan) (planned : PlannedBlock) (id : BlockId) :
    Plan.find? ⟨plan.blocks ++ [planned], plan.skipped⟩ id =
      (plan.find? id).or (if planned.id = id then some planned else none) := by
  unfold find?
  rw [List.find?_append, List.find?_singleton]
  simp only [beq_iff_eq]

/-- A plan that says of one more block what is to be said of it, and keeps what it says of others. -/
theorem Covers.settles_cons {done : List BlockId} (h : plan.Covers g done)
    (hfind : g.find? block.id = some block)
    (hfed : ∀ feeder, g.Feeds feeder block.id → feeder ∈ done)
    (hsame : ∀ other ∈ done, plan'.find? other = plan.find? other)
    (hskipped : plan.skipped ⊆ plan'.skipped)
    (hself : match plan.entry g block with
      | .ok planned => plan'.find? block.id = some planned
      | .error reason => plan'.find? block.id = none ∧ ⟨block.id, reason⟩ ∈ plan'.skipped) :
    ∀ other, g.find? other.id = some other → other.id ∈ block.id :: done → plan'.Settles g other := by
  intro other hother hmem
  rcases List.mem_cons.1 hmem with hid | hmem
  · obtain rfl := Option.some.inj ((hid ▸ hother).symm.trans hfind)
    unfold Settles
    rw [entry_congr fun feeder hf => hsame feeder (hfed feeder hf)]
    exact hself
  · exact (h.settles other hother hmem).mono
      (fun feeder hf => hsame feeder (h.closed _ hmem feeder hf)) (hsame _ hmem) hskipped

/-- One more block is planned, all blocks that feed it being planned already. -/
theorem Covers.extend (hwf : g.WellFormed) {done : List BlockId} (h : plan.Covers g done)
    (hfind : g.find? id = some block) (hnew : id ∉ done)
    (hfed : ∀ feeder, g.Feeds feeder id → feeder ∈ done) :
    (plan.extend g id).Covers g (id :: done) := by
  obtain rfl := hwf.id_of_find? hfind
  have hnone : block.id ∉ plan.blocks.map PlannedBlock.id := fun hmem => by
    obtain ⟨planned, hplanned, hid⟩ := List.mem_map.1 hmem
    exact hnew (hid ▸ h.within planned hplanned)
  have hwithin : ∀ planned ∈ plan.blocks, planned.id ∈ block.id :: done :=
    fun planned hplanned => List.mem_cons_of_mem _ (h.within planned hplanned)
  have hclosed : ∀ id ∈ block.id :: done, ∀ feeder, g.Feeds feeder id → feeder ∈ block.id :: done := by
    intro id hid feeder hf
    rcases List.mem_cons.1 hid with rfl | hid
    · exact List.mem_cons_of_mem _ (hfed feeder hf)
    · exact List.mem_cons_of_mem _ (h.closed id hid feeder hf)
  unfold Plan.extend
  rw [hfind]
  simp only
  cases hentry : plan.entry g block with
  | ok planned =>
    have hid : planned.id = block.id := (entry_eq_ok hentry).id_eq
    refine ⟨?_, fun other hother => ?_, hclosed,
      h.settles_cons hfind hfed (fun other hother => ?_) (fun _ h => h) ?_⟩
    · rw [List.map_append, List.map_singleton, hid]
      refine h.once.append (List.nodup_singleton _) fun other hother hsame => ?_
      exact hnone (List.mem_singleton.1 hsame ▸ hother)
    · rcases List.mem_append.1 hother with hother | hother
      · exact hwithin other hother
      · rw [List.mem_singleton.1 hother, hid]
        exact List.mem_cons_self
    · -- entries of other blocks are found as before
      have hne : planned.id ≠ other := fun hsame => hnew (by rwa [← hid, hsame])
      rw [find?_append, if_neg hne, Option.or_none]
    · rw [hentry]
      simp only
      rw [find?_append, find?_eq_none_iff.2 hnone, if_pos hid, Option.none_or]
  | error reason =>
    refine ⟨h.once, hwithin, hclosed,
      h.settles_cons hfind hfed (fun _ _ => rfl) (List.subset_append_left _ _) ?_⟩
    rw [hentry]
    exact ⟨find?_eq_none_iff.2 hnone, List.mem_append_right _ (List.mem_singleton_self _)⟩

theorem Covers.extend_all (hwf : g.WellFormed) {done order : List BlockId} (h : plan.Covers g done)
    (hfollows : g.Follows done order) (hnodup : order.Nodup) (hnew : ∀ id ∈ order, id ∉ done)
    (hids : order ⊆ g.ids) : (order.foldl (Plan.extend g) plan).Covers g (order.reverse ++ done) := by
  induction order generalizing plan done with
  | nil => exact h
  | cons id rest ih =>
    obtain ⟨block, hfind⟩ := hwf.mem_ids_iff.1 (hids List.mem_cons_self)
    have hnext := h.extend hwf hfind (hnew id List.mem_cons_self) hfollows.1
    rw [List.reverse_cons, List.append_assoc]
    exact ih hnext hfollows.2 (List.nodup_cons.1 hnodup).2 (Graph.not_mem_cons_of_new hnodup hnew)
      fun other hother => hids (List.mem_cons_of_mem _ hother)

/-- The plan of a graph says of all its blocks what the plan itself makes of them. -/
theorem ofGraph_covers (h : g.WellFormed) : (ofGraph g).Covers g g.ids := by
  have hordered := Graph.topologicalOrder_ordered h
  have hempty : Plan.Covers ⟨[], []⟩ g [] :=
    ⟨List.nodup_nil, by simp, by simp, fun _ _ hmem => by cases hmem⟩
  have hcovers : (ofGraph g).Covers g (g.topologicalOrder.reverse ++ []) :=
    hempty.extend_all h hordered.follows hordered.nodup (by simp) hordered.subset
  have hdone : ∀ id, id ∈ g.topologicalOrder.reverse ++ [] ↔ id ∈ g.ids := fun id => by
    rw [List.append_nil, List.mem_reverse, Graph.mem_topologicalOrder h]
  exact ⟨hcovers.once, fun planned hmem => (hdone _).1 (hcovers.within planned hmem),
    fun id _ feeder hf => h.feeder_mem hf,
    fun block hfind hmem => hcovers.settles block hfind ((hdone _).2 hmem)⟩

end BlockPipeline.Plan

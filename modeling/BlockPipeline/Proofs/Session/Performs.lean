import BlockPipeline.Proofs.Run.Issued
import BlockPipeline.Proofs.Session.History
import BlockPipeline.Proofs.Session.Outputs

set_option autoImplicit false

/-! # Events on an engine

An event leads from one session and state of an engine to others by calls. Each of these calls is made
for a block that is run or removed in the event (`Performs.segmented`), and they account for all that
has become of the engine (`Performs.noted`). A call that is made for a block makes and removes nothing
but the table of the block (`Issues.serves`). -/

namespace BlockPipeline

variable {σ : Type} {engine : Engine σ} {config : RunConfig} {s s' : Session} {state state' : σ}
  {id : BlockId} {block : Block}

/-! ## Removing a block -/

/-- The statement that removes the table of a removed block, if one is issued. -/
def RunConfig.drop? (config : RunConfig) (block : Block) : Option String :=
  block.outputTable.bind fun table =>
    if config.dropOnRemove && !(Sql.drop block.kind table).isBlank then
      some (Sql.drop block.kind table).text
    else none

theorem Engine.removeBlock_eq (engine : Engine σ) (config : RunConfig) (s : Session) (state : σ)
    (id : BlockId) : engine.removeBlock config s state id = (fun (s', block) =>
      (s', ((config.drop? block).elim state fun sql => (engine.execute sql state).2), block)) <$>
        s.remove id := by
  unfold removeBlock RunConfig.drop?
  cases s.remove id with
  | error error => rfl
  | ok removed =>
    obtain ⟨after, block⟩ := removed
    show _ = Except.ok _
    simp only [bind, Except.bind]
    cases block.outputTable with
    | none => rfl
    | some table =>
      simp only [Option.bind_some]
      split <;> rfl

theorem Engine.removeBlock_of_remove (engine : Engine σ) (config : RunConfig) (state : σ)
    (hremove : s.remove id = .ok (s', block)) : engine.removeBlock config s state id =
      .ok (s', (config.drop? block).elim state fun sql => (engine.execute sql state).2, block) := by
  rw [removeBlock_eq, hremove]
  rfl

theorem Session.state_of_removeBlock
    (h : engine.removeBlock config s state id = .ok (s', state', block)) :
    state' = (config.drop? block).elim state fun sql => (engine.execute sql state).2 := by
  have hmade := h.symm.trans (engine.removeBlock_of_remove config state (remove_of_removeBlock h))
  exact congrArg (fun made : Session × σ × Block => made.2.1) (Except.ok.inj hmade)

theorem Graph.mem_ids_of_mem_remove {g : Graph} {other : BlockId} (h : other ∈ (g.remove id).1.ids) :
    other ∈ g.ids := by
  unfold remove at h
  split at h
  · exact h
  · exact List.mem_of_mem_filter h

theorem Session.find?_of_remove (h : s.remove id = .ok (s', block)) :
    s.graph.find? id = some block := by
  unfold Session.remove Graph.remove at h
  cases hfind : s.graph.find? id with
  | none =>
    rw [hfind] at h
    cases h
  | some found =>
    rw [hfind] at h
    obtain ⟨-, rfl⟩ := Prod.mk.inj (Except.ok.inj h)
    rfl

/-- A block at rest has made no table but its own, so no other is removed with it. -/
theorem Block.Rested.issued_drop? {sql : String} (h : block.Rested)
    (hdrop : config.drop? block = some sql) : Issued block.id block.kind (.execute sql) := by
  obtain ⟨table, htable, hsql⟩ := Option.bind_eq_some_iff.1 hdrop
  split_ifs at hsql with hwanted
  obtain rfl := Option.some.inj hsql
  have hkind : block.kind ≠ .load := by
    intro hload
    rw [hload] at hwanted
    simp [Sql.drop, BlockKind.isSource, Sql.Statement.isBlank, Sql.Statement.chars] at hwanted
  rw [h.derived hkind table htable]
  exact .drop hkind

/-! ## Events on an engine -/

namespace Session

/-- The blocks that are run or removed in an event, in order. -/
def Event.handled : Event → List BlockId
  | .edit _ => []
  | .run visits => visits.ran
  | .removeBlock id => [id]

/-- An event leads on the engine from one session and state to others, by these calls. The calls are
    noted on the way, which has no influence on the event. What fails for want of a block is no
    event, since it changes nothing and makes no call. -/
inductive Performs (engine : Engine σ) : Session → σ → Event → Transcript → Session → σ → Prop where
  | edit {s : Session} {state : σ} (edit : Edit) (fresh : edit.Fresh s) :
    Performs engine s state (.edit edit) [] (edit.apply s) state
  | run {s : Session} {state : σ} {config : RunConfig} {p : Progress (σ × Transcript)}
    (ran : engine.transcribing.Ran config s (state, []) p) :
    Performs engine s state (.run p.visits) p.engineState.2 p.session p.engineState.1
  | removeBlock {s s' : Session} {state state' : σ} {config : RunConfig} {id : BlockId}
    {block : Block} {calls : Transcript}
    (removed : engine.transcribing.removeBlock config s (state, []) id =
      .ok (s', (state', calls), block)) : Performs engine s state (.removeBlock id) calls s' state'

variable {event : Event} {calls : Transcript}

namespace Performs

theorem happens (h : Performs engine s state event calls s' state') : Happens s event s' := by
  cases h with
  | edit edit fresh => exact .edit edit fresh
  | run ran => exact .run ran
  | removeBlock removed => exact .removeBlock removed

/-- The calls of a removal. -/
theorem of_removed {config : RunConfig}
    (h : engine.transcribing.removeBlock config s (state, []) id = .ok (s', (state', calls), block)) :
    s.remove id = .ok (s', block) ∧ ((state', calls) = (state, []) ∨
      ∃ sql, config.drop? block = some sql ∧
        (state', calls) = (engine.transcribing.execute sql (state, [])).2) := by
  refine ⟨remove_of_removeBlock h, ?_⟩
  have hstate := state_of_removeBlock h
  cases hdrop : config.drop? block with
  | none =>
    rw [hdrop] at hstate
    exact .inl hstate
  | some sql =>
    rw [hdrop] at hstate
    exact .inr ⟨sql, rfl, hstate⟩

/-- The calls account for what has become of the engine. -/
theorem noted (h : Performs engine s state event calls s' state') (hwf : s.graph.WellFormed) :
    engine.Noted state (state', calls) := by
  cases h with
  | edit edit fresh => exact engine.noted_nil state
  | run ran =>
    obtain ⟨entry, hsteps⟩ := ran.steps hwf
    exact Engine.Steps.keeps (engine.transcribing_keeps state) hsteps (engine.noted_nil state)
  | removeBlock removed =>
    rcases (of_removed removed).2 with hnone | ⟨sql, -, hsome⟩
    · rw [hnone]
      exact engine.noted_nil state
    · rw [hsome]
      exact (engine.transcribing_keeps state).execute sql _ (engine.noted_nil state)

/-- The calls are made for the blocks that are run or removed, one after the other. -/
theorem segmented (h : Performs engine s state event calls s' state') (hs : s.Reachable) :
    calls.Segmented s.Issues event.handled := by
  cases h with
  | edit edit fresh => exact ⟨[], rfl, .nil⟩
  | run ran =>
    obtain ⟨entry, hsteps⟩ := ran.steps hs.wellFormed
    obtain ⟨turns, hturns⟩ := Engine.Steps.conducted hs.wellFormed rfl rfl hsteps
    exact hturns.segmented hs.wellFormed
  | @removeBlock _ _ _ config id block _ removed =>
    refine ⟨[calls], (List.append_nil calls).symm, .cons (fun exchange hmem => ?_) .nil⟩
    obtain ⟨hremove, hcalls⟩ := of_removed removed
    have hfind := find?_of_remove hremove
    rcases hcalls with hnone | ⟨sql, hdrop, hsome⟩
    · rw [(Prod.mk.inj hnone).2] at hmem
      cases hmem
    · have hsegment : calls = [⟨.execute sql, _⟩] := (Prod.mk.inj hsome).2
      rw [hsegment, List.mem_singleton] at hmem
      have hissued := (hs.atRest.rested id block hfind).issued_drop? hdrop
      rw [hs.wellFormed.id_of_find? hfind] at hissued
      rw [hmem]
      exact ⟨block, hfind, hissued⟩

end Performs

/-! ## What a call may make -/

/-- A call that makes or removes nothing but the table of the block, and this as the object that blocks
    of its kind make. -/
inductive Serves (s : Session) (id : BlockId) : Call → Prop where
  | describe (table : TableName) : Serves s id (.describe table)
  | query {sql : String} (query : Sql.IsQuery sql) : Serves s id (.execute sql)
  | own {sql : String} {block : Block} (found : s.graph.find? id = some block)
    (one : Sql.statements sql = [sql])
    (target : Sql.target? sql = some ⟨block.kind.object, .derived id⟩) : Serves s id (.execute sql)

theorem Issues.serves {call : Call} (h : s.Issues id call) : s.Serves id call := by
  obtain ⟨block, hfind, hissued⟩ := h
  generalize hkind : block.kind = kind at hissued
  cases hissued with
  | describe table => exact .describe table
  | preview table limit => exact .query (Sql.isQuery_preview table limit)
  | countRows table => exact .query (Sql.isQuery_countRows table)
  | make input kind_eq derived =>
    subst kind_eq
    refine .own hfind (Sql.statements_compile derived _ _) ?_
    rw [hkind, Sql.target?_compile derived]
  | drop derived =>
    refine .own hfind (Sql.statements_drop derived _) ?_
    rw [hkind, Sql.target?_drop derived]

end Session

end BlockPipeline

import BlockPipeline.Proofs.Session.Performs

set_option autoImplicit false

/-! # What a removal takes away

A removal takes a block out of the graph, with the connections that touch it, and its result out of the
results. What the graph tells of order and connections afterwards is what it told before, less the block
(`Graph.ids_remove`, `Graph.links_remove`, `Graph.inputOf_remove`, `Graph.connections_remove`), and
`Session.Removed` says so of a whole session. The engine is called only when the block is gone from the
session, once at most, and its answer is not looked at (`Engine.transcribing_removeBlock`). -/

namespace BlockPipeline

variable {id other a b : BlockId} {block : Block}

/-- The connection does not touch the block. -/
def Connection.Spares (link : Connection) (id : BlockId) : Prop := link.source ≠ id ∧ link.target ≠ id

instance (link : Connection) (id : BlockId) : Decidable (link.Spares id) :=
  inferInstanceAs (Decidable (link.source ≠ id ∧ link.target ≠ id))

namespace Graph

variable {g : Graph}

/-! ## A graph less a block -/

theorem remove_eq_self (hfind : g.find? id = none) : g.remove id = (g, none) := by
  rw [remove, hfind]

theorem ids_remove (h : g.WellFormed) (id : BlockId) :
    (g.remove id).1.ids = g.ids.filter (· ≠ id) := by
  cases hfind : g.find? id with
  | none =>
    rw [remove_eq_self hfind, eq_comm, List.filter_eq_self]
    rintro other hother
    refine decide_eq_true ?_
    rintro rfl
    obtain ⟨block, hsome⟩ := h.mem_ids_iff.1 hother
    cases hfind.symm.trans hsome
  | some block => rw [remove, hfind]

/-- Connections join blocks that are there, so none touches a block that is not. -/
theorem links_remove (h : g.WellFormed) (id : BlockId) :
    (g.remove id).1.links = g.links.filter (·.Spares id) := by
  cases hfind : g.find? id with
  | none =>
    have hmissing : id ∉ g.ids := by
      rw [h.mem_ids_iff, hfind]
      simp
    rw [remove_eq_self hfind, eq_comm, List.filter_eq_self]
    intro link hlink
    obtain ⟨hsource, htarget⟩ := h.ends_mem link hlink
    exact decide_eq_true
      ⟨ne_of_mem_of_not_mem hsource hmissing, ne_of_mem_of_not_mem htarget hmissing⟩
  | some block =>
    rw [remove, hfind]
    rfl

theorem feeds_remove (h : g.WellFormed) :
    (g.remove id).1.Feeds a b ↔ g.Feeds a b ∧ a ≠ id ∧ b ≠ id := by
  rw [(h.remove id).feeds_iff, h.feeds_iff, links_remove h, List.mem_filter, decide_eq_true_iff]
  rfl

/-- What the block fed has lost its input, and nothing else has. -/
theorem inputOf_remove (h : g.WellFormed) (id other : BlockId) : (g.remove id).1.inputOf other =
    if other = id then none else (g.inputOf other).filter (· ≠ id) := by
  refine Option.ext fun feeder => (feeds_remove h).trans ?_
  by_cases hsame : other = id
  · simp [hsame]
  · rw [if_neg hsame, Option.filter_eq_some_iff, decide_eq_true_iff]
    exact and_congr_right fun _ => and_iff_left hsame

theorem connections_remove (h : g.WellFormed) (id : BlockId) :
    (g.remove id).1.connections = g.connections.filter (·.Spares id) := by
  rw [connections, connections, ids_remove h, List.filterMap_filter, List.filter_filterMap]
  refine List.filterMap_congr fun target _ => ?_
  rw [inputOf_remove h]
  cases g.inputOf target with
  | none => simp
  | some source =>
    -- of a connection into another block the source decides
    by_cases hsame : target = id
    · simp [hsame, Option.filter, Connection.Spares]
    · simp [hsame, Option.filter, Connection.Spares, apply_ite (Option.map _)]

end Graph

/-! ## A session less a block -/

variable {σ : Type} {s s' : Session}

namespace Session

/-- The block is gone from the session with its connections and its result, and all else is as it was. -/
structure Removed (s : Session) (id : BlockId) (block : Block) (s' : Session) : Prop where
  /-- What is removed is the block of the identifier. -/
  former : s.graph.find? id = some block
  gone : s'.graph.find? id = none
  others : ∀ other, other ≠ id → s'.graph.find? other = s.graph.find? other
  ids : s'.graph.ids = s.graph.ids.filter (· ≠ id)
  /-- The connections in the order in which they were made. -/
  links : s'.graph.links = s.graph.links.filter (·.Spares id)
  connections : s'.graph.connections = s.graph.connections.filter (·.Spares id)
  /-- A block that another one feeds loses its input only with that one. -/
  inputs : ∀ other, other ≠ id → s'.graph.inputOf other = (s.graph.inputOf other).filter (· ≠ id)
  resultGone : s'.results.find? id = none
  results : ∀ other, other ≠ id → s'.results.find? other = s.results.find? other
  metadata : s'.metadata = s.metadata
  policy : s'.policy = s.policy

theorem remove_eq_error (hfind : s.graph.find? id = none) :
    s.remove id = .error (.blockNotFound id) := by
  rw [remove, Graph.remove_eq_self hfind]
  rfl

theorem exists_remove (hwf : s.graph.WellFormed) (hfind : s.graph.find? id = some block) :
    ∃ s', s.remove id = .ok (s', block) ∧ Removed s id block s' := by
  have hremove : s.graph.remove id = ((s.graph.remove id).1, some block) := by
    rw [Graph.remove, hfind]
  refine ⟨{ s with graph := (s.graph.remove id).1, results := s.results.remove id }, ?_,
    { former := hfind
      gone := by rw [Graph.find?_remove, if_pos rfl]
      others := fun other hne => by rw [Graph.find?_remove, if_neg hne]
      ids := Graph.ids_remove hwf id
      links := Graph.links_remove hwf id
      connections := Graph.connections_remove hwf id
      inputs := fun other hne => by rw [Graph.inputOf_remove hwf, if_neg hne]
      resultGone := Assoc.find?_erase_self id s.results
      results := fun other hne => Assoc.find?_erase_of_ne hne s.results
      metadata := rfl
      policy := rfl }⟩
  rw [remove, hremove]
  rfl

end Session

/-! ## The engine at a removal -/

/-- The session and the engine after a removal. One that fails leaves them as they were. -/
def Engine.settledRemoval (engine : Engine σ) (config : RunConfig) (s : Session) (state : σ)
    (id : BlockId) : Session × σ :=
  settled (s, state) ((fun (s', state', _) => (s', state')) <$> engine.removeBlock config s state id)

theorem Engine.removeBlock_eq_error (engine : Engine σ) (config : RunConfig) (state : σ)
    (hfind : s.graph.find? id = none) :
    engine.removeBlock config s state id = .error (.blockNotFound id) := by
  rw [removeBlock_eq, Session.remove_eq_error hfind]
  rfl

/-- The only call, if there is one, is to remove the table of the block. -/
theorem Engine.transcribing_removeBlock (engine : Engine σ) (config : RunConfig) (state : σ)
    (hremove : s.remove id = .ok (s', block)) : ∃ state' calls,
      engine.removeBlock config s state id = .ok (s', state', block) ∧
      engine.transcribing.removeBlock config s (state, []) id = .ok (s', (state', calls), block) ∧
      calls.map Exchange.call = ((config.drop? block).map Call.execute).toList := by
  rw [removeBlock_of_remove engine config state hremove, removeBlock_of_remove _ config _ hremove]
  cases config.drop? block with
  | none => exact ⟨state, [], rfl, rfl, rfl⟩
  | some sql =>
    exact ⟨(engine.execute sql state).2, [⟨.execute sql, refusal? (engine.execute sql state).1⟩],
      rfl, rfl, rfl⟩

namespace Session

/-- Without the block a removal fails, and makes no call. Otherwise it returns the block and leaves the
    session less the block, the same one for all engines, by one call at most. -/
theorem removeBlock_removed (h : s.Reachable) (id : BlockId) :
    (id ∉ s.graph.ids → ∀ (σ : Type) (engine : Engine σ) (config : RunConfig) (state : σ),
      engine.removeBlock config s state id = .error (.blockNotFound id) ∧
        engine.transcribing.settledRemoval config s (state, []) id = (s, (state, []))) ∧
    (id ∈ s.graph.ids → ∃ block s', Removed s id block s' ∧
      ∀ (σ : Type) (engine : Engine σ) (config : RunConfig) (state : σ), ∃ state' calls,
        engine.removeBlock config s state id = .ok (s', state', block) ∧
        engine.transcribing.removeBlock config s (state, []) id = .ok (s', (state', calls), block) ∧
        calls.map Exchange.call = ((config.drop? block).map Call.execute).toList ∧
        calls.length ≤ 1) := by
  have hwf := h.wellFormed
  refine ⟨fun hmissing σ engine config state => ?_, fun hmem => ?_⟩
  · have hfind := hwf.find?_eq_none hmissing
    refine ⟨engine.removeBlock_eq_error config state hfind, ?_⟩
    rw [Engine.settledRemoval, engine.transcribing.removeBlock_eq_error config (state, []) hfind]
    rfl
  · obtain ⟨block, hfind⟩ := hwf.mem_ids_iff.1 hmem
    obtain ⟨s', hremove, hremoved⟩ := exists_remove hwf hfind
    refine ⟨block, s', hremoved, fun σ engine config state => ?_⟩
    obtain ⟨state', calls, hplain, hnoted, hcalls⟩ :=
      engine.transcribing_removeBlock config state hremove
    refine ⟨state', calls, hplain, hnoted, hcalls, ?_⟩
    rw [← List.length_map Exchange.call, hcalls]
    exact Option.length_toList_le

/-- After a run of a load block and two filters in a row the first filter is removed. The engine refuses
    to remove its table. The second filter keeps its output and its result, but has no input now. -/
theorem removed_between_runs :
    let load : BlockId := ⟨1⟩
    let filter : BlockId := ⟨2⟩
    let below : BlockId := ⟨3⟩
    let edited := [Edit.addConfig load (.load { tableName := "orders" }),
      .addConfig filter (.filter { column := "amount", value := some (.text "7") }),
      .addConfig below (.filter { column := "amount", value := some (.text "9") }),
      .connect load filter, .connect filter below].foldl Edit.apply .empty
    let s := (Scripted.engine.runAll {} edited ⟨[], [], []⟩).session
    let refusing : Scripted.Script := ⟨[.error ⟨"table is locked"⟩], [], []⟩
    s.Reachable ∧ ∃ block s' script calls, Removed s filter block s' ∧
      Scripted.engine.transcribing.removeBlock {} s (refusing, []) filter =
        .ok (s', (script, calls), block) ∧
      calls.map Exchange.refusal = [some ⟨"table is locked"⟩] ∧
      s'.graph.ids = [load, below] ∧ s'.graph.connections = [] ∧
      s'.graph.inputOf below = none ∧ (s'.graph.find? below).bind Block.outputTable = some (.derived below) ∧
      s'.results.find? filter = none ∧ (s'.results.find? below).isSome = true ∧
      Scripted.engine.transcribing.settledRemoval {} s (refusing, []) ⟨4⟩ = (s, (refusing, [])) := by
  intro load filter below edited s refusing
  have hreach : s.Reachable := .runAll _ _ _ (.edits .empty (by decide +kernel))
  have hmem : filter ∈ s.graph.ids := by decide +kernel
  have hmissing : ⟨4⟩ ∉ s.graph.ids := by decide +kernel
  have hids : s.graph.ids.filter (· ≠ filter) = [load, below] := by decide +kernel
  have hconnections : s.graph.connections.filter (·.Spares filter) = [] := by decide +kernel
  have hinput : (s.graph.inputOf below).filter (· ≠ filter) = none := by decide +kernel
  have houtput : (s.graph.find? below).bind Block.outputTable = some (.derived below) := by decide +kernel
  have hresult : (s.results.find? below).isSome = true := by decide +kernel
  have hrefused : (Scripted.engine.transcribing.removeBlock {} s (refusing, []) filter).toOption.map
      (fun removed => removed.2.1.2.map Exchange.refusal) = some [some ⟨"table is locked"⟩] := by
    decide +kernel
  clear_value s refusing
  obtain ⟨block, s', hremoved, hengines⟩ := (removeBlock_removed hreach filter).2 hmem
  obtain ⟨script, calls, -, hnoted, -⟩ := hengines _ Scripted.engine {} refusing
  rw [hnoted] at hrefused
  refine ⟨hreach, block, s', script, calls, hremoved, hnoted, Option.some.inj hrefused,
    hremoved.ids.trans hids, hremoved.connections.trans hconnections,
    (hremoved.inputs below (by decide)).trans hinput, ?_, hremoved.resultGone, ?_,
    ((removeBlock_removed hreach ⟨4⟩).1 hmissing _ Scripted.engine {} refusing).2⟩
  · rw [hremoved.others below (by decide), houtput]
  · rw [hremoved.results below (by decide), hresult]

end Session

end BlockPipeline

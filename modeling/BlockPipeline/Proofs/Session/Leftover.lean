import BlockPipeline.Proofs.Engine.Replay
import BlockPipeline.Proofs.Session.Course

set_option autoImplicit false

/-! # Tables that removed blocks leave behind

With a removed block its table is removed, if the block is known to have made one. A block is known to
have made a table after a run in which the table was made and the result was fetched from it. The table
itself is there as soon as the statement that makes it has been run. So what is left in memory is the
table of a block that has been made, but in no run that went on to fetch the result (`leftover_iff`). -/

namespace BlockPipeline.Session

variable {σ : Type} {engine : Engine σ} {config : RunConfig} {s s' : Session} {state state' : σ}
  {db db' : Memory.Database} {id : BlockId} {block : Block} {event : Event} {calls : Transcript}

/-- The table that the block under the identifier is known to have made. -/
def outputOf? (s : Session) (id : BlockId) : Option TableName :=
  (s.graph.find? id).bind Block.outputTable

/-- A statement that makes the table of the block was run. -/
def Deed.Makes (deed : Deed) (id : BlockId) : Prop :=
  ∃ exchange ∈ deed.calls, exchange.Makes (.derived id)

/-! ## Known outputs -/

/-- No edit gives a block an output or takes it away, if it does not remove the block. -/
theorem Change.outputOf?_eq {configured? : Option BlockId} (h : Change s s' configured?)
    (hstays : (s.graph.find? id).isSome = true → (s'.graph.find? id).isSome = true) :
    s'.outputOf? id = s.outputOf? id := by
  unfold outputOf?
  cases h with
  | relabel label found _ =>
    rw [found]
    cases s.graph.find? id <;> rfl
  | add added new unrun found _ =>
    rw [found]
    split
    · next hsame =>
      rw [hsame, new, Option.bind_some, unrun.outputTable]
      rfl
    · rfl
  | remove removed found _ =>
    rw [found] at hstays ⊢
    split at hstays
    · next hsame =>
      rw [if_pos hsame]
      cases hfind : s.graph.find? id with
      | none => rfl
      | some block =>
        rw [hfind] at hstays
        cases hstays rfl
    · next hne => rw [if_neg hne]
  | configure other config former hformer _ self found _ =>
    by_cases hsame : id = other
    · subst hsame
      rw [self, hformer]
      rfl
    · rw [found id hsame]
      cases s.graph.find? id with
      | none => rfl
      | some block =>
        rw [Option.map_some, Option.bind_some, Option.bind_some]
        split <;> rfl

/-- After a run those blocks are known to have made a table that were known before or succeeded. -/
theorem isSome_outputOf?_of_ran {p : Progress σ} (hwf : s.graph.WellFormed)
    (hran : engine.Ran config s state p) : (p.session.outputOf? id).isSome = true ↔
      (s.outputOf? id).isSome = true ∨ ⟨id, .succeeded⟩ ∈ p.visits := by
  obtain ⟨entry, hsteps⟩ := hran.steps hwf
  have heffect := Engine.Steps.effect hwf rfl hsteps
  rw [← Visits.outcome?_eq_some_iff (Engine.Steps.recorded hsteps).nodup]
  have hsettled : p.session.graph.find? id =
      (s.graph.find? id).map fun block => block.settle (p.visits.outcome? id) := heffect.settled id
  rw [outputOf?, outputOf?, hsettled]
  by_cases hsuccess : p.visits.outcome? id = some .succeeded
  · obtain ⟨block, -, -, hfind, -⟩ := heffect.fetched id hsuccess
    have hfind : s.graph.find? id = some block := hfind
    simp [hsuccess, hfind, Block.settle, Block.succeed]
  · rw [or_iff_left hsuccess]
    cases s.graph.find? id with
    | none => rfl
    | some block =>
      cases houtcome : p.visits.outcome? id with
      | none => rfl
      | some outcome =>
        cases outcome with
        | succeeded => exact absurd houtcome hsuccess
        | failed message => rfl
        | skipped => rfl

theorem Happens.isSome_outputOf? (h : Happens s event s') (hwf : s.graph.WellFormed)
    (hwf' : s'.graph.WellFormed) (hstays : id ∈ s.graph.ids → id ∈ s'.graph.ids) :
    (s'.outputOf? id).isSome = true ↔
      (s.outputOf? id).isSome = true ∨ (⟨s, event, s'⟩ : Moment).Renews id := by
  have hfound : (s.graph.find? id).isSome = true → (s'.graph.find? id).isSome = true := by
    rw [Option.isSome_iff_exists, Option.isSome_iff_exists, ← hwf.mem_ids_iff, ← hwf'.mem_ids_iff]
    exact hstays
  cases h with
  | edit edit fresh =>
    rw [(change_of_edit hwf fresh).outputOf?_eq hfound]
    simp [Moment.Renews]
  | run ran =>
    rw [isSome_outputOf?_of_ran hwf ran]
    simp [Moment.Renews]
  | removeBlock removed =>
    rw [(change_of_remove (remove_of_removeBlock removed)).outputOf?_eq hfound]
    simp [Moment.Renews]

/-! ## Tables in memory -/

namespace Performs

/-- The calls of an event can be replayed. -/
theorem replayed (h : Performs engine s state event calls s' state') (hwf : s.graph.WellFormed) :
    engine.Replayed state calls state' := by
  cases h with
  | edit edit fresh => exact .nil
  | run ran =>
    obtain ⟨entry, hsteps⟩ := ran.steps hwf
    exact Engine.Steps.keeps (engine.transcribing_keeps_replayed state) hsteps .nil
  | removeBlock removed =>
    have hkeeps := (engine.transcribing_keeps_replayed state).execute
    rcases (of_removed removed).2 with hnone | ⟨sql, -, hsome⟩
    · obtain ⟨rfl, rfl⟩ := Prod.mk.inj hnone
      exact .nil
    · obtain ⟨rfl, rfl⟩ := Prod.mk.inj hsome
      exact hkeeps sql (state, []) .nil

/-- A table is removed only with its block. -/
theorem kept (h : Performs engine s state event calls s' state') (hs : s.Reachable)
    (hstays : id ∈ s.graph.ids → id ∈ s'.graph.ids) :
    ∀ exchange ∈ calls, ∃ other kind, Issued other kind exchange.call ∧
      (other = id → ¬ exchange.call.Removes) := by
  intro exchange hmem
  have hsegmented := h.segmented hs
  obtain ⟨other, hother, block, hfind, hissued⟩ := hsegmented.exists_mem hmem
  refine ⟨other, block.kind, hissued, ?_⟩
  cases h with
  | edit edit fresh => cases hmem
  | run ran =>
    obtain ⟨entry, hsteps⟩ := ran.steps hs.wellFormed
    obtain ⟨turns, hturns⟩ := Engine.Steps.conducted hs.wellFormed rfl rfl hsteps
    exact fun _ => hturns.not_removes exchange hmem
  | @removeBlock _ _ _ config removedId removedBlock _ removed =>
    rintro rfl
    obtain rfl := List.mem_singleton.1 hother
    have hwf' := (Happens.removeBlock removed).reachable hs |>.wellFormed
    obtain ⟨still, hstill⟩ := hwf'.mem_ids_iff.1 (hstays (hs.wellFormed.mem_ids_iff.2 ⟨block, hfind⟩))
    rw [(remove_eq_ok (remove_of_removeBlock removed)).1, Graph.find?_remove, if_pos rfl] at hstill
    cases hstill

/-- After an event that does not remove the block its table is there if it was there before or was made
    in the event. -/
theorem isSome_table? (h : Performs Memory.engine s db event calls s' db') (hs : s.Reachable)
    (hstays : id ∈ s.graph.ids → id ∈ s'.graph.ids) :
    (db'.table? (TableName.derived id).text).isSome = true ↔
      (db.table? (TableName.derived id).text).isSome = true ∨
        ∃ exchange ∈ calls, exchange.Makes (.derived id) :=
  Memory.isSome_table?_of_replayed (h.replayed hs.wellFormed) (h.kept hs hstays)

end Performs

/-! ## Whole courses -/

namespace Course

variable {outside : σ → σ → Prop} {start : Session} {now : σ} {deeds : List Deed}

/-- A block that is there at the end has never been taken away. -/
theorem stays (h : Course engine outside start state deeds s now) (hid : id ∈ s.graph.ids) :
    ∀ deed ∈ deeds, id ∈ deed.before.graph.ids → id ∈ deed.after.graph.ids := by
  induction h with
  | start => exact List.forall_mem_nil _
  | @next deeds s s' now now' event calls past performed new ih =>
    rw [List.forall_mem_append, List.forall_mem_singleton]
    refine ⟨fun deed hdeed hbefore => ?_, fun _ => hid⟩
    by_cases hpast : id ∈ s.graph.ids
    · exact ih hpast deed hdeed hbefore
    · exact absurd hbefore (new id hid hpast deed.before (past.performed deed hdeed).1)
  | outside past change ih => exact ih hid

/-- A block that has not been taken away is known to have made a table if it was known at the start or
    has succeeded since. -/
theorem isSome_outputOf? (h : Course engine outside start state deeds s now) (hstart : start.Reachable)
    (hstays : ∀ deed ∈ deeds, id ∈ deed.before.graph.ids → id ∈ deed.after.graph.ids) :
    (s.outputOf? id).isSome = true ↔
      (start.outputOf? id).isSome = true ∨ ∃ deed ∈ deeds, deed.Renews id := by
  induction h with
  | start => simp
  | @next deeds s s' now now' event calls past performed new ih =>
    rw [List.forall_mem_append, List.forall_mem_singleton] at hstays
    have hs := past.reachable hstart s past.mem_sessions
    have hs' := performed.happens.reachable hs
    rw [performed.happens.isSome_outputOf? hs.wellFormed hs'.wellFormed hstays.2, ih hstays.1]
    simp only [List.mem_append, List.mem_singleton, or_and_right, exists_or, exists_eq_left, or_assoc]
  | outside past change ih => exact ih hstays

/-- The table of a block that has not been taken away is there if it was there at the start or has been
    made since. -/
theorem isSome_table? {outside : Memory.Database → Memory.Database → Prop}
    (h : Course Memory.engine outside start db deeds s db') (hstart : start.Reachable)
    (houtside : ∀ db db', outside db db' →
      db'.table? (TableName.derived id).text = db.table? (TableName.derived id).text)
    (hstays : ∀ deed ∈ deeds, id ∈ deed.before.graph.ids → id ∈ deed.after.graph.ids) :
    (db'.table? (TableName.derived id).text).isSome = true ↔
      (db.table? (TableName.derived id).text).isSome = true ∨ ∃ deed ∈ deeds, deed.Makes id := by
  induction h with
  | start => simp
  | @next deeds s s' now now' event calls past performed new ih =>
    rw [List.forall_mem_append, List.forall_mem_singleton] at hstays
    have hs := past.reachable hstart s past.mem_sessions
    rw [performed.isSome_table? hs hstays.2, ih hstays.1]
    simp only [Deed.Makes, List.mem_append, List.mem_singleton, or_and_right, exists_or,
      exists_eq_left, or_assoc]
  | outside past change ih => rw [houtside _ _ change, ih hstays]

/-- Only of blocks that are no load blocks tables are ever made. -/
theorem kind_ne_load (h : Course engine outside start state deeds s now) (hstart : start.Reachable)
    (hfind : s.graph.find? id = some block) {deed : Deed} (hdeed : deed ∈ deeds)
    (hmakes : deed.Makes id) : block.kind ≠ .load := by
  obtain ⟨exchange, hexchange, hmade⟩ := hmakes
  obtain ⟨other, -, former, hformer, hissued⟩ := (h.segmented hstart deed hdeed).exists_mem hexchange
  obtain ⟨hkind, rfl⟩ := hissued.eq_of_makes hmade
  rwa [← h.sameKinds hstart deed.before (h.performed deed hdeed).1 s h.mem_sessions other former block
    hformer hfind]

end Course

/-! ## Removing a block -/

theorem drop?_of_load (hkind : block.kind = .load) : config.drop? block = none := by
  unfold RunConfig.drop?
  cases block.outputTable with
  | none => rfl
  | some table =>
    rw [hkind, Option.bind_some, if_neg]
    simp [Sql.drop, BlockKind.isSource, Sql.Statement.isBlank, Sql.Statement.chars]

theorem drop?_of_output {table : TableName} (hwanted : config.dropOnRemove = true)
    (hkind : block.kind ≠ .load) (htable : block.outputTable = some table) :
    config.drop? block = some (Sql.drop block.kind table).text := by
  have hblank : (Sql.drop block.kind table).isBlank = false := by
    rw [Sql.drop_eq hkind]
    rfl
  simp only [RunConfig.drop?, htable, Option.bind_some, hwanted, hblank, Bool.not_false,
    Bool.and_self, if_true]

/-- If no call of a removal is refused, the table of the block is there afterwards if it was there before
    and the block was not known to have made it. -/
theorem isSome_table?_of_removed (hs : s.Reachable) (hwanted : config.dropOnRemove = true)
    (hremoved : Memory.engine.transcribing.removeBlock config s (db, []) id =
      .ok (s', (db', calls), block)) (haccepted : Accepted calls) (hkind : block.kind ≠ .load) :
    (db'.table? (TableName.derived id).text).isSome = true ↔
      (db.table? (TableName.derived id).text).isSome = true ∧ s.outputOf? id = none := by
  have hfind := find?_of_remove (remove_of_removeBlock hremoved)
  have hid := hs.wellFormed.id_of_find? hfind
  have hstate := state_of_removeBlock hremoved
  rw [outputOf?, hfind, Option.bind_some]
  cases houtput : block.outputTable with
  | none =>
    rw [RunConfig.drop?, houtput] at hstate
    obtain ⟨rfl, -⟩ := Prod.mk.inj hstate
    simp
  | some table =>
    obtain rfl := (hs.atRest.rested id block hfind).derived hkind table houtput
    rw [drop?_of_output hwanted hkind houtput, hid] at hstate
    have hdropped : db' = (Memory.engine.execute (Sql.drop block.kind (.derived id)).text db).2 :=
      congrArg Prod.fst hstate
    have hcalls : calls = [⟨.execute (Sql.drop block.kind (.derived id)).text,
        refusal? (Memory.engine.execute (Sql.drop block.kind (.derived id)).text db).1⟩] :=
      congrArg Prod.snd hstate
    rw [hcalls, Accepted, List.forall_mem_singleton] at haccepted
    rw [hdropped, Memory.table?_execute_drop hkind id db haccepted]
    simp

/-- Whatever is done to a session and to an engine in memory: when a block is removed, and its table with
    it unless the engine refuses that, the table is left behind if no run of the block has succeeded,
    here or before the start. A table that was not there at first and that nothing else has made is
    left behind just when a run has made it and none has succeeded. -/
theorem leftover_iff {start : Session} (h : start.Reachable)
    {outside : Memory.Database → Memory.Database → Prop} {now now' : Memory.Database}
    {deeds : List Deed} (hcourse : Course Memory.engine outside start db deeds s now)
    (hwanted : config.dropOnRemove = true)
    (hremoved : Memory.engine.transcribing.removeBlock config s (now, []) id =
      .ok (s', (now', calls), block)) (haccepted : Accepted calls) :
    (block.kind ≠ .load → ((now'.table? (TableName.derived id).text).isSome = true ↔
      (now.table? (TableName.derived id).text).isSome = true ∧ start.outputOf? id = none ∧
        ∀ deed ∈ deeds, ¬ deed.Renews id)) ∧
    ((∀ db db', outside db db' →
        db'.table? (TableName.derived id).text = db.table? (TableName.derived id).text) →
      db.table? (TableName.derived id).text = none →
      ((now'.table? (TableName.derived id).text).isSome = true ↔
        (∃ deed ∈ deeds, deed.Makes id) ∧ start.outputOf? id = none ∧
          ∀ deed ∈ deeds, ¬ deed.Renews id)) := by
  have hs := hcourse.reachable h s hcourse.mem_sessions
  have hfind := find?_of_remove (remove_of_removeBlock hremoved)
  have hstays := hcourse.stays (hs.wellFormed.mem_ids_iff.2 ⟨block, hfind⟩)
  have hknown : s.outputOf? id = none ↔
      start.outputOf? id = none ∧ ∀ deed ∈ deeds, ¬ deed.Renews id := by
    rw [← Option.not_isSome_iff_eq_none, hcourse.isSome_outputOf? h hstays, not_or,
      Option.not_isSome_iff_eq_none, not_exists]
    simp only [not_and]
  rw [← hknown]
  refine ⟨isSome_table?_of_removed hs hwanted hremoved haccepted, fun houtside hempty => ?_⟩
  have hmade := hcourse.isSome_table? h houtside hstays
  rw [hempty, Option.isSome_none, Bool.false_eq_true, false_or] at hmade
  rw [← hmade]
  by_cases hkind : block.kind = .load
  · -- no table has been made, and none is removed
    have hunmade : ¬ (now.table? (TableName.derived id).text).isSome = true := by
      rw [hmade]
      rintro ⟨deed, hdeed, hmakes⟩
      exact hcourse.kind_ne_load h hfind hdeed hmakes hkind
    have hsame : now' = now := by
      have hstate := state_of_removeBlock hremoved
      rw [drop?_of_load hkind] at hstate
      exact congrArg Prod.fst hstate
    rw [hsame, iff_false_intro hunmade, false_and]
  · exact isSome_table?_of_removed hs hwanted hremoved haccepted hkind

/-- A load block has run elsewhere. The database refuses to read the rows of the filter below it, after the
    table of the filter has been made. Later it refuses nothing any more, and the filter succeeds. Then the
    filter is removed, and its table with it. -/
theorem nothing_left_after_success :
    let load : BlockId := ⟨1⟩
    let filter : BlockId := ⟨2⟩
    let loaded := (Scripted.engine.runAll {} ((Edit.addConfig load
      (.load { tableName := "orders" })).apply .empty) ⟨[], [], []⟩).session
    let start := [Edit.addConfig filter (.filter { column := "amount", value := some (.text "7") }),
      .connect load filter].foldl Edit.apply loaded
    let db : Memory.Database := ⟨[("orders", ⟨[⟨"amount", "BIGINT"⟩], [[("amount", .ofNat 7)]]⟩)], [], []⟩
    let outside (before after : Memory.Database) : Prop :=
      after = before.refuse "LIMIT" "disk is full" ∨ after = before.clearRefusals
    start.Reachable ∧ ∃ deeds s now s' now' calls block,
      Course Memory.engine outside start db deeds s now ∧
      Memory.engine.transcribing.removeBlock {} s (now, []) filter = .ok (s', (now', calls), block) ∧
      Accepted calls ∧ now'.tables.map Prod.fst = ["orders"] ∧
      (now.table? (TableName.derived filter).text).isSome = true ∧
      ¬ (now'.table? (TableName.derived filter).text).isSome = true := by
  intro load filter loaded start db outside
  have hstart : start.Reachable :=
    .edits (.runAll _ _ _ (.edit _ .empty (by decide +kernel))) (by decide +kernel)
  let refusing := db.refuse "LIMIT" "disk is full"
  have hreached : ((Memory.engine.transcribing.run {} start (refusing, []) filter).toOption.bind fun p =>
      (Memory.engine.transcribing.run {} p.session (p.engineState.1.clearRefusals, [])
        filter).toOption.bind fun q =>
          (Memory.engine.transcribing.removeBlock {} q.session (q.engineState.1, [])
            filter).toOption.map fun r =>
              (p.visits, q.visits, (q.engineState.1.table? (TableName.derived filter).text).isSome,
                r.2.1.1.tables.map Prod.fst, decide (Accepted r.2.1.2))) =
      some ([⟨filter, .failed "disk is full"⟩], [⟨filter, .succeeded⟩], true, ["orders"], true) := by
    decide +kernel
  have hcourse : Course Memory.engine outside start db _ start refusing := Course.start.outside (.inl rfl)
  have hempty : db.table? (TableName.derived filter).text = none := by decide +kernel
  clear_value start db refusing
  obtain ⟨p, hfirst, hreached⟩ := Option.bind_eq_some_iff.1 hreached
  obtain ⟨q, hsecond, hreached⟩ := Option.bind_eq_some_iff.1 hreached
  obtain ⟨⟨s', ⟨now', calls⟩, block⟩, hremoval, hreached⟩ := Option.map_eq_some_iff.1 hreached
  rw [toOption_eq_some_iff] at hfirst hsecond hremoval
  simp only [Prod.mk.injEq, decide_eq_true_eq] at hreached
  obtain ⟨-, hvisits, hfound, htables, haccepted⟩ := hreached
  have hfailed := (hcourse.ran hstart.wellFormed (.one hfirst)).outside (.inr rfl)
  have hran := hfailed.ran (hfailed.wellFormed hstart) (.one hsecond)
  refine ⟨hstart, _, q.session, q.engineState.1, s', now', calls, block, hran, hremoval, haccepted,
    htables, hfound, ?_⟩
  rw [(leftover_iff hstart hran rfl hremoval haccepted).2 ?_ hempty]
  · rintro ⟨-, -, hnever⟩
    refine hnever _ (List.mem_append_right _ (List.mem_singleton_self _)) ⟨q.visits, rfl, ?_⟩
    rw [hvisits]
    exact List.mem_singleton_self _
  · rintro before after (rfl | rfl)
    · rfl
    · rfl

/-- The engine refuses to read the rows of the filter after the table of the filter has been made. So the
    filter is not known to have made a table, and when it is removed no call is made. -/
theorem left_after_refused_preview :
    let load : BlockId := ⟨1⟩
    let filter : BlockId := ⟨2⟩
    let s := [Edit.addConfig load (.load { tableName := "orders" }),
      .addConfig filter (.filter { column := "amount", value := some (.text "7") }),
      .connect load filter].foldl Edit.apply .empty
    let db : Memory.Database :=
      ⟨[("orders", ⟨[⟨"amount", "BIGINT"⟩], [[("amount", .ofNat 7)]]⟩)], [],
        [⟨"FROM temp_", "disk is full"⟩]⟩
    let p := Memory.engine.runAll {} s db
    s.Reachable ∧ db.table? (TableName.derived filter).text = none ∧
      p.visits = [⟨load, .succeeded⟩, ⟨filter, .failed "disk is full"⟩] ∧
      (Memory.engine.transcribing.removeBlock {} p.session (p.engineState, []) filter).toOption.map
        (fun removed => (removed.2.1.2, (removed.2.1.1.table? (TableName.derived filter).text).isSome)) =
          some ([], true) := by
  intro load filter s db p
  have hreach : s.Reachable := .edits .empty (by decide +kernel)
  exact ⟨hreach, by decide +kernel⟩

end BlockPipeline.Session

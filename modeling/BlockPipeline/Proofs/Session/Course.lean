import BlockPipeline.Proofs.Engine.Memory
import BlockPipeline.Proofs.Session.Performs

set_option autoImplicit false

/-! # Courses

A `Course` is what is done with a session and an engine, event after event. What a course makes or
removes in the engine is the table of the block that is being run or removed, and always as the same
kind of object (`course_confined`). Hence a table that is not called after a block of the session is
safe from all of it, which on the engine in memory means that it stays as it is. -/

namespace BlockPipeline.Session

variable {σ : Type} {engine : Engine σ} {config : RunConfig} {s s' : Session} {state : σ}
  {id : BlockId} {block : Block}

/-! ## Courses -/

/-- An event with the sessions before and after it, and the calls that were made. -/
structure Deed extends Moment where
  calls : Transcript

/-- What the statements of a deed make or remove. -/
def Deed.targets (deed : Deed) : List Sql.Target :=
  deed.calls.filterMap fun exchange => exchange.call.target?

/-- The sessions that there have been from the start on. -/
def sessions (start : Session) (deeds : List Deed) : List Session :=
  start :: deeds.map fun deed => deed.after

/-- The deeds lead from one session and state of the engine to others. In between the engine may also
    change from outside, for example when tables are ingested. Identifiers are not given out twice, so
    a block that comes into being was never there before. -/
inductive Course (engine : Engine σ) (outside : σ → σ → Prop) (start : Session) (state : σ) :
    List Deed → Session → σ → Prop where
  | start : Course engine outside start state [] start state
  | next {deeds : List Deed} {s s' : Session} {now now' : σ} {event : Event} {calls : Transcript}
    (past : Course engine outside start state deeds s now)
    (performed : Performs engine s now event calls s' now')
    (new : ∀ id ∈ s'.graph.ids, id ∉ s.graph.ids →
      ∀ former ∈ sessions start deeds, id ∉ former.graph.ids) :
    Course engine outside start state (deeds ++ [⟨⟨s, event, s'⟩, calls⟩]) s' now'
  | outside {deeds : List Deed} {s : Session} {now now' : σ}
    (past : Course engine outside start state deeds s now) (change : outside now now') :
    Course engine outside start state deeds s now'

/-! ## Kinds -/

/-- What the two sessions have under one identifier is of one kind. -/
def SameKinds (s s' : Session) : Prop :=
  ∀ id block block', s.graph.find? id = some block → s'.graph.find? id = some block' →
    block.kind = block'.kind

theorem SameKinds.symm (h : s.SameKinds s') : s'.SameKinds s :=
  fun id block block' hfind hfind' => (h id block' block hfind' hfind).symm

theorem SameKinds.refl (s : Session) : s.SameKinds s := fun id block block' hfind hfind' => by
  rw [Option.some.inj (hfind.symm.trans hfind')]

theorem sessions_append (start : Session) (deeds : List Deed) (deed : Deed) :
    sessions start (deeds ++ [deed]) = sessions start deeds ++ [deed.after] := by
  rw [sessions, List.map_append, List.map_singleton, sessions, List.cons_append]

namespace Course

variable {outside : σ → σ → Prop} {start : Session} {now : σ} {deeds : List Deed}

theorem mem_sessions (h : Course engine outside start state deeds s now) :
    s ∈ sessions start deeds := by
  induction h with
  | start => exact List.mem_cons_self
  | next past performed new ih =>
    rw [sessions_append]
    exact List.mem_append_right _ (List.mem_singleton_self _)
  | outside past change ih => exact ih

/-- All sessions that a course goes through can be reached. -/
theorem reachable (h : Course engine outside start state deeds s now) (hstart : start.Reachable) :
    ∀ former ∈ sessions start deeds, former.Reachable := by
  induction h with
  | start => exact List.forall_mem_singleton.2 hstart
  | next past performed new ih =>
    rw [sessions_append, List.forall_mem_append, List.forall_mem_singleton]
    exact ⟨ih, performed.happens.reachable (ih _ past.mem_sessions)⟩
  | outside past change ih => exact ih

/-- Each deed of a course was performed on one of its sessions. -/
theorem performed (h : Course engine outside start state deeds s now) :
    ∀ deed ∈ deeds, deed.before ∈ sessions start deeds ∧
      ∃ now now', Performs engine deed.before now deed.event deed.calls deed.after now' := by
  induction h with
  | start => exact List.forall_mem_nil _
  | next past performed new ih =>
    rw [sessions_append, List.forall_mem_append, List.forall_mem_singleton]
    exact ⟨fun deed hdeed => ⟨List.mem_append_left _ (ih deed hdeed).1, (ih deed hdeed).2⟩,
      List.mem_append_left _ past.mem_sessions, _, _, performed⟩
  | outside past change ih => exact ih

theorem wellFormed (h : Course engine outside start state deeds s now) (hstart : start.Reachable) :
    s.graph.WellFormed := (h.reachable hstart s h.mem_sessions).wellFormed

/-- A run brings in no block. -/
theorem ran {p : Progress (σ × Transcript)} (h : Course engine outside start state deeds s now)
    (hwf : s.graph.WellFormed) (ran : engine.transcribing.Ran config s (now, []) p) :
    Course engine outside start state (deeds ++ [⟨⟨s, .run p.visits, p.session⟩, p.engineState.2⟩])
      p.session p.engineState.1 := by
  obtain ⟨entry, hsteps⟩ := ran.steps hwf
  have hids : p.session.graph.ids = s.graph.ids :=
    Graph.ids_of_outline (Engine.Steps.outline_eq hsteps)
  exact h.next (.run ran) fun id hid hno => absurd (hids ▸ hid) hno

/-- Nor does a removal. -/
theorem removed {now' : σ} {calls : Transcript} (h : Course engine outside start state deeds s now)
    (removed : engine.transcribing.removeBlock config s (now, []) id = .ok (s', (now', calls), block)) :
    Course engine outside start state (deeds ++ [⟨⟨s, .removeBlock id, s'⟩, calls⟩]) s' now' := by
  refine h.next (.removeBlock removed) fun other hother hno => absurd ?_ hno
  rw [(remove_eq_ok (remove_of_removeBlock removed)).1] at hother
  exact Graph.mem_ids_of_mem_remove hother

/-- What has one identifier over a course is always of one kind. -/
theorem sameKinds (h : Course engine outside start state deeds s now) (hstart : start.Reachable) :
    ∀ former ∈ sessions start deeds, ∀ later ∈ sessions start deeds, former.SameKinds later := by
  induction h with
  | start => exact List.forall_mem_singleton.2 (List.forall_mem_singleton.2 (.refl start))
  | @next deeds s s' now now' event calls past performed new ih =>
    have hreach := past.reachable hstart
    have hwf := (hreach s past.mem_sessions).wellFormed
    have hwf' := (performed.happens.reachable (hreach s past.mem_sessions)).wellFormed
    -- a block of the last session either was there before, with its kind, or never was
    have hlast : ∀ former ∈ sessions start deeds, former.SameKinds s' := by
      intro former hformer id block block' hfind hfind'
      by_cases hid : id ∈ s.graph.ids
      · obtain ⟨kept, hkept⟩ := hwf.mem_ids_iff.1 hid
        rw [performed.happens.kind_eq hwf hkept hfind']
        exact ih former hformer s past.mem_sessions id block kept hfind hkept
      · refine absurd ((hreach former hformer).wellFormed.mem_ids_iff.2 ⟨block, hfind⟩)
          (new id (hwf'.mem_ids_iff.2 ⟨block', hfind'⟩) hid former hformer)
    simp only [sessions_append, List.forall_mem_append, List.forall_mem_singleton]
    exact ⟨fun former hformer => ⟨ih former hformer, hlast former hformer⟩,
      fun former hformer => (hlast former hformer).symm, .refl s'⟩
  | outside past change ih => exact ih

/-- The calls of a deed are made for the blocks that it runs or removes, one after the other. -/
theorem segmented (h : Course engine outside start state deeds s now) (hstart : start.Reachable) :
    ∀ deed ∈ deeds, deed.calls.Segmented deed.before.Issues deed.event.handled := by
  intro deed hdeed
  obtain ⟨hbefore, _, _, hperformed⟩ := h.performed deed hdeed
  exact hperformed.segmented (h.reachable hstart _ hbefore)

/-- A deed makes and removes nothing but tables of its blocks. -/
theorem exists_of_mem_targets (h : Course engine outside start state deeds s now)
    (hstart : start.Reachable) {target : Sql.Target} (htarget : target ∈ deeds.flatMap Deed.targets) :
    ∃ former ∈ sessions start deeds, ∃ id block, former.graph.find? id = some block ∧
      target = ⟨block.kind.object, .derived id⟩ := by
  obtain ⟨deed, hdeed, htarget⟩ := List.mem_flatMap.1 htarget
  obtain ⟨exchange, hexchange, hcall⟩ := List.mem_filterMap.1 htarget
  obtain ⟨id, -, hissues⟩ := (h.segmented hstart deed hdeed).exists_mem hexchange
  have hserves := hissues.serves
  refine ⟨deed.before, (h.performed deed hdeed).1, id, ?_⟩
  generalize exchange.call = call at hserves hcall
  cases hserves with
  | describe table => cases hcall
  | query query =>
    rw [Call.target?, Sql.target?_of_isQuery query] at hcall
    cases hcall
  | own found one target =>
    rw [Call.target?, target] at hcall
    exact ⟨_, found, (Option.some.inj hcall).symm⟩

/-- A table that is not called after a block stays in memory as it is. -/
theorem table?_eq {outside : Memory.Database → Memory.Database → Prop} {db db' : Memory.Database}
    (h : Course Memory.engine outside start db deeds s db') (hstart : start.Reachable)
    {table : String} (houtside : ∀ db db', outside db db' → db'.table? table = db.table? table)
    (hother : ∀ former ∈ sessions start deeds, ∀ id ∈ former.graph.ids,
      table ≠ (TableName.derived id).text) : db'.table? table = db.table? table := by
  induction h with
  | start => rfl
  | @next deeds s s' now now' event calls past performed new ih =>
    rw [sessions_append, List.forall_mem_append] at hother
    have hreach := past.reachable hstart s past.mem_sessions
    have hnoted : now' = _ := performed.noted hreach.wellFormed
    rw [hnoted, ← ih hother.1]
    refine Memory.table?_foldl_respond (fun call hcall => ?_) now
    obtain ⟨exchange, hexchange, rfl⟩ := List.mem_map.1 hcall
    obtain ⟨id, -, block, hfind, hissued⟩ := (performed.segmented hreach).exists_mem hexchange
    exact ⟨id, block.kind, hissued,
      hother.1 s past.mem_sessions id (hreach.wellFormed.mem_ids_iff.2 ⟨block, hfind⟩)⟩
  | outside past change ih => exact (houtside _ _ change).trans (ih hother)

end Course

/-- However a session came about, whatever is done to it from then on, and whatever the engine answers:
    each statement that makes or removes something is made for a block that is being run or removed
    and names the table of this block, and a table is made and removed as one kind of object only.
    In memory all tables that are not called after a block of the session remain as they are. -/
theorem course_confined {start : Session} (h : start.Reachable) :
    Function.Injective TableName.derived ∧
      (∀ {σ : Type} (engine : Engine σ) (outside : σ → σ → Prop) (state now : σ) (s : Session)
          (deeds : List Deed), Course engine outside start state deeds s now →
        (∀ deed ∈ deeds, deed.calls.Segmented deed.before.Serves deed.event.handled) ∧
          ∀ target ∈ deeds.flatMap Deed.targets, ∀ other ∈ deeds.flatMap Deed.targets,
            target.name = other.name → target.object = other.object) ∧
      ∀ (outside : Memory.Database → Memory.Database → Prop) (db now : Memory.Database) (s : Session)
          (deeds : List Deed) (table : String), Course Memory.engine outside start db deeds s now →
        (∀ db db', outside db db' → db'.table? table = db.table? table) →
        (∀ former ∈ sessions start deeds, ∀ id ∈ former.graph.ids,
          table ≠ (TableName.derived id).text) → now.table? table = db.table? table := by
  refine ⟨TableName.derived_injective, fun engine outside state now s deeds hcourse => ⟨?_, ?_⟩,
    fun outside db now s deeds table hcourse houtside hother => hcourse.table?_eq h houtside hother⟩
  · intro deed hdeed
    exact (hcourse.segmented h deed hdeed).imp fun id call hissues => hissues.serves
  · intro target htarget other hother hname
    obtain ⟨former, hformer, id, block, hfind, rfl⟩ := hcourse.exists_of_mem_targets h htarget
    obtain ⟨later, hlater, id', block', hfind', rfl⟩ := hcourse.exists_of_mem_targets h hother
    obtain rfl := TableName.derived_injective hname
    exact congrArg BlockKind.object
      (hcourse.sameKinds h former hformer later hlater id block block' hfind hfind')

/-- A pipeline has run elsewhere. Its filter is copied, and the run from the filter fails because the
    database refuses to read rows, after the table has been made. Then the filter is removed, and
    this table with it, but not one that is called after a block of another session. -/
theorem confined_course_with_refusal :
    let load : BlockId := ⟨1⟩
    let filter : BlockId := ⟨2⟩
    let copy : BlockId := ⟨3⟩
    let stray := (TableName.derived ⟨9⟩).text
    let made := [Edit.addConfig load (.load { tableName := "orders" }),
      .addConfig filter (.filter { column := "amount", value := some (.text "7") }),
      .connect load filter].foldl Edit.apply .empty
    let start := (Scripted.engine.runAll {} made ⟨[], [], []⟩).session
    let orders : Table := ⟨[⟨"amount", "BIGINT"⟩], [[("amount", .ofNat 7)]]⟩
    let db : Memory.Database := ⟨[("orders", orders), (stray, orders)], [], []⟩
    let outside (before after : Memory.Database) : Prop := after = before.refuse "LIMIT" "disk is full"
    start.Reachable ∧ ∃ deeds s now, Course Memory.engine outside start db deeds s now ∧
      s.graph.ids = [load, copy] ∧ now.tables.map Prod.fst = ["orders", stray] ∧
      now.statements = ["CREATE OR REPLACE TABLE temp_00000000000000000000000000000002 AS " ++
          "SELECT * FROM orders WHERE \"amount\" = '7'",
        "SELECT * FROM temp_00000000000000000000000000000002 LIMIT 100",
        "DROP TABLE IF EXISTS temp_00000000000000000000000000000002"] ∧
      now.table? "orders" = some orders ∧ now.table? stray = some orders := by
  intro load filter copy stray made start orders db outside
  have hstart : start.Reachable := .runAll _ _ _ (.edits .empty (by decide +kernel))
  let copied := (Edit.duplicate filter copy).apply start
  let refusing := db.refuse "LIMIT" "disk is full"
  have hfresh : (Edit.duplicate filter copy).Fresh start := by decide +kernel
  have hids : start.graph.ids = [load, filter] ∧ copied.graph.ids = [load, filter, copy] := by
    decide +kernel
  have hreached : ((Memory.engine.transcribing.run {} copied (refusing, []) filter).toOption.bind fun p =>
      (Memory.engine.transcribing.removeBlock {} p.session (p.engineState.1, []) filter).toOption.map
        fun r => (p.session.graph.ids, r.1.graph.ids, r.2.1.1.tables.map Prod.fst,
          r.2.1.1.statements)) = some ([load, filter, copy], [load, copy], ["orders", stray],
      ["CREATE OR REPLACE TABLE temp_00000000000000000000000000000002 AS " ++
          "SELECT * FROM orders WHERE \"amount\" = '7'",
        "SELECT * FROM temp_00000000000000000000000000000002 LIMIT 100",
        "DROP TABLE IF EXISTS temp_00000000000000000000000000000002"]) := by
    decide +kernel
  have hcopied : Course Memory.engine outside start db _ copied db :=
    Course.start.next (.edit _ hfresh) fun id _ hno => List.forall_mem_singleton.2 hno
  have hwf := hcopied.wellFormed hstart
  have hrefusing : Course Memory.engine outside start db _ copied refusing := hcopied.outside rfl
  clear_value copied refusing
  cases hrun : Memory.engine.transcribing.run {} copied (refusing, []) filter with
  | error error =>
    rw [hrun] at hreached
    cases hreached
  | ok p =>
    rw [hrun] at hreached
    cases hremoval : Memory.engine.transcribing.removeBlock {} p.session (p.engineState.1, [])
        filter with
    | error error =>
      simp only [Except.toOption, Option.bind_some, hremoval] at hreached
      cases hreached
    | ok removed =>
      obtain ⟨s, ⟨now, calls⟩, block⟩ := removed
      simp only [Except.toOption, Option.bind_some, hremoval, Option.map_some, Option.some_inj,
        Prod.mk.injEq] at hreached
      obtain ⟨hpast, hlast, htables, hstatements⟩ := hreached
      have hcourse := (hrefusing.ran hwf (.one hrun)).removed hremoval
      have hkept : ∀ table, (∀ id ∈ [load, filter, copy], table ≠ (TableName.derived id).text) →
          now.table? table = db.table? table := by
        intro table hother
        refine (course_confined hstart).2.2 outside db now s _ table hcourse ?_ ?_
        · rintro before after rfl
          rfl
        · obtain ⟨hload, hfilter, hcopy, -⟩ := by simpa only [List.forall_mem_cons] using hother
          simp [sessions, hids, hpast, hlast, hload, hfilter, hcopy]
      exact ⟨hstart, _, s, now, hcourse, hlast, htables, hstatements,
        hkept "orders" (by decide +kernel), hkept stray (by decide +kernel)⟩

end BlockPipeline.Session

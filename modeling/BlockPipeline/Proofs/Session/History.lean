import BlockPipeline.Proofs.Run.Effect
import BlockPipeline.Proofs.Session.Changes

set_option autoImplicit false

/-! # Staleness is a matter of history

A `History` is what was done to a session, moment by moment, from its beginning. A block is stale at
the end of a history just when the last edit that affected it has been followed by no successful run
of it (`isStale_iff_outdated`). One moment tells how the flag of a block comes about from the flag
before (`Happens.isStale_iff`), and the rest is induction on the history. -/

namespace BlockPipeline.Session

/-! ## Histories -/

/-- What can be done to a session. -/
inductive Event where
  | edit (edit : Edit)
  /-- A run of one block or of all, and what was recorded. -/
  | run (visits : Visits)
  /-- A block is removed, and perhaps its table with it. -/
  | removeBlock (id : BlockId)

/-- The event leads from one session to the other. -/
inductive Happens : Session → Event → Session → Prop where
  | edit {s : Session} (edit : Edit) (fresh : edit.Fresh s) : Happens s (.edit edit) (edit.apply s)
  | run {σ : Type} {s : Session} {engine : Engine σ} {config : RunConfig} {state : σ}
    {p : Progress σ} (ran : engine.Ran config s state p) : Happens s (.run p.visits) p.session
  | removeBlock {σ : Type} {s s' : Session} {engine : Engine σ} {config : RunConfig}
    {state state' : σ} {id : BlockId} {block : Block}
    (removed : engine.removeBlock config s state id = .ok (s', state', block)) :
    Happens s (.removeBlock id) s'

/-- An event with the sessions before and after it. -/
structure Moment where
  before : Session
  event : Event
  after : Session

/-- The moments that lead from an empty or stored session to this one. -/
inductive History : List Moment → Session → Prop where
  | empty : History [] empty
  | stored {definition : Definition} {s : Session} (made : ofDefinition definition = .ok s) :
    History [] s
  | next {moments : List Moment} {s s' : Session} {event : Event} (past : History moments s)
    (happens : Happens s event s') : History (moments ++ [⟨s, event, s'⟩]) s'

namespace Moment

/-- Another block gets another configuration, and by the policy and the graph of the moment this
    affects the block. -/
def Outdates (m : Moment) (id : BlockId) : Prop :=
  ∃ edit other, m.event = .edit edit ∧ edit.configured? m.before = some other ∧ other ≠ id ∧
    id ∈ m.before.policy.affected m.before.graph other

/-- The block is run with success. -/
def Renews (m : Moment) (id : BlockId) : Prop :=
  ∃ visits, m.event = .run visits ∧ ⟨id, .succeeded⟩ ∈ visits

/-- The block comes into being. -/
def Adds (m : Moment) (id : BlockId) : Prop := id ∉ m.before.graph.ids ∧ id ∈ m.after.graph.ids

end Moment

/-- Since the block was added an edit has affected it, and no run since the last such edit has recorded
    a success of the block. -/
def Outdated (moments : List Moment) (id : BlockId) : Prop :=
  ∃ past m later, moments = past ++ m :: later ∧ m.Outdates id ∧
    ∀ next ∈ later, ¬ next.Outdates id ∧ ¬ next.Adds id ∧ ¬ next.Renews id

variable {s s' : Session} {moments : List Moment} {m : Moment} {event : Event} {id : BlockId}
  {block : Block}

/-! ## One moment -/

/-- After an edit those blocks are stale that it affects and those that were stale before. -/
theorem Change.isStale_iff {configured? : Option BlockId} (h : Change s s' configured?)
    (hafter : s'.graph.find? id = some block) : block.isStale = true ↔
      (∃ other, configured? = some other ∧ other ≠ id ∧ id ∈ s.policy.affected s.graph other) ∨
        ∃ former, s.graph.find? id = some former ∧ former.isStale = true := by
  cases h with
  | relabel label found _ =>
    rw [found] at hafter
    obtain ⟨former, hformer, rfl⟩ := Option.map_eq_some_iff.1 hafter
    simp [hformer]
  | add added new unrun found _ =>
    rw [found] at hafter
    split at hafter
    · next hsame =>
        obtain rfl := Option.some.inj hafter
        simp [hsame, new, unrun.isStale]
    · simp [hafter]
  | remove removed found _ =>
    rw [found] at hafter
    split at hafter
    · cases hafter
    · simp [hafter]
  | configure other config former hformer _ self found _ =>
    by_cases hsame : id = other
    · subst hsame
      rw [self] at hafter
      obtain rfl := Option.some.inj hafter
      simp [hformer]
    · rw [found id hsame] at hafter
      obtain ⟨before, hbefore, rfl⟩ := Option.map_eq_some_iff.1 hafter
      by_cases haffected : id ∈ s.policy.affected s.graph other
      · simp [haffected, Ne.symm hsame, Block.markStale]
      · simp [haffected, hbefore]

/-- After a run those blocks are stale that were stale before and have not succeeded. -/
theorem isStale_iff_of_ran {σ : Type} {engine : Engine σ} {config : RunConfig} {state : σ}
    {p : Progress σ} (hwf : s.graph.WellFormed) (hran : engine.Ran config s state p)
    (hafter : p.session.graph.find? id = some block) : block.isStale = true ↔
      (∃ former, s.graph.find? id = some former ∧ former.isStale = true) ∧
        ⟨id, .succeeded⟩ ∉ p.visits := by
  obtain ⟨entry, hsteps⟩ := hran.steps hwf
  have heffect := Engine.Steps.effect hwf rfl hsteps
  rw [← Visits.outcome?_eq_some_iff (Engine.Steps.recorded hsteps).nodup]
  rw [heffect.settled] at hafter
  obtain ⟨former, hformer, rfl⟩ := Option.map_eq_some_iff.1 hafter
  have hfound : s.graph.find? id = some former := hformer
  rw [hfound]
  cases p.visits.outcome? id with
  | none => simp [Block.settle]
  | some outcome => cases outcome <;> simp [Block.settle, Block.succeed, Block.fail]

theorem Happens.isStale_iff (h : Happens s event s') (hwf : s.graph.WellFormed)
    (hafter : s'.graph.find? id = some block) : block.isStale = true ↔
      (⟨s, event, s'⟩ : Moment).Outdates id ∨
        (∃ former, s.graph.find? id = some former ∧ former.isStale = true) ∧
          ¬ (⟨s, event, s'⟩ : Moment).Renews id := by
  cases h with
  | edit edit fresh =>
    rw [(change_of_edit hwf fresh).isStale_iff hafter]
    simp [Moment.Outdates, Moment.Renews]
  | run ran =>
    rw [isStale_iff_of_ran hwf ran hafter]
    simp [Moment.Outdates, Moment.Renews]
  | removeBlock removed =>
    rw [(change_of_remove (remove_of_removeBlock removed)).isStale_iff hafter]
    simp [Moment.Outdates, Moment.Renews]

/-- No event changes the kind of a block. -/
theorem Happens.kind_eq {former : Block} (h : Happens s event s') (hwf : s.graph.WellFormed)
    (hbefore : s.graph.find? id = some former) (hafter : s'.graph.find? id = some block) :
    block.kind = former.kind := by
  cases h with
  | edit edit fresh => exact (change_of_edit hwf fresh).kind_eq hbefore hafter
  | @run _ _ _ _ _ p ran =>
    obtain ⟨entry, hsteps⟩ := ran.steps hwf
    have houtline : (p.session.graph.find? id).map Block.outline =
        (s.graph.find? id).map Block.outline :=
      Graph.find?_of_outline (Engine.Steps.outline_eq hsteps) id
    rw [hbefore, hafter] at houtline
    obtain ⟨-, -, hconfig⟩ := BlockDefinition.mk.inj (Option.some.inj houtline)
    exact congrArg BlockConfig.kind hconfig
  | removeBlock removed =>
    exact (change_of_remove (remove_of_removeBlock removed)).kind_eq hbefore hafter

theorem Happens.reachable (h : Happens s event s') (hs : s.Reachable) : s'.Reachable := by
  cases h with
  | edit edit fresh => exact .edit edit hs fresh
  | run ran =>
    cases ran with
    | one ran => exact .run _ _ _ _ hs ran
    | all => exact .runAll _ _ _ hs
  | removeBlock removed => exact .removeBlock _ _ _ _ _ _ hs removed

/-! ## Whole histories -/

theorem History.reachable (h : History moments s) : s.Reachable := by
  induction h with
  | empty => exact .empty
  | stored made => exact .stored made
  | next past happens ih => exact happens.reachable ih

theorem History.happens (h : History moments s) (hm : m ∈ moments) :
    Happens m.before m.event m.after ∧ m.before.Reachable := by
  induction h with
  | empty => cases hm
  | stored made => cases hm
  | next past happens ih =>
    rcases List.mem_append.1 hm with hm | hm
    · exact ih hm
    · obtain rfl := List.mem_singleton.1 hm
      exact ⟨happens, past.reachable⟩

theorem History.edits (h : History moments s) (edits : List Edit) (hfresh : Edit.AllFresh s edits) :
    ∃ later, later.length = edits.length ∧ History (moments ++ later) (edits.foldl Edit.apply s) := by
  induction edits generalizing moments s with
  | nil => exact ⟨[], rfl, by simpa using h⟩
  | cons edit edits ih =>
    obtain ⟨later, hlength, hlater⟩ := ih (h.next (.edit edit hfresh.1)) hfresh.2
    refine ⟨⟨s, .edit edit, edit.apply s⟩ :: later, by simp [hlength], ?_⟩
    simpa using hlater

theorem outdated_append : Outdated (moments ++ [m]) id ↔ m.Outdates id ∨
    Outdated moments id ∧ ¬ m.Outdates id ∧ ¬ m.Adds id ∧ ¬ m.Renews id := by
  constructor
  · rintro ⟨past, cause, later, hsplit, houtdates, hlater⟩
    rcases split_append hsplit with ⟨-, -, rfl⟩ | ⟨rest, rfl, hmoments⟩
    · exact .inl houtdates
    · have hrest : ∀ next ∈ rest, ¬ next.Outdates id ∧ ¬ next.Adds id ∧ ¬ next.Renews id :=
        fun next hnext => hlater next (List.mem_append_left _ hnext)
      exact .inr ⟨⟨past, cause, rest, hmoments, houtdates, hrest⟩,
        hlater m (List.mem_append_right _ (List.mem_singleton_self m))⟩
  · rintro (houtdates | ⟨⟨past, cause, later, rfl, houtdates, hlater⟩, hlast⟩)
    · exact ⟨moments, m, [], rfl, houtdates, by simp⟩
    · refine ⟨past, cause, later ++ [m], by simp, houtdates, ?_⟩
      rw [List.forall_mem_append, List.forall_mem_singleton]
      exact ⟨hlater, hlast⟩

theorem History.isStale_iff (h : History moments s) (hfind : s.graph.find? id = some block) :
    block.isStale = true ↔ Outdated moments id := by
  induction h generalizing block with
  | empty => cases hfind
  | stored made =>
    have hunrun := (unrun_of_ofDefinition made).2 id block hfind
    have hnothing : ¬ Outdated [] id := by
      rintro ⟨past, cause, later, hsplit, -⟩
      simp at hsplit
    simp [hunrun.isStale, hnothing]
  | @next moments s s' event past happens ih =>
    have hwf := past.reachable.wellFormed
    have hwf' := (happens.reachable past.reachable).wellFormed
    have hadds : ¬ (⟨s, event, s'⟩ : Moment).Adds id ↔ id ∈ s.graph.ids := by
      have hmem : id ∈ s'.graph.ids := hwf'.mem_ids_iff.2 ⟨block, hfind⟩
      simp [Moment.Adds, hmem]
    have hbefore : (∃ former, s.graph.find? id = some former ∧ former.isStale = true) ↔
        id ∈ s.graph.ids ∧ Outdated moments id := by
      rw [hwf.mem_ids_iff]
      constructor
      · rintro ⟨former, hformer, hstale⟩
        exact ⟨⟨former, hformer⟩, (ih hformer).1 hstale⟩
      · rintro ⟨⟨former, hformer⟩, houtdated⟩
        exact ⟨former, hformer, (ih hformer).2 houtdated⟩
    rw [happens.isStale_iff hwf hfind, outdated_append, hadds, hbefore]
    tauto

/-- A block is stale if and only if since it was added an edit of another block has affected it, and
    no run after the last such edit has recorded a success of the block. Nothing else that is done
    to the session changes whether the block is stale. -/
theorem isStale_iff_outdated (h : History moments s) :
    (∀ id block, s.graph.find? id = some block → (block.isStale = true ↔ Outdated moments id)) ∧
      ∀ m ∈ moments, ∀ id before after, m.before.graph.find? id = some before →
        m.after.graph.find? id = some after → ¬ m.Outdates id → ¬ m.Renews id →
          after.isStale = before.isStale := by
  refine ⟨fun id block hfind => h.isStale_iff hfind, ?_⟩
  intro m hm id before after hbefore hafter houtdates hrenews
  obtain ⟨happens, hreach⟩ := h.happens hm
  have hflag := happens.isStale_iff hreach.wellFormed hafter
  rw [Bool.eq_iff_iff, hflag]
  simp [houtdates, hrenews, hbefore]

/-- A pipeline has run, and then the value is taken out of its filter. In the next run the filter fails,
    and the block below it, which is skipped, remains stale. -/
theorem stale_below_incomplete_filter :
    let load : BlockId := ⟨1⟩
    let filter : BlockId := ⟨2⟩
    let sort : BlockId := ⟨3⟩
    let made := [Edit.addConfig load (.load { tableName := "orders" }),
      .addConfig filter (.filter { column := "amount", value := some (.text "7") }),
      .addConfig sort (.sort { column := "amount" }), .connect load filter,
      .connect filter sort].foldl Edit.apply .empty
    let ran := (Scripted.engine.runAll {} made ⟨[], [], []⟩).session
    let edited := (Edit.setConfig filter (.filter { column := "amount" })).apply ran
    let p := Scripted.engine.runAll {} edited ⟨[], [], []⟩
    ∃ moments, moments.length = 8 ∧ History moments p.session ∧
      p.visits = [⟨load, .succeeded⟩, ⟨filter, .failed "Value is required"⟩, ⟨sort, .skipped⟩] ∧
      p.session.graph.blocks.map Block.isStale = [false, false, true] ∧
      Outdated moments sort ∧ ¬ Outdated moments filter := by
  intro load filter sort made ran edited p
  obtain ⟨moments, hlength, hmade⟩ := History.empty.edits
    [Edit.addConfig load (.load { tableName := "orders" }),
      .addConfig filter (.filter { column := "amount", value := some (.text "7") }),
      .addConfig sort (.sort { column := "amount" }), .connect load filter,
      .connect filter sort] (by decide +kernel)
  have hran : History _ ran := hmade.next (.run .all)
  have hedited : History _ edited := hran.next (.edit _ (by decide +kernel))
  have h : History _ p.session := hedited.next (.run .all)
  obtain ⟨sorting, hsort, hstale⟩ : ∃ block, p.session.graph.find? sort = some block ∧
      block.isStale = true := Option.map_eq_some_iff.1 (by decide +kernel)
  obtain ⟨filtering, hfilter, hfresh⟩ : ∃ block, p.session.graph.find? filter = some block ∧
      block.isStale = false := Option.map_eq_some_iff.1 (by decide +kernel)
  have hflags := (isStale_iff_outdated h).1
  refine ⟨_, ?_, h, by decide +kernel, by decide +kernel, (hflags sort sorting hsort).1 hstale, ?_⟩
  · simp [hlength]
  · rw [← hflags filter filtering hfilter, hfresh]
    exact Bool.false_ne_true

end BlockPipeline.Session

import BlockPipeline.Proofs.Run.Steps

set_option autoImplicit false

/-! # How visits come about

`Recorded` says how the visits of a run come about, one after the other, without the engine: only
which blocks are entries of the run and what was recorded of the feeder of a block. Steps lead to
such visits (`Steps.recorded`), and what is to be known of a record follows by induction on it. -/

namespace BlockPipeline

/-- The visits that a run can make. A block is recorded once: an entry is run, and another block is
    run if its feeder has succeeded and skipped if it has not. -/
inductive Recorded (g : Graph) (entry : BlockId → Prop) : Visits → Prop where
  | nil : Recorded g entry []
  | entry {visits : Visits} {id : BlockId} {outcome : Outcome} (past : Recorded g entry visits)
    (unvisited : visits.outcome? id = none) (isEntry : entry id) (ran : outcome ≠ .skipped) :
    Recorded g entry (visits ++ [⟨id, outcome⟩])
  | fed {visits : Visits} {id feeder : BlockId} {outcome above : Outcome}
    (past : Recorded g entry visits) (unvisited : visits.outcome? id = none)
    (feeds : g.Feeds feeder id) (visited : visits.outcome? feeder = some above)
    (skipped_iff : outcome = .skipped ↔ above ≠ .succeeded) :
    Recorded g entry (visits ++ [⟨id, outcome⟩])

variable {g : Graph} {entry : BlockId → Prop} {visits : Visits} {id : BlockId}

theorem Outcome.ne_succeeded_iff {outcome : Outcome} :
    outcome ≠ .succeeded ↔ outcome = .skipped ∨ ∃ message, outcome = .failed message := by
  cases outcome <;> simp

namespace Recorded

theorem nodup (h : Recorded g entry visits) : (visits.map Visit.block).Nodup := by
  have hlast : ∀ {visits : Visits} {visit : Visit}, (visits.map Visit.block).Nodup →
      visits.outcome? visit.block = none → ((visits ++ [visit]).map Visit.block).Nodup := by
    intro visits visit hnodup hnone
    rw [List.map_append, List.map_singleton]
    refine hnodup.append (List.nodup_singleton _) fun other hother hsame => ?_
    obtain rfl := List.mem_singleton.1 hsame
    exact Visits.outcome?_eq_none_iff.1 hnone hother
  induction h with
  | nil => exact List.nodup_nil
  | entry _ unvisited _ _ ih => exact hlast ih unvisited
  | fed _ unvisited _ _ _ ih => exact hlast ih unvisited

/-- The first block that is recorded is an entry, and it is run. -/
theorem begins (h : Recorded g entry visits) (hvisits : visits ≠ []) :
    ∃ id outcome rest, visits = ⟨id, outcome⟩ :: rest ∧ entry id ∧ outcome ≠ .skipped := by
  have hmore : ∀ {visits : Visits} {visit : Visit},
      (∃ id outcome rest, visits = ⟨id, outcome⟩ :: rest ∧ entry id ∧ outcome ≠ .skipped) →
        ∃ id outcome rest, visits ++ [visit] = ⟨id, outcome⟩ :: rest ∧ entry id ∧
          outcome ≠ .skipped := by
    rintro visits visit ⟨id, outcome, rest, rfl, hentry, hran⟩
    exact ⟨id, outcome, rest ++ [visit], rfl, hentry, hran⟩
  induction h with
  | nil => exact absurd rfl hvisits
  | @entry visits id outcome past unvisited isEntry ran ih =>
    by_cases hfirst : visits = []
    · subst hfirst
      exact ⟨id, outcome, [], rfl, isEntry, ran⟩
    · exact hmore (ih hfirst)
  | @fed visits id feeder outcome above past unvisited feeds visited skipped_iff ih =>
    -- a fed block is never the first one, since its feeder has been visited
    refine hmore (ih fun hfirst => ?_)
    subst hfirst
    cases visited

/-- What is recorded is an entry or can be reached from one. -/
theorem reached (h : Recorded g entry visits) (hid : id ∈ visits.map Visit.block) :
    entry id ∨ ∃ root, entry root ∧ g.Reaches root id := by
  induction h generalizing id with
  | nil => cases hid
  | entry past unvisited isEntry ran ih =>
    rw [List.map_append, List.mem_append] at hid
    rcases hid with hid | hid
    · exact ih hid
    · obtain rfl := List.mem_singleton.1 hid
      exact .inl isEntry
  | @fed visits fed feeder outcome above past unvisited feeds visited skipped_iff ih =>
    rw [List.map_append, List.mem_append] at hid
    rcases hid with hid | hid
    · exact ih hid
    · obtain rfl := List.mem_singleton.1 hid
      have hfeeder : feeder ∈ visits.map Visit.block :=
        List.mem_map_of_mem (Visits.mem_of_outcome? visited)
      rcases ih hfeeder with hentry | ⟨root, hentry, hr⟩
      · exact .inr ⟨feeder, hentry, .single feeds⟩
      · exact .inr ⟨root, hentry, hr.tail feeds⟩

theorem ordered (h : Recorded g entry visits) {before after : Visits} {visit : Visit}
    (hsplit : visits = before ++ visit :: after) :
    entry visit.block ∨ ∃ feeder ∈ before.map Visit.block, g.Feeds feeder visit.block := by
  induction h generalizing after with
  | nil => simp at hsplit
  | entry past unvisited isEntry ran ih =>
    rcases split_append hsplit with ⟨-, rfl, rfl⟩ | ⟨rest, -, hrest⟩
    · exact .inl isEntry
    · exact ih hrest
  | @fed visits fed feeder outcome above past unvisited feeds visited skipped_iff ih =>
    rcases split_append hsplit with ⟨-, rfl, rfl⟩ | ⟨rest, -, hrest⟩
    · exact .inr ⟨feeder, List.mem_map_of_mem (Visits.mem_of_outcome? visited), feeds⟩
    · exact ih hrest

/-- What was recorded of the feeder decides whether a block is skipped. -/
theorem skipped_iff (h : Recorded g entry visits) {visit : Visit} (hvisit : visit ∈ visits) :
    entry visit.block ∨ ∃ feeder above, g.Feeds feeder visit.block ∧
      visits.outcome? feeder = some above ∧ (visit.outcome = .skipped ↔ above ≠ .succeeded) := by
  have hmore : ∀ {visits : Visits} {last : Visit},
      (entry visit.block ∨ ∃ feeder above, g.Feeds feeder visit.block ∧
        visits.outcome? feeder = some above ∧
          (visit.outcome = .skipped ↔ above ≠ .succeeded)) →
      entry visit.block ∨ ∃ feeder above, g.Feeds feeder visit.block ∧
        Visits.outcome? (visits ++ [last]) feeder = some above ∧
          (visit.outcome = .skipped ↔ above ≠ .succeeded) := by
    intro visits last hbefore
    refine hbefore.imp_right ?_
    rintro ⟨feeder, above, hf, habove, hiff⟩
    exact ⟨feeder, above, hf, Visits.outcome?_append_of_some habove, hiff⟩
  induction h with
  | nil => cases hvisit
  | entry past unvisited isEntry ran ih =>
    rcases List.mem_append.1 hvisit with hvisit | hvisit
    · exact hmore (ih hvisit)
    · obtain rfl := List.mem_singleton.1 hvisit
      exact .inl isEntry
  | @fed visits fed feeder outcome above past unvisited feeds visited skipped_iff ih =>
    rcases List.mem_append.1 hvisit with hvisit | hvisit
    · exact hmore (ih hvisit)
    · obtain rfl := List.mem_singleton.1 hvisit
      exact hmore (.inr ⟨feeder, above, feeds, visited, skipped_iff⟩)

/-- A block that is no entry is skipped if its feeder has failed or been skipped, and only then. -/
theorem skipped_iff_upstream (h : Recorded g entry visits) {visit : Visit} (hvisit : visit ∈ visits)
    (hne : ¬ entry visit.block) :
    visit.outcome = .skipped ↔ ∃ upstream ∈ visits, g.Feeds upstream.block visit.block ∧
      (upstream.outcome = .skipped ∨ ∃ message, upstream.outcome = .failed message) := by
  obtain ⟨feeder, above, hf, habove, hiff⟩ := (h.skipped_iff hvisit).resolve_left hne
  rw [hiff, Outcome.ne_succeeded_iff]
  constructor
  · intro hhalted
    exact ⟨⟨feeder, above⟩, Visits.mem_of_outcome? habove, hf, hhalted⟩
  · rintro ⟨upstream, hupstream, hfeeds, hhalted⟩
    obtain rfl := Graph.feeder_unique hf hfeeds
    have hsame := (Visits.outcome?_eq_some_iff h.nodup).2 hupstream
    rwa [Option.some.inj (habove.symm.trans hsame)]

/-- Of the graph only the connections matter. -/
theorem congr {g' : Graph} (h : Recorded g entry visits) (hfeeds : g'.Feeds = g.Feeds) :
    Recorded g' entry visits := by
  induction h with
  | nil => exact .nil
  | entry _ unvisited isEntry ran ih => exact .entry ih unvisited isEntry ran
  | fed _ unvisited feeds visited skipped_iff ih =>
    exact .fed ih unvisited (hfeeds ▸ feeds) visited skipped_iff

/-! ### Runs that begin with one block -/

section
variable {root feeder : BlockId} {outcome : Outcome}

/-- The block with which the run begins is not skipped. -/
theorem root_ran (h : Recorded g (· = root) visits) (hroot : visits.outcome? root = some outcome) :
    outcome ≠ .skipped := by
  have hvisits : visits ≠ [] := by
    rintro rfl
    cases hroot
  obtain ⟨_, first, rest, hsplit, rfl, hran⟩ := h.begins hvisits
  have hfirst := (Visits.outcome?_eq_some_iff h.nodup).2 (hsplit ▸ List.mem_cons_self)
  rwa [Option.some.inj (hroot.symm.trans hfirst)]

/-- Nothing is recorded before the block with which the run begins. -/
theorem eq_nil_of_root (h : Recorded g (· = root) visits) (hroot : visits.outcome? root = none) :
    visits = [] := by
  by_contra hvisits
  obtain ⟨_, outcome, rest, hsplit, rfl, -⟩ := h.begins hvisits
  rw [Visits.outcome?_eq_none_iff, hsplit] at hroot
  exact hroot List.mem_cons_self

theorem downward (h : Recorded g (· = root) visits) (hvisited : (visits.outcome? id).isSome) :
    Relation.ReflTransGen g.Feeds root id := by
  rcases h.reached (Visits.outcome?_isSome_iff.1 hvisited) with rfl | ⟨_, rfl, hr⟩
  · exact .refl
  · exact hr.to_reflTransGen

/-- What was recorded of the feeder of any other block decides whether that one is skipped. -/
theorem skipped_iff_feeder (h : Recorded g (· = root) visits) (hne : id ≠ root)
    (hf : g.Feeds feeder id) (hvisited : visits.outcome? id = some outcome) :
    ∃ above, visits.outcome? feeder = some above ∧ (outcome = .skipped ↔ above ≠ .succeeded) := by
  rcases h.skipped_iff (Visits.mem_of_outcome? hvisited) with heq | ⟨other, above, hother, habove, hiff⟩
  · exact absurd heq hne
  · obtain rfl := Graph.feeder_unique hf hother
    exact ⟨above, habove, hiff⟩

/-- A block that is about to be recorded feeds none of those that have been recorded. -/
theorem not_feeds_visited (h : Recorded g (· = root) visits) (hwf : g.WellFormed)
    (unvisited : visits.outcome? id = none)
    (hready : id = root ∨ ∃ feeder, g.Feeds feeder id ∧ (visits.outcome? feeder).isSome)
    {other : BlockId} (hother : (visits.outcome? other).isSome) : ¬ g.Feeds id other := by
  intro hf
  by_cases hroot : other = root
  · subst hroot
    rcases hready with rfl | ⟨feeder, hfeeder, hvisited⟩
    · rw [unvisited] at hother
      cases hother
    · -- the block would be below the one with which the run begins, and feed it
      exact hwf.acyclic other (.tail' ((h.downward hvisited).tail hfeeder) hf)
  · obtain ⟨outcome, houtcome⟩ := Option.isSome_iff_exists.1 hother
    obtain ⟨above, habove, -⟩ := h.skipped_iff_feeder hroot hf houtcome
    rw [unvisited] at habove
    cases habove

end

end Recorded

/-! ## What steps record -/

namespace Engine

variable {σ : Type} {engine : Engine σ} {config : RunConfig} {p q : Progress σ} {s : Session}

theorem Step.recorded (hg : p.session.graph.Feeds = g.Feeds)
    (h : engine.Step config entry p q) (hpast : Recorded g entry p.visits) :
    Recorded g entry q.visits := by
  cases h with
  | @run id block found unvisited ready =>
    rw [visit_eq engine config found]
    have hran : (p.session.conclude id
        (engine.attempt config p.session block p.engineState).1).2 ≠ .skipped :=
      Session.conclude_ne_skipped _ _ _
    rcases ready with hentry | ⟨feeder, hf, hfeeder⟩
    · exact .entry hpast unvisited hentry hran
    · exact .fed hpast unvisited (hg ▸ hf) hfeeder (by simp [hran])
  | skip unvisited fed visited halted =>
    exact .fed hpast unvisited (hg ▸ fed) visited (by simp [halted])

theorem Steps.recorded {state : σ} (h : engine.Steps config entry ⟨s, state, []⟩ p) :
    Recorded s.graph entry p.visits := by
  induction h with
  | refl => exact .nil
  | tail hsteps hstep ih =>
    exact hstep.recorded (Graph.feeds_of_outline (Steps.outline_eq hsteps)) ih

end Engine

end BlockPipeline

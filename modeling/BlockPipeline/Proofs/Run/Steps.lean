import BlockPipeline.Proofs.Run.Block
import BlockPipeline.Proofs.Run.Visits

set_option autoImplicit false

/-! # Runs step by step

A step of a run records one block: it runs a block, or skips one. `Step` says when it may do which.
What every step keeps, a run keeps, by induction on `Steps`. -/

namespace BlockPipeline.Engine

variable {σ : Type} (engine : Engine σ) (config : RunConfig)

/-- One block is recorded that was not recorded before. It is run if it is an entry of the run or if
    its feeder has succeeded, and skipped if its feeder has not. -/
inductive Step (entry : BlockId → Prop) : Progress σ → Progress σ → Prop where
  | run {p : Progress σ} {id : BlockId} {block : Block}
    (found : p.session.graph.find? id = some block)
    (unvisited : p.visits.outcome? id = none)
    (ready : entry id ∨ ∃ feeder, p.session.graph.Feeds feeder id ∧
      p.visits.outcome? feeder = some .succeeded) :
    Step entry p (engine.visit config p id).1
  | skip {p : Progress σ} {id feeder : BlockId} {outcome : Outcome}
    (unvisited : p.visits.outcome? id = none)
    (fed : p.session.graph.Feeds feeder id)
    (visited : p.visits.outcome? feeder = some outcome) (halted : outcome ≠ .succeeded) :
    Step entry p { p with visits := p.visits ++ [⟨id, .skipped⟩] }

/-- Any number of steps. -/
abbrev Steps (entry : BlockId → Prop) : Progress σ → Progress σ → Prop :=
  Relation.ReflTransGen (engine.Step config entry)

variable {engine config} {entry entry' : BlockId → Prop} {p q : Progress σ} {id feeder : BlockId}

/-! ## What steps keep -/

theorem Step.imp (himp : ∀ id, entry id → entry' id) (h : engine.Step config entry p q) :
    engine.Step config entry' p q := by
  cases h with
  | run found unvisited ready => exact .run found unvisited (ready.imp_left (himp _))
  | skip unvisited fed visited halted => exact .skip unvisited fed visited halted

theorem Steps.imp (himp : ∀ id, entry id → entry' id) (h : engine.Steps config entry p q) :
    engine.Steps config entry' p q := by
  induction h with
  | refl => exact .refl
  | tail _ hstep ih => exact ih.tail (hstep.imp himp)

theorem Step.outline_eq (h : engine.Step config entry p q) :
    q.session.graph.outline = p.session.graph.outline := by
  cases h with
  | run found _ _ =>
    rw [visit_eq engine config found]
    exact Session.outline_conclude _ _ _
  | skip => rfl

theorem Steps.outline_eq (h : engine.Steps config entry p q) :
    q.session.graph.outline = p.session.graph.outline := by
  induction h with
  | refl => rfl
  | tail _ hstep ih => exact hstep.outline_eq.trans ih

/-- A step adds one visit, of a block that was not visited. -/
theorem Step.visits_eq (h : engine.Step config entry p q) :
    ∃ visit : Visit, q.visits = p.visits ++ [visit] ∧ p.visits.outcome? visit.block = none ∧
      (entry visit.block ∨ ∃ feeder, p.session.graph.Feeds feeder visit.block ∧
        (p.visits.outcome? feeder).isSome) := by
  cases h with
  | run found unvisited ready =>
    rw [visit_eq engine config found]
    refine ⟨_, rfl, unvisited, ready.imp_right fun ⟨feeder, hf, hvisited⟩ => ⟨feeder, hf, ?_⟩⟩
    rw [hvisited]
    rfl
  | skip unvisited fed visited _ =>
    refine ⟨_, rfl, unvisited, .inr ⟨_, fed, ?_⟩⟩
    rw [visited]
    rfl

theorem Step.outcome?_eq {outcome : Outcome} (h : engine.Step config entry p q)
    (hvisited : p.visits.outcome? id = some outcome) : q.visits.outcome? id = some outcome := by
  obtain ⟨visit, hvisits, -⟩ := h.visits_eq
  rw [hvisits]
  exact Visits.outcome?_append_of_some hvisited

theorem Steps.outcome?_eq {outcome : Outcome} (h : engine.Steps config entry p q)
    (hvisited : p.visits.outcome? id = some outcome) : q.visits.outcome? id = some outcome := by
  induction h with
  | refl => exact hvisited
  | tail _ hstep ih => exact hstep.outcome?_eq ih

theorem Steps.visited (h : engine.Steps config entry p q)
    (hvisited : (p.visits.outcome? id).isSome) : (q.visits.outcome? id).isSome := by
  obtain ⟨outcome, houtcome⟩ := Option.isSome_iff_exists.1 hvisited
  rw [h.outcome?_eq houtcome]
  rfl

end BlockPipeline.Engine

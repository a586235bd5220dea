import BlockPipeline.Engine.Scripted
import BlockPipeline.Proofs.Session.Reachable

set_option autoImplicit false

/-! # What a run records

The record of the run of a block is a `RunRecord`, whatever the engine answers (`run_record`): the
block comes first, and then, unless it failed, all blocks below it, each after its feeder. -/

namespace BlockPipeline

/-- The record of a run that began with a block. -/
structure RunRecord (g : Graph) (id : BlockId) (visits : Visits) : Prop where
  /-- The block is recorded first, and it was run. -/
  begins : ∃ outcome rest, visits = ⟨id, outcome⟩ :: rest ∧ outcome ≠ .skipped
  /-- No block is recorded twice. -/
  once : (visits.map Visit.block).Nodup
  /-- If the block failed, nothing else is recorded. -/
  stops : ∀ message, ⟨id, .failed message⟩ ∈ visits → visits = [⟨id, .failed message⟩]
  /-- Otherwise the block is recorded and all that it reaches. -/
  covers : (∀ message, ⟨id, .failed message⟩ ∉ visits) →
    ∀ other, other ∈ visits.map Visit.block ↔ other = id ∨ g.Reaches id other
  /-- Every further block is recorded after the one that feeds it. -/
  ordered : ∀ before visit after, visits = before ++ visit :: after → visit.block ≠ id →
    ∃ feeder ∈ before.map Visit.block, g.Feeds feeder visit.block
  /-- It is skipped if the one that feeds it has failed or been skipped, and only then. -/
  skipped_iff : ∀ visit ∈ visits, visit.block ≠ id →
    (visit.outcome = .skipped ↔ ∃ upstream ∈ visits, g.Feeds upstream.block visit.block ∧
      (upstream.outcome = .skipped ∨ ∃ message, upstream.outcome = .failed message))

variable {id : BlockId}

/-- However a session came about and whatever the engine answers, the run of a block records the block
    and then, unless it failed, all blocks below it, each after its feeder. -/
theorem run_record {σ : Type} {s : Session} (h : s.Reachable) (hid : id ∈ s.graph.ids)
    (engine : Engine σ) (config : RunConfig) (state : σ) :
    ∃ p, engine.run config s state id = .ok p ∧ RunRecord s.graph id p.visits := by
  have hwf := h.wellFormed
  obtain ⟨p, hrun, hsteps, hvisited, hcovers, hends⟩ :=
    @Engine.run_steps _ engine config s state id hwf hid
  refine ⟨p, hrun, ?_⟩
  have hrecorded := Engine.Steps.recorded hsteps
  have hnodup := hrecorded.nodup
  have hmem := Visits.outcome?_isSome_iff.1 hvisited
  obtain ⟨first, outcome, rest, hvisits, rfl, hran⟩ :=
    hrecorded.begins fun hnil => by simp [hnil] at hmem
  have hfirst : p.visits.outcome? first = some outcome :=
    (Visits.outcome?_eq_some_iff hnodup).2 (hvisits ▸ List.mem_cons_self)
  refine
    { begins := ⟨outcome, rest, hvisits, hran⟩
      once := hnodup
      stops := fun message hfailed => ?_
      covers := fun hnot other => ⟨fun hother => ?_, fun hother => ?_⟩
      ordered := fun before visit after hsplit hne => (hrecorded.ordered hsplit).resolve_left hne
      skipped_iff := fun visit hvisit hne => hrecorded.skipped_iff_upstream hvisit hne }
  · have hnot : p.visits.outcome? first ≠ some .succeeded := by
      rw [(Visits.outcome?_eq_some_iff hnodup).2 hfailed]
      simp
    obtain ⟨block, hfind⟩ := hwf.mem_ids_iff.1 hid
    rw [hends hnot, Engine.visit_eq engine config hfind] at hfailed ⊢
    rw [List.mem_singleton.1 hfailed]
    rfl
  · exact (hrecorded.reached hother).imp_right fun ⟨root, hroot, hr⟩ => hroot ▸ hr
  · have hsuccess : outcome = .succeeded := by
      cases outcome with
      | succeeded => rfl
      | failed message => exact absurd (Visits.mem_of_outcome? hfirst) (hnot message)
      | skipped => exact absurd rfl hran
    rcases hother with rfl | hr
    · exact hmem
    · exact Visits.outcome?_isSome_iff.1 (hcovers (hsuccess ▸ hfirst) other hr)

/-- A load block feeds an insight and a filter, and the filter a sort. The engine refuses the statement
    of the filter. -/
theorem record_below_refused_filter :
    let load : BlockId := ⟨1⟩
    let filter : BlockId := ⟨2⟩
    let sort : BlockId := ⟨3⟩
    let insight : BlockId := ⟨4⟩
    let s := [Session.Edit.addConfig load (.load { tableName := "orders" }),
      .addConfig filter (.filter { column := "amount", value := some (.text "7") }),
      .addConfig sort (.sort { column := "amount" }), .addKind insight .insight,
      .connect load filter, .connect filter sort, .connect load insight].foldl
        Session.Edit.apply .empty
    let script : Scripted.Script := ⟨.replicate 5 (.ok []) ++ [.error ⟨"no column"⟩], [], []⟩
    s.Reachable ∧ load ∈ s.graph.ids ∧
      ∃ p, Scripted.engine.run {} s script load = .ok p ∧
        p.visits = [⟨load, .succeeded⟩, ⟨insight, .succeeded⟩, ⟨filter, .failed "no column"⟩,
          ⟨sort, .skipped⟩] ∧
        RunRecord s.graph load p.visits := by
  intro load filter sort insight s script
  have hreach : s.Reachable := .edits .empty (by decide +kernel)
  have hload : load ∈ s.graph.ids := by decide +kernel
  have hvisits : ((Scripted.engine.run {} s script load).toOption.map Progress.visits) =
      some [⟨load, .succeeded⟩, ⟨insight, .succeeded⟩, ⟨filter, .failed "no column"⟩,
        ⟨sort, .skipped⟩] := by
    decide +kernel
  obtain ⟨p, hrun, hrecord⟩ := run_record hreach hload Scripted.engine {} script
  rw [hrun] at hvisits
  exact ⟨hreach, hload, p, hrun, Option.some.inj hvisits, hrecord⟩

end BlockPipeline

import BlockPipeline.Proofs.Run.Order

set_option autoImplicit false

/-! # How far a run comes

A run of a whole pipeline visits every load block, and below a load block everything or nothing: all
blocks if the load block succeeds, and none if it fails (`runAll_visited_iff`). So which blocks are
recorded is known from what was recorded of the load blocks. -/

namespace BlockPipeline.Engine

variable {σ : Type} {engine : Engine σ} {config : RunConfig} {s : Session} {state : σ}
  {p : Progress σ} {g : Graph} {root id : BlockId} {taken done rest : List BlockId} {visits : Visits}

/-- Every block that was visited is one of the load blocks, or below one that has succeeded. -/
def Within (g : Graph) (done : List BlockId) (visits : Visits) : Prop :=
  ∀ id, (visits.outcome? id).isSome →
    ∃ root ∈ done, id = root ∨ visits.outcome? root = some .succeeded ∧ g.Reaches root id

/-- The cascade from one more load block goes beyond the block only if that succeeds. -/
theorem Swept.within_next (hwf : s.graph.WellFormed) (h : Swept engine config s state done p taken)
    (hdone : done ⊆ s.graph.roots) (hroot : root ∈ s.graph.roots) (hnew : root ∉ done)
    (hwithin : Within s.graph done p.visits) :
    Within s.graph (root :: done) (engine.cascade config (p, taken) root).1.visits := by
  have houtline := Steps.outline_eq h.steps
  have hfeeds := Graph.feeds_of_outline houtline
  obtain ⟨block, hfind, -⟩ := (mem_roots hwf).1 hroot
  have hid : root ∈ p.session.graph.ids :=
    Graph.ids_of_outline houtline ▸ hwf.mem_ids_iff.2 ⟨block, hfind⟩
  obtain ⟨q, taken', hcascade, hsteps, -, -, -, hends⟩ :=
    @cascade_steps _ engine config (· = root) p root taken (hwf.of_outline houtline) h.taken hid rfl
      fun id hreached => h.unvisited hwf hdone hroot hnew (hfeeds ▸ hreached)
  obtain ⟨more, hmore, hsub⟩ := (cascade_along engine config p taken root).visits
  rw [hcascade] at hmore ⊢
  intro id hvisited
  by_cases hbefore : (p.visits.outcome? id).isSome
  · obtain ⟨former, hformer, habove⟩ := hwithin id hbefore
    refine ⟨former, List.mem_cons_of_mem root hformer, habove.imp_right fun ⟨hsuccess, hr⟩ => ?_⟩
    exact ⟨Steps.outcome?_eq hsteps hsuccess, hr⟩
  -- the block is new, so it is the load block or below it
  have hadded : ∀ (more : Visits) (order : List BlockId), q.visits = p.visits ++ more →
      (more.map Visit.block).Sublist order → id ∈ order := fun more order hmore hsub => by
    have hmem := Visits.outcome?_isSome_iff.1 hvisited
    rw [hmore, List.map_append, List.mem_append] at hmem
    exact hsub.subset (hmem.resolve_left (mt Visits.outcome?_isSome_iff.2 hbefore))
  refine ⟨root, List.mem_cons_self, ?_⟩
  by_cases hsuccess : q.visits.outcome? root = some .succeeded
  · rcases List.mem_cons.1 (hadded more _ hmore hsub) with hsame | hbelow
    · exact .inl hsame
    · refine .inr ⟨hsuccess, ?_⟩
      have hr := (Graph.mem_downstreamOf (hwf.of_outline houtline)).1 hbelow
      rwa [Graph.Reaches, hfeeds] at hr
  · obtain ⟨first, hfirst, honly⟩ := (visit_along engine config p root).visits
    exact .inl (List.mem_singleton.1 (hadded first _ (hends hsuccess ▸ hfirst) honly))

theorem Swept.within_all (hwf : s.graph.WellFormed) (h : Swept engine config s state done p taken)
    (hdone : done ⊆ s.graph.roots) (hrest : rest ⊆ s.graph.roots) (hnodup : rest.Nodup)
    (hnew : ∀ root ∈ rest, root ∉ done) (hwithin : Within s.graph done p.visits) :
    Within s.graph (rest.reverse ++ done)
      (rest.foldl (engine.cascade config) (p, taken)).1.visits := by
  induction rest generalizing p taken done with
  | nil => exact hwithin
  | cons root rest ih =>
    obtain ⟨hroot, hrest⟩ := List.cons_subset.1 hrest
    have hnew' := Graph.not_mem_cons_of_new hnodup hnew
    have hfresh := hnew root List.mem_cons_self
    obtain ⟨q, taken', hcascade, hnext⟩ := h.next hwf hdone hroot hfresh
    have hwithin' := h.within_next hwf hdone hroot hfresh hwithin
    rw [hcascade] at hwithin'
    rw [List.foldl_cons, hcascade, List.reverse_cons, List.append_assoc]
    exact ih hnext (List.cons_subset.2 ⟨hroot, hdone⟩) hrest (List.nodup_cons.1 hnodup).2 hnew' hwithin'

/-- The blocks that a run of a whole pipeline visits are the load blocks and those below a load block
    that has succeeded. -/
theorem runAll_visited_iff (hwf : s.graph.WellFormed) (engine : Engine σ) (config : RunConfig)
    (state : σ) : ((engine.runAll config s state).visits.outcome? id).isSome ↔
      ∃ root ∈ s.graph.roots, id = root ∨
        (engine.runAll config s state).visits.outcome? root = some .succeeded ∧
          s.graph.Reaches root id := by
  have hstart : Swept engine config s state [] ⟨s, state, []⟩ [] := ⟨.refl, taken_nil, by simp⟩
  have hwithin := hstart.within_all hwf (List.nil_subset _) (List.Subset.refl _) (roots_nodup hwf)
    (fun _ _ => List.not_mem_nil) fun _ hvisited => by cases hvisited
  obtain ⟨-, hcomplete⟩ := runAll_steps hwf engine config state
  constructor
  · intro hvisited
    obtain ⟨root, hroot, habove⟩ := hwithin id hvisited
    rw [List.append_nil, List.mem_reverse] at hroot
    exact ⟨root, hroot, habove⟩
  · rintro ⟨root, hroot, rfl | ⟨hsuccess, hr⟩⟩
    · exact (hcomplete id hroot).1
    · exact (hcomplete root hroot).2 hsuccess id hr

end BlockPipeline.Engine

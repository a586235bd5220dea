import BlockPipeline.Proofs.Run.Recorded

set_option autoImplicit false

/-! # From blocks down

A cascade keeps lists of its own: the blocks that have been taken up, and those under which blocks are
skipped. They agree with what has been recorded (`Marks`): the former are the blocks that have been
visited, and of the blocks that the cascade can reach the latter are those that were visited without
success. The second half depends on where the cascade begins: no block that it can reach may have
been visited before. This holds of the first cascade of a run, and of the others since load blocks
are fed by nothing, so that no block is below two of them.

Therefore every run of a block and every run of a whole pipeline is a sequence of steps (`run_steps`,
`runAll_steps`), and where it begins with a block that succeeds, it comes to everything below that
block. -/

namespace BlockPipeline.Engine

variable {σ : Type} {engine : Engine σ} {config : RunConfig} {g : Graph} {entry : BlockId → Prop}
  {p q : Progress σ} {d : Descent σ} {s : Session} {state : σ} {id root feeder : BlockId}
  {taken : List BlockId} {visits : Visits} {outcome : Outcome}

theorem isSuccess_iff : outcome.isSuccess = true ↔ outcome = .succeeded := by
  cases outcome <;> simp [Outcome.isSuccess]

/-- A visit records that the block succeeded or failed, and says which. -/
theorem visit_records {block : Block} (hfind : p.session.graph.find? id = some block) :
    ∃ outcome, (engine.visit config p id).1.visits = p.visits ++ [⟨id, outcome⟩] ∧
      (engine.visit config p id).2 = outcome.isSuccess := by
  refine ⟨_, ?_, visit_succeeded engine config hfind⟩
  rw [visit_eq engine config hfind]

/-! ## The marks of a cascade -/

/-- The blocks that have been taken up are those that have been visited. -/
def Taken (taken : List BlockId) (visits : Visits) : Prop :=
  ∀ id, id ∈ taken ↔ (visits.outcome? id).isSome

theorem Taken.cons (h : Taken taken visits) (id : BlockId) (outcome : Outcome) :
    Taken (id :: taken) (visits ++ [⟨id, outcome⟩]) := by
  intro other
  rw [List.mem_cons, h other, Visits.outcome?_isSome_iff, Visits.outcome?_isSome_iff, List.map_append,
    List.mem_append, List.map_singleton, List.mem_singleton, or_comm]

/-- What the lists of a cascade amount to. -/
structure Marks (g : Graph) (root : BlockId) (d : Descent σ) : Prop where
  taken : Taken d.taken d.progress.visits
  halted : ∀ id, Relation.ReflTransGen g.Feeds root id → (id ∈ d.halted ↔
    ∃ outcome, d.progress.visits.outcome? id = some outcome ∧ outcome ≠ .succeeded)

/-- A cascade that takes up a block, and halts it unless it succeeds, keeps its marks. -/
theorem Marks.record (h : Marks g root d) (hnone : d.progress.visits.outcome? id = none)
    (hvisits : q.visits = d.progress.visits ++ [⟨id, outcome⟩]) :
    Marks g root ⟨q, id :: d.taken, if outcome.isSuccess then d.halted else id :: d.halted⟩ := by
  refine ⟨?_, fun other hreached => ?_⟩
  · show Taken (id :: d.taken) q.visits
    rw [hvisits]
    exact h.taken.cons id outcome
  · simp only [hvisits]
    by_cases hsame : other = id
    · subst hsame
      -- not having been visited, it has not been halted either
      have hnot : other ∉ d.halted := fun hmem => by
        obtain ⟨former, hformer, -⟩ := (h.halted other hreached).1 hmem
        rw [hnone] at hformer
        cases hformer
      rw [Visits.outcome?_append_self hnone]
      by_cases hsuccess : outcome.isSuccess = true
      · rw [if_pos hsuccess]
        simpa [isSuccess_iff.1 hsuccess] using hnot
      · rw [if_neg hsuccess]
        simpa using mt isSuccess_iff.2 hsuccess
    · have hhalted : other ∈ (if outcome.isSuccess = true then d.halted else id :: d.halted) ↔
          other ∈ d.halted := by
        split
        · rfl
        · rw [List.mem_cons, or_iff_right hsame]
      rw [hhalted, h.halted other hreached, Visits.outcome?_append_of_ne (Ne.symm hsame)]

/-- Going on to a block whose feeder has been visited is a step, unless it has been taken up itself. -/
theorem descend_steps (hwf : g.WellFormed) (hg : d.progress.session.graph.outline = g.outline)
    (hmarks : Marks g root d) (hf : g.Feeds feeder id)
    (hreached : Relation.ReflTransGen g.Feeds root feeder)
    (hfeeder : (d.progress.visits.outcome? feeder).isSome) :
    engine.Steps config entry d.progress (engine.descend config d id).progress ∧
      Marks g root (engine.descend config d id) ∧
      ((engine.descend config d id).progress.visits.outcome? id).isSome := by
  obtain ⟨above, habove⟩ := Option.isSome_iff_exists.1 hfeeder
  rw [← Graph.feeds_of_outline hg] at hf
  have hinput : d.progress.session.graph.inputOf id = some feeder := hf
  have hnow := hwf.of_outline hg
  obtain ⟨block, hfind⟩ := hnow.mem_ids_iff.1 (hnow.fed_mem hf)
  have hhalted := hmarks.halted feeder hreached
  unfold descend
  by_cases htaken : id ∈ d.taken
  · rw [if_pos htaken]
    exact ⟨.refl, hmarks, (hmarks.taken id).1 htaken⟩
  have hnone : d.progress.visits.outcome? id = none := by simpa using mt (hmarks.taken id).2 htaken
  rw [if_neg htaken, hinput, Option.any_some]
  by_cases hsuccess : above = .succeeded
  · subst hsuccess
    have hnot : feeder ∉ d.halted := fun hmem => by
      obtain ⟨other, hother, hne⟩ := hhalted.1 hmem
      exact hne (Option.some.inj (hother.symm.trans habove))
    rw [if_neg (by simpa using hnot)]
    obtain ⟨outcome, hvisits, hsays⟩ := @visit_records _ engine config d.progress id block hfind
    have hstep : engine.Step config entry d.progress (engine.visit config d.progress id).1 :=
      .run hfind hnone (.inr ⟨feeder, hf, habove⟩)
    have hrecord := hmarks.record hnone hvisits
    rw [← hsays] at hrecord
    refine ⟨.single hstep, hrecord, ?_⟩
    simp only [hvisits]
    rw [Visits.outcome?_append_self hnone]
    rfl
  · have hmem : feeder ∈ d.halted := hhalted.2 ⟨above, habove, hsuccess⟩
    rw [if_pos (by simpa using hmem)]
    have hvisits : ({ d.progress with visits := d.progress.visits ++ [⟨id, .skipped⟩] } :
        Progress σ).visits = d.progress.visits ++ [⟨id, .skipped⟩] := rfl
    refine ⟨.single (.skip hnone hf habove hsuccess), hmarks.record hnone hvisits, ?_⟩
    rw [Visits.outcome?_append_self hnone]
    rfl

/-- Going through blocks in an order that follows the connections visits all of them. -/
theorem descend_all (hwf : g.WellFormed) (hg : d.progress.session.graph.outline = g.outline)
    (hmarks : Marks g root d) {done order : List BlockId} (hfollows : g.Follows done order)
    (hdone : ∀ id ∈ done, Relation.ReflTransGen g.Feeds root id ∧
      (d.progress.visits.outcome? id).isSome)
    (hfed : ∀ id ∈ order, ∃ feeder, g.Feeds feeder id) :
    engine.Steps config entry d.progress (order.foldl (engine.descend config) d).progress ∧
      Marks g root (order.foldl (engine.descend config) d) ∧
      ∀ id ∈ order,
        ((order.foldl (engine.descend config) d).progress.visits.outcome? id).isSome := by
  -- on the order; what has been visited grows with it, and stays visited
  induction order generalizing d done with
  | nil => exact ⟨.refl, hmarks, by simp⟩
  | cons id rest ih =>
    obtain ⟨feeder, hf⟩ := hfed id List.mem_cons_self
    obtain ⟨hreached, hvisited⟩ := hdone feeder (hfollows.1 feeder hf)
    obtain ⟨hstep, hmarks', hnow⟩ :
        engine.Steps config entry d.progress (engine.descend config d id).progress ∧ _ :=
      descend_steps hwf hg hmarks hf hreached hvisited
    have hdone' : ∀ other ∈ id :: done, Relation.ReflTransGen g.Feeds root other ∧
        ((engine.descend config d id).progress.visits.outcome? other).isSome :=
      fun other hother => by
        rcases List.mem_cons.1 hother with rfl | hother
        · exact ⟨hreached.tail hf, hnow⟩
        · exact ⟨(hdone other hother).1, hstep.visited (hdone other hother).2⟩
    obtain ⟨hrest, hmarks', hall⟩ := ih (hstep.outline_eq.trans hg) hmarks' hfollows.2 hdone'
      fun other hother => hfed other (List.mem_cons_of_mem _ hother)
    refine ⟨hstep.trans hrest, hmarks', fun other hother => ?_⟩
    rcases List.mem_cons.1 hother with rfl | hother
    · exact hrest.visited hnow
    · exact hall other hother

/-- Going through all blocks below a block that has just succeeded visits all of them. -/
theorem below_steps (hwf : p.session.graph.WellFormed) (htaken : Taken taken p.visits)
    (hroot : p.visits.outcome? root = some .succeeded)
    (hbelow : ∀ id, p.session.graph.Reaches root id → p.visits.outcome? id = none) :
    ∃ d, (p.session.graph.downstreamOf root).foldl (engine.descend config) ⟨p, taken, []⟩ = d ∧
      engine.Steps config entry p d.progress ∧ Taken d.taken d.progress.visits ∧
      ∀ id, p.session.graph.Reaches root id → (d.progress.visits.outcome? id).isSome := by
  -- nothing is halted yet: of the blocks within reach only the root has been visited
  have hmarks : Marks p.session.graph root ⟨p, taken, []⟩ := by
    refine ⟨htaken, fun id hreached => iff_of_false List.not_mem_nil ?_⟩
    rintro ⟨outcome, houtcome, hne⟩
    have hnow : p.visits.outcome? id = some outcome := houtcome
    rcases Relation.reflTransGen_iff_eq_or_transGen.1 hreached with rfl | hr
    · exact hne (Option.some.inj (hnow.symm.trans hroot))
    · rw [hbelow id hr] at hnow
      cases hnow
  have hdone : ∀ id ∈ [root], Relation.ReflTransGen p.session.graph.Feeds root id ∧
      (p.visits.outcome? id).isSome := fun id hid => by
    obtain rfl := List.mem_singleton.1 hid
    exact ⟨.refl, by rw [hroot]; rfl⟩
  have hfed : ∀ id ∈ p.session.graph.downstreamOf root,
      ∃ feeder, p.session.graph.Feeds feeder id := fun id hid => by
    obtain ⟨feeder, -, hf⟩ := Relation.TransGen.tail'_iff.1 ((Graph.mem_downstreamOf hwf).1 hid)
    exact ⟨feeder, hf⟩
  obtain ⟨hsteps, hmarks', hall⟩ :=
    descend_all hwf rfl hmarks (Graph.downstreamOf_follows hwf root) hdone hfed
  exact ⟨_, rfl, hsteps, hmarks'.taken, fun id hr => hall id ((Graph.mem_downstreamOf hwf).2 hr)⟩

/-! ## Cascades -/

/-- A cascade from a block that has not been taken up visits it, and goes on if it succeeds. -/
theorem cascade_eq (hroot : root ∉ taken) :
    engine.cascade config (p, taken) root =
      if (engine.visit config p root).2 then
        let d := ((engine.visit config p root).1.session.graph.downstreamOf root).foldl
          (engine.descend config) ⟨(engine.visit config p root).1, root :: taken, []⟩
        (d.progress, d.taken)
      else ((engine.visit config p root).1, root :: taken) := by
  rw [cascade, if_neg hroot]

/-- A cascade from an entry visits the entry and, if that succeeds, all blocks that it reaches. None of
    them may have been visited before. -/
theorem cascade_steps (hwf : p.session.graph.WellFormed) (htaken : Taken taken p.visits)
    (hroot : root ∈ p.session.graph.ids) (hentry : entry root)
    (hnone : ∀ id, Relation.ReflTransGen p.session.graph.Feeds root id →
      p.visits.outcome? id = none) :
    ∃ q taken', engine.cascade config (p, taken) root = (q, taken') ∧
      engine.Steps config entry p q ∧ Taken taken' q.visits ∧ (q.visits.outcome? root).isSome ∧
      (q.visits.outcome? root = some .succeeded →
        ∀ id, p.session.graph.Reaches root id → (q.visits.outcome? id).isSome) ∧
      (q.visits.outcome? root ≠ some .succeeded → q = (engine.visit config p root).1) := by
  obtain ⟨block, hfind⟩ := hwf.mem_ids_iff.1 hroot
  have hrootNone := hnone root .refl
  have hnot : root ∉ taken := mt (htaken root).1 (by simp [hrootNone])
  obtain ⟨outcome, hvisits, hsays⟩ := @visit_records _ engine config p root block hfind
  have hstep : engine.Step config entry p (engine.visit config p root).1 :=
    .run hfind hrootNone (.inl hentry)
  have houtcome : (engine.visit config p root).1.visits.outcome? root = some outcome := by
    rw [hvisits]
    exact Visits.outcome?_append_self hrootNone
  have htaken' : Taken (root :: taken) (engine.visit config p root).1.visits := by
    rw [hvisits]
    exact htaken.cons root outcome
  rw [cascade_eq hnot, hsays]
  by_cases hsuccess : outcome = .succeeded
  · rw [if_pos (isSuccess_iff.2 hsuccess)]
    have houtline := hstep.outline_eq
    have hfeeds := Graph.feeds_of_outline houtline
    have hbelow : ∀ id, (engine.visit config p root).1.session.graph.Reaches root id →
        (engine.visit config p root).1.visits.outcome? id = none := fun id hr => by
      rw [Graph.Reaches, hfeeds] at hr
      have hne : (⟨root, outcome⟩ : Visit).block ≠ id := hwf.reaches_ne hr
      rw [hvisits, Visits.outcome?_append_of_ne hne]
      exact hnone id hr.to_reflTransGen
    obtain ⟨d, hd, hsteps, htakenBelow, hall⟩ :=
      @below_steps _ engine config entry _ root _ (hwf.of_outline houtline) htaken'
        (hsuccess ▸ houtcome) hbelow
    -- what was recorded of the root stays what is found
    have hrootNow := hsteps.outcome?_eq houtcome
    refine ⟨d.progress, d.taken, by rw [hd], .head hstep hsteps, htakenBelow, ?_, fun _ id hr => ?_,
      fun hne => absurd (hsuccess ▸ hrootNow) hne⟩
    · rw [hrootNow]
      rfl
    · rw [Graph.Reaches, ← hfeeds] at hr
      exact hall id hr
  · rw [if_neg (mt isSuccess_iff.1 hsuccess)]
    refine ⟨_, _, rfl, .single hstep, htaken', ?_, fun h => ?_, fun _ => rfl⟩
    · rw [houtcome]
      rfl
    · exact absurd (Option.some.inj (houtcome.symm.trans h)) hsuccess

/-! ## Whole runs -/

theorem taken_nil : Taken [] [] := fun _ => iff_of_false List.not_mem_nil (by simp [Visits.outcome?])

/-- The run of a block is the cascade from it. -/
theorem run_eq (hwf : s.graph.WellFormed) (hid : id ∈ s.graph.ids) :
    engine.run config s state id = .ok (engine.cascade config (⟨s, state, []⟩, []) id).1 := by
  rw [run, if_pos (hwf.contains_iff.2 hid)]
  rfl

/-- The run of a block begins with the block, and ends with it unless it succeeds. -/
theorem run_steps (hwf : s.graph.WellFormed) (hid : id ∈ s.graph.ids) :
    ∃ p, engine.run config s state id = .ok p ∧
      engine.Steps config (· = id) ⟨s, state, []⟩ p ∧ (p.visits.outcome? id).isSome ∧
      (p.visits.outcome? id = some .succeeded →
        ∀ other, s.graph.Reaches id other → (p.visits.outcome? other).isSome) ∧
      (p.visits.outcome? id ≠ some .succeeded →
        p = (engine.visit config ⟨s, state, []⟩ id).1) := by
  obtain ⟨p, taken, hcascade, hsteps, -, hrest⟩ :=
    @cascade_steps _ engine config (· = id) ⟨s, state, []⟩ id [] hwf taken_nil hid rfl fun _ _ => rfl
  refine ⟨p, ?_, hsteps, hrest⟩
  rw [run_eq hwf hid, hcascade]

/-- Every run of a block that takes place is a sequence of steps. -/
theorem steps_of_run (hwf : s.graph.WellFormed) (ran : engine.run config s state id = .ok p) :
    engine.Steps config (· = id) ⟨s, state, []⟩ p := by
  have hid : id ∈ s.graph.ids := by
    by_contra hnot
    rw [run, if_neg (mt hwf.contains_iff.1 hnot)] at ran
    cases ran
  obtain ⟨q, hrun, hsteps, -⟩ := @run_steps _ engine config s state id hwf hid
  rwa [Except.ok.inj (ran.symm.trans hrun)]

theorem roots_nodup (hwf : g.WellFormed) : g.roots.Nodup := by
  have hids : (g.blocks.map Block.id).Nodup := hwf.map_id_blocks ▸ hwf.ids_nodup
  exact hids.sublist (List.filter_sublist.map _)

theorem mem_roots (hwf : g.WellFormed) :
    id ∈ g.roots ↔ ∃ block, g.find? id = some block ∧ block.kind.isSource = true := by
  simp only [Graph.roots, List.mem_map, List.mem_filter, hwf.mem_blocks_iff]
  constructor
  · rintro ⟨block, ⟨hfind, hkind⟩, rfl⟩
    exact ⟨block, hfind, hkind⟩
  · rintro ⟨block, hfind, hkind⟩
    obtain rfl := hwf.id_of_find? hfind
    exact ⟨block, ⟨hfind, hkind⟩, rfl⟩

theorem not_fed_of_root (hwf : g.WellFormed) (hroot : id ∈ g.roots) : ¬ g.Feeds feeder id := by
  intro hf
  obtain ⟨block, hfind, hkind⟩ := (mem_roots hwf).1 hroot
  rw [hwf.fed_kind hf hfind] at hkind
  cases hkind

/-- How a run of a whole pipeline stands after the cascades from some of its load blocks. -/
structure Swept (engine : Engine σ) (config : RunConfig) (s : Session) (state : σ)
    (done : List BlockId) (p : Progress σ) (taken : List BlockId) : Prop where
  steps : engine.Steps config (· ∈ done) ⟨s, state, []⟩ p
  taken : Taken taken p.visits
  complete : ∀ root ∈ done, (p.visits.outcome? root).isSome ∧
    (p.visits.outcome? root = some .succeeded →
      ∀ id, s.graph.Reaches root id → (p.visits.outcome? id).isSome)

/-- No block below a load block has been visited before the cascade from it. -/
theorem Swept.unvisited (hwf : s.graph.WellFormed) {done : List BlockId}
    (h : Swept engine config s state done p taken) (hdone : done ⊆ s.graph.roots)
    (hroot : root ∈ s.graph.roots) (hnew : root ∉ done)
    (hreached : Relation.ReflTransGen s.graph.Feeds root id) : p.visits.outcome? id = none := by
  rw [← Option.not_isSome_iff_eq_none]
  intro hvisited
  -- it would be below a former load block as well, and nothing feeds either
  have htop : ∃ former ∈ done, Relation.ReflTransGen s.graph.Feeds former id := by
    rcases (Steps.recorded h.steps).reached (Visits.outcome?_isSome_iff.1 hvisited) with
      hid | ⟨former, hformer, hr⟩
    · exact ⟨id, hid, .refl⟩
    · exact ⟨former, hformer, hr.to_reflTransGen⟩
  obtain ⟨former, hformer, hr⟩ := htop
  have hsame := Graph.top_unique hr hreached (fun _ => not_fed_of_root hwf (hdone hformer))
    (fun _ => not_fed_of_root hwf hroot)
  exact hnew (hsame ▸ hformer)

theorem Swept.next (hwf : s.graph.WellFormed) {done : List BlockId}
    (h : Swept engine config s state done p taken) (hdone : done ⊆ s.graph.roots)
    (hroot : root ∈ s.graph.roots) (hnew : root ∉ done) :
    ∃ q taken', engine.cascade config (p, taken) root = (q, taken') ∧
      Swept engine config s state (root :: done) q taken' := by
  have houtline := Steps.outline_eq h.steps
  have hfeeds := Graph.feeds_of_outline houtline
  obtain ⟨block, hfind, -⟩ := (mem_roots hwf).1 hroot
  have hid : root ∈ p.session.graph.ids :=
    Graph.ids_of_outline houtline ▸ hwf.mem_ids_iff.2 ⟨block, hfind⟩
  obtain ⟨q, taken', hcascade, hsteps, htaken, hvisited, hbelow, -⟩ :=
    @cascade_steps _ engine config (· = root) p root taken (hwf.of_outline houtline) h.taken hid rfl
      fun id hreached => h.unvisited hwf hdone hroot hnew (hfeeds ▸ hreached)
  refine ⟨q, taken', hcascade, ?_, htaken, fun other hother => ?_⟩
  · have hbefore : engine.Steps config (· ∈ root :: done) ⟨s, state, []⟩ p :=
      Steps.imp (fun id hid => List.mem_cons_of_mem root hid) h.steps
    exact hbefore.trans (Steps.imp (fun id (hid : id = root) => hid ▸ List.mem_cons_self) hsteps)
  · rcases List.mem_cons.1 hother with rfl | hother
    · exact ⟨hvisited, fun hsuccess id hr => hbelow hsuccess id (by rwa [Graph.Reaches, hfeeds])⟩
    · obtain ⟨hbefore, hall⟩ := h.complete other hother
      refine ⟨Steps.visited hsteps hbefore, fun hsuccess id hr => Steps.visited hsteps ?_⟩
      -- what was recorded of a former load block has not changed
      obtain ⟨outcome, houtcome⟩ := Option.isSome_iff_exists.1 hbefore
      have hsame := (Steps.outcome?_eq hsteps houtcome).symm.trans hsuccess
      exact hall (houtcome.trans hsame) id hr

theorem Swept.all (hwf : s.graph.WellFormed) {done rest : List BlockId}
    (h : Swept engine config s state done p taken) (hdone : done ⊆ s.graph.roots)
    (hrest : rest ⊆ s.graph.roots) (hnodup : rest.Nodup) (hnew : ∀ root ∈ rest, root ∉ done) :
    ∃ q taken', rest.foldl (engine.cascade config) (p, taken) = (q, taken') ∧
      Swept engine config s state (rest.reverse ++ done) q taken' := by
  induction rest generalizing p taken done with
  | nil => exact ⟨p, taken, rfl, h⟩
  | cons root rest ih =>
    obtain ⟨hroot, hrest⟩ := List.cons_subset.1 hrest
    have hnew' := Graph.not_mem_cons_of_new hnodup hnew
    obtain ⟨q, taken', hcascade, hnext⟩ := h.next hwf hdone hroot (hnew root List.mem_cons_self)
    rw [List.foldl_cons, hcascade, List.reverse_cons, List.append_assoc]
    exact ih hnext (List.cons_subset.2 ⟨hroot, hdone⟩) hrest (List.nodup_cons.1 hnodup).2 hnew'

/-- The run of a whole pipeline begins with its load blocks. -/
theorem runAll_steps (hwf : s.graph.WellFormed) (engine : Engine σ) (config : RunConfig) (state : σ) :
    engine.Steps config (· ∈ s.graph.roots) ⟨s, state, []⟩ (engine.runAll config s state) ∧
      ∀ root ∈ s.graph.roots, ((engine.runAll config s state).visits.outcome? root).isSome ∧
        ((engine.runAll config s state).visits.outcome? root = some .succeeded →
          ∀ id, s.graph.Reaches root id →
            ((engine.runAll config s state).visits.outcome? id).isSome) := by
  have hstart : Swept engine config s state [] ⟨s, state, []⟩ [] := ⟨.refl, taken_nil, by simp⟩
  obtain ⟨q, taken, hfold, hswept⟩ := hstart.all hwf (List.nil_subset _) (List.Subset.refl _)
    (roots_nodup hwf) (fun _ _ => List.not_mem_nil)
  have hroots : ∀ id, id ∈ s.graph.roots.reverse ++ [] ↔ id ∈ s.graph.roots := fun id => by
    rw [List.append_nil, List.mem_reverse]
  rw [runAll, hfold]
  exact ⟨Steps.imp (fun id hid => (hroots id).1 hid) hswept.steps,
    fun root hroot => hswept.complete root ((hroots root).2 hroot)⟩

end BlockPipeline.Engine

import BlockPipeline.Proofs.Graph.Topological
import BlockPipeline.Proofs.Run.Cascades
import Mathlib.Data.List.Flatten

set_option autoImplicit false

/-! # The order of a run

A run of a whole pipeline takes the load blocks in pipeline order, and behind each of them what is
below it, the nearest first (`Graph.runOrder`). It need not come to all of these blocks, but it comes
to them in this order (`runAll_along`). The order is another one than the topological order in general.
The two agree if pipeline order itself is such that a run keeps to it (`topologicalOrder_filter`). -/

namespace BlockPipeline

/-- A list without repetitions is what a part of it selects from it. -/
theorem filter_mem_of_sublist {α : Type} [DecidableEq α] {part whole : List α} (hnodup : whole.Nodup)
    (h : part.Sublist whole) : whole.filter (· ∈ part) = part := by
  induction h with
  | slnil => rfl
  | @cons part whole a h ih =>
    obtain ⟨ha, hwhole⟩ := List.nodup_cons.1 hnodup
    have hnot : a ∉ part := fun hmem => ha (h.subset hmem)
    rw [List.filter_cons_of_neg (by simpa using hnot), ih hwhole]
  | @cons_cons part whole a h ih =>
    obtain ⟨ha, hwhole⟩ := List.nodup_cons.1 hnodup
    have hsame : whole.filter (· ∈ a :: part) = whole.filter (· ∈ part) := by
      refine List.filter_congr fun b hb => ?_
      have hne : b ≠ a := fun heq => ha (heq ▸ hb)
      simp [hne]
    rw [List.filter_cons_of_pos (by simp), hsame, ih hwhole]

namespace Visits

variable {visits other : Visits} {order : List BlockId}

theorem filterMap_blocks (h : (visits.map Visit.block).Nodup) :
    ((visits.map Visit.block).filterMap fun id => (visits.outcome? id).map (Visit.mk id)) = visits := by
  have hvisits : ∀ visit ∈ visits,
      (visits.outcome? visit.block).map (Visit.mk visit.block) = some visit := by
    intro visit hvisit
    rw [(outcome?_eq_some_iff h).2 hvisit]
    rfl
  rw [List.filterMap_map]
  exact (List.filterMap_congr hvisits).trans List.filterMap_some

/-- Visits that keep to one order and record the same of every block are the same. -/
theorem eq_of_outcomes (hnodup : order.Nodup) (h : (visits.map Visit.block).Sublist order)
    (hother : (other.map Visit.block).Sublist order)
    (hsame : ∀ id, other.outcome? id = visits.outcome? id) : other = visits := by
  have hblocks : other.map Visit.block = visits.map Visit.block := by
    rw [← filter_mem_of_sublist hnodup h, ← filter_mem_of_sublist hnodup hother]
    refine List.filter_congr fun id _ => ?_
    rw [decide_eq_decide, ← outcome?_isSome_iff, ← outcome?_isSome_iff, hsame]
  rw [← filterMap_blocks (hnodup.sublist h), ← filterMap_blocks (hnodup.sublist hother), hblocks]
  simp only [hsame]

end Visits

namespace Graph

variable {g g' : Graph} {id a b : BlockId} {done done' order : List BlockId}

theorem downstreamOf_of_outline (h : g'.outline = g.outline) : g'.downstreamOf = g.downstreamOf := by
  funext id
  refine downstreamOf_congr (ids_of_outline h) (links_of_outline h) ?_
  have hfind := congrArg Option.isSome (find?_of_outline h id)
  rwa [Option.isSome_map, Option.isSome_map] at hfind

/-! ## The order of a run -/

/-- The load blocks in pipeline order, and behind each of them all blocks below it, the nearest
    first. -/
def runOrder (g : Graph) : List BlockId := g.roots.flatMap fun root => root :: g.downstreamOf root

theorem mem_downward (h : g.WellFormed) {root : BlockId} :
    id ∈ root :: g.downstreamOf root ↔ Relation.ReflTransGen g.Feeds root id := by
  rw [List.mem_cons, mem_downstreamOf h, Relation.reflTransGen_iff_eq_or_transGen]
  rfl

theorem mem_runOrder (h : g.WellFormed) :
    id ∈ g.runOrder ↔ ∃ root ∈ g.roots, Relation.ReflTransGen g.Feeds root id := by
  simp only [runOrder, List.mem_flatMap, mem_downward h]

/-- What is below a block of the order is in the order. -/
theorem fed_mem_runOrder (h : g.WellFormed) (ha : a ∈ g.runOrder)
    (hreached : Relation.ReflTransGen g.Feeds a b) : b ∈ g.runOrder := by
  obtain ⟨root, hroot, hr⟩ := (mem_runOrder h).1 ha
  exact (mem_runOrder h).2 ⟨root, hroot, hr.trans hreached⟩

/-- No block is below itself. -/
theorem downward_nodup (h : g.WellFormed) (root : BlockId) : (root :: g.downstreamOf root).Nodup := by
  refine List.nodup_cons.2 ⟨?_, downstreamOf_nodup h root⟩
  intro hmem
  exact h.acyclic root ((mem_downstreamOf h).1 hmem)

/-- No block is below two load blocks. -/
theorem runOrder_nodup (h : g.WellFormed) : g.runOrder.Nodup := by
  refine List.nodup_flatMap.2 ⟨?_, ?_⟩
  · intro root _
    exact downward_nodup h root
  · refine (Engine.roots_nodup h).imp_of_mem ?_
    intro first second hfirst hsecond hne id hid hother
    refine hne (top_unique ((mem_downward h).1 hid) ((mem_downward h).1 hother) ?_ ?_)
    · exact fun _ => Engine.not_fed_of_root h hfirst
    · exact fun _ => Engine.not_fed_of_root h hsecond

/-- As far as the run goes, the topological order lists the same blocks. -/
theorem runOrder_perm (h : g.WellFormed) :
    g.runOrder.Perm (g.topologicalOrder.filter (· ∈ g.runOrder)) := by
  have hnodup := (topologicalOrder_ordered h).nodup
  refine (List.perm_ext_iff_of_nodup (runOrder_nodup h) (hnodup.filter _)).2 fun id => ?_
  rw [List.mem_filter, mem_topologicalOrder h, decide_eq_true_iff]
  refine ⟨fun hid => ⟨?_, hid⟩, fun hid => hid.2⟩
  obtain ⟨root, hroot, hr⟩ := (mem_runOrder h).1 hid
  rcases hr.cases_tail with rfl | ⟨feeder, -, hf⟩
  · obtain ⟨block, hfind, -⟩ := (Engine.mem_roots h).1 hroot
    exact h.mem_ids_iff.2 ⟨block, hfind⟩
  · exact h.fed_mem hf

theorem Follows.mono (h : g.Follows done order) (hsub : done ⊆ done') : g.Follows done' order := by
  induction order generalizing done done' with
  | nil => trivial
  | cons id rest ih =>
    refine ⟨fun feeder hf => hsub (h.1 feeder hf), ih h.2 ?_⟩
    exact List.cons_subset_cons id hsub

theorem runOrder_follows (h : g.WellFormed) : g.Follows [] g.runOrder := by
  have hroots : ∀ roots ⊆ g.roots, ∀ done,
      g.Follows done (roots.flatMap fun root => root :: g.downstreamOf root) := by
    intro roots
    induction roots with
    | nil => intro _ done; trivial
    | cons root roots ih =>
      intro hsub done
      obtain ⟨hroot, hroots⟩ := List.cons_subset.1 hsub
      rw [List.flatMap_cons, follows_append]
      refine ⟨⟨fun feeder hf => absurd hf (Engine.not_fed_of_root h hroot), ?_⟩, ih hroots _⟩
      refine (downstreamOf_follows h root).mono ?_
      exact List.cons_subset_cons root (List.nil_subset done)
  exact hroots g.roots (List.Subset.refl _) []

/-! ## Where the topological order keeps to pipeline order -/

/-- A block whose feeder is in order already is put right behind the blocks in order. -/
theorem extendOrder_of_fed (h : g.WellFormed) {ordered : List BlockId} (hid : id ∈ g.ids)
    (hnew : id ∉ ordered) (hfed : ∀ feeder, g.Feeds feeder id → feeder ∈ ordered) :
    g.extendOrder ordered id = ordered ++ [id] := by
  have hchain : (g.chain id).takeWhile (· ∉ ordered) = [id] := by
    rw [chain_eq h hid, List.takeWhile_cons_of_pos (by simpa using hnew)]
    cases hinput : g.inputOf id with
    | none => rfl
    | some feeder =>
      have hmem : feeder ∈ ordered := hfed feeder hinput
      rw [Option.map_some, Option.getD_some, chain_eq h (h.feeder_mem hinput),
        List.takeWhile_cons_of_neg (by simpa using hmem)]
  rw [extendOrder, hchain, List.reverse_singleton]

/-- What stands in front of a block that is outside the order is outside the order too. -/
theorem filter_extendOrder (hdown : ∀ a b, Relation.ReflTransGen g.Feeds a b → a ∈ order → b ∈ order)
    (hnot : id ∉ order) (ordered : List BlockId) :
    (g.extendOrder ordered id).filter (· ∈ order) = ordered.filter (· ∈ order) := by
  have hnone : ((g.chain id).takeWhile (· ∉ ordered)).reverse.filter (· ∈ order) = [] := by
    rw [List.filter_eq_nil_iff]
    intro a ha hmem
    have hchain : a ∈ g.chain id := (List.takeWhile_prefix _).subset (List.mem_reverse.1 ha)
    exact hnot (hdown a id (reaches_of_mem_climb hchain) (by simpa using hmem))
  rw [extendOrder, List.filter_append, hnone, List.append_nil]

theorem filter_foldl_extendOrder (h : g.WellFormed)
    (hdown : ∀ a b, Relation.ReflTransGen g.Feeds a b → a ∈ order → b ∈ order)
    (front : List BlockId) {ids ordered : List BlockId} (hids : ids ⊆ g.ids)
    (hfollows : g.Follows front.reverse (ids.filter (· ∈ order)))
    (hnodup : ids.Nodup) (hnew : ∀ id ∈ ids, id ∉ front)
    (hfront : ordered.filter (· ∈ order) = front) :
    (ids.foldl g.extendOrder ordered).filter (· ∈ order) = front ++ ids.filter (· ∈ order) := by
  -- on the blocks still to come; `front` is what has been taken up of the order
  induction ids generalizing ordered front with
  | nil => rw [List.foldl_nil, hfront, List.filter_nil, List.append_nil]
  | cons id rest ih =>
    obtain ⟨hid, hrest⟩ := List.cons_subset.1 hids
    obtain ⟨hfirst, hnodup⟩ := List.nodup_cons.1 hnodup
    obtain ⟨hidNew, hrestNew⟩ := List.forall_mem_cons.1 hnew
    rw [List.foldl_cons]
    by_cases hmem : id ∈ order
    · rw [List.filter_cons_of_pos (by simpa using hmem)] at hfollows ⊢
      obtain ⟨hfed, hfollows⟩ := hfollows
      have hin : ∀ a, a ∈ front → a ∈ ordered := by
        intro a ha
        rw [← hfront] at ha
        exact (List.mem_filter.1 ha).1
      have hidOrdered : id ∉ ordered := by
        intro hordered
        refine hidNew ?_
        rw [← hfront]
        exact List.mem_filter.2 ⟨hordered, by simpa using hmem⟩
      have hextend := extendOrder_of_fed h hid hidOrdered fun feeder hf =>
        hin feeder (List.mem_reverse.1 (hfed feeder hf))
      rw [hextend, ih (front ++ [id]) hrest]
      · rw [List.append_assoc, List.singleton_append]
      · rwa [List.reverse_append, List.reverse_singleton, List.singleton_append]
      · exact hnodup
      · intro other hother
        rw [List.mem_append, List.mem_singleton, not_or]
        exact ⟨hrestNew other hother, fun hsame => hfirst (hsame ▸ hother)⟩
      · rw [List.filter_append, hfront, List.filter_cons_of_pos (by simpa using hmem), List.filter_nil]
    · rw [List.filter_cons_of_neg (by simpa using hmem)] at hfollows ⊢
      refine ih front hrest hfollows hnodup hrestNew ?_
      rw [filter_extendOrder hdown hmem, hfront]

/-- If a run keeps to pipeline order, so does the topological order, as far as the run goes. -/
theorem topologicalOrder_filter (h : g.WellFormed) (hsub : g.runOrder.Sublist g.ids) :
    g.topologicalOrder.filter (· ∈ g.runOrder) = g.runOrder := by
  have hids := filter_mem_of_sublist h.ids_nodup hsub
  have hdown : ∀ a b, Relation.ReflTransGen g.Feeds a b → a ∈ g.runOrder → b ∈ g.runOrder :=
    fun a b hr ha => fed_mem_runOrder h ha hr
  have hfollows : g.Follows [] (g.ids.filter (· ∈ g.runOrder)) := by
    rw [hids]
    exact runOrder_follows h
  rw [topologicalOrder, filter_foldl_extendOrder h hdown [] (List.Subset.refl _) hfollows
    h.ids_nodup (fun _ _ => List.not_mem_nil) rfl, List.nil_append, hids]

end Graph

/-! ## Runs keep to the order -/

namespace Engine

variable {σ : Type} {p q r : Progress σ} {order more : List BlockId}

/-- The run has come from one point to another along these blocks: of them, in their order, it has
    visited some, and the pipeline is the same. -/
structure Along (order : List BlockId) (p q : Progress σ) : Prop where
  outline : q.session.graph.outline = p.session.graph.outline
  visits : ∃ rest : Visits, q.visits = p.visits ++ rest ∧ (rest.map Visit.block).Sublist order

namespace Along

theorem refl (order : List BlockId) (p : Progress σ) : Along order p p :=
  ⟨rfl, [], (List.append_nil _).symm, List.nil_sublist order⟩

theorem trans (h : Along order p q) (hmore : Along more q r) : Along (order ++ more) p r := by
  obtain ⟨rest, hrest, hsub⟩ := h.visits
  obtain ⟨further, hfurther, hsub'⟩ := hmore.visits
  refine ⟨hmore.outline.trans h.outline, rest ++ further, ?_, ?_⟩
  · rw [hfurther, hrest, List.append_assoc]
  · rw [List.map_append]
    exact hsub.append hsub'

/-- From the beginning of a run. -/
theorem sublist {s : Session} {state : σ} (h : Along order ⟨s, state, []⟩ p) :
    (p.visits.map Visit.block).Sublist order := by
  obtain ⟨rest, hrest, hsub⟩ := h.visits
  rwa [hrest]

end Along

theorem visit_along (engine : Engine σ) (config : RunConfig) (p : Progress σ) (id : BlockId) :
    Along [id] p (engine.visit config p id).1 := by
  cases hfind : p.session.graph.find? id with
  | none =>
    have hsame : engine.visit config p id = (p, false) := by rw [visit, hfind]
    rw [hsame]
    exact .refl [id] p
  | some block =>
    rw [visit_eq engine config hfind]
    exact ⟨Session.outline_conclude _ _ _, _, rfl, List.Sublist.refl _⟩

theorem descend_along (engine : Engine σ) (config : RunConfig) (d : Descent σ) (id : BlockId) :
    Along [id] d.progress (engine.descend config d id).progress := by
  unfold descend
  split
  · exact .refl [id] d.progress
  · split
    · exact ⟨rfl, [⟨id, .skipped⟩], rfl, List.Sublist.refl _⟩
    · exact visit_along engine config d.progress id

theorem foldl_descend_along (engine : Engine σ) (config : RunConfig) (order : List BlockId)
    (d : Descent σ) : Along order d.progress (order.foldl (engine.descend config) d).progress := by
  induction order generalizing d with
  | nil => exact .refl [] d.progress
  | cons id rest ih => exact (descend_along engine config d id).trans (ih _)

theorem cascade_along (engine : Engine σ) (config : RunConfig) (p : Progress σ)
    (taken : List BlockId) (root : BlockId) :
    Along (root :: p.session.graph.downstreamOf root) p (engine.cascade config (p, taken) root).1 := by
  have hvisit := visit_along engine config p root
  by_cases htaken : root ∈ taken
  · rw [cascade, if_pos htaken]
    exact .refl _ p
  · rw [cascade_eq htaken]
    split
    · have hbelow := foldl_descend_along engine config
        ((engine.visit config p root).1.session.graph.downstreamOf root)
        ⟨(engine.visit config p root).1, root :: taken, []⟩
      rw [Graph.downstreamOf_of_outline hvisit.outline] at hbelow ⊢
      exact hvisit.trans hbelow
    · exact hvisit.trans (.refl (p.session.graph.downstreamOf root) _)

/-- The run of a block comes to it and then to blocks below it, the nearest first. -/
theorem run_along {engine : Engine σ} {config : RunConfig} {s : Session} {state : σ} {id : BlockId}
    (hwf : s.graph.WellFormed) (hid : id ∈ s.graph.ids) (hrun : engine.run config s state id = .ok p) :
    Along (id :: s.graph.downstreamOf id) ⟨s, state, []⟩ p := by
  rw [run_eq hwf hid] at hrun
  rw [← Except.ok.inj hrun]
  exact cascade_along engine config ⟨s, state, []⟩ [] id

/-- The run of a whole pipeline comes to blocks in the order of the run. -/
theorem runAll_along (engine : Engine σ) (config : RunConfig) (s : Session) (state : σ) :
    Along s.graph.runOrder ⟨s, state, []⟩ (engine.runAll config s state) := by
  have hcascades : ∀ (roots taken : List BlockId) (p : Progress σ),
      p.session.graph.outline = s.graph.outline →
        Along (roots.flatMap fun root => root :: s.graph.downstreamOf root) p
          (roots.foldl (engine.cascade config) (p, taken)).1 := by
    intro roots
    induction roots with
    | nil => intro taken p _; exact .refl [] p
    | cons root roots ih =>
      intro taken p hg
      have hfirst := cascade_along engine config p taken root
      rw [Graph.downstreamOf_of_outline hg] at hfirst
      rw [List.foldl_cons, List.flatMap_cons]
      exact hfirst.trans (ih _ _ (hfirst.outline.trans hg))
  exact hcascades s.graph.roots [] ⟨s, state, []⟩ rfl

end Engine

end BlockPipeline

import BlockPipeline.Proofs.Graph.Editing

set_option autoImplicit false

/-! # Graphs that edits lead to

`Edit` lists the edits of a graph with all their arguments, `Reachable` the graphs to which any
sequence of them leads from the empty graph. Identifiers that the caller does not choose are new when
they are given out; nothing else is asked of an edit, and one that fails leaves the graph alone.

Every such graph is `Consistent`: whatever view of it is taken, it tells of the same blocks and of
the same connections (`consistent_of_reachable`). -/

namespace BlockPipeline.Graph

/-- An edit of a graph with its arguments. -/
inductive Edit where
  /-- A new block of a kind. -/
  | addKind (newId : BlockId) (kind : BlockKind)
  /-- A new block of a configuration. -/
  | addConfig (newId : BlockId) (config : BlockConfig)
  /-- A block under an identifier that the caller chooses. -/
  | addUnder (id : BlockId) (config : BlockConfig)
  | remove (id : BlockId)
  | move (id : BlockId) (place : Nat)
  | rename (id : BlockId) (label : String)
  | duplicate (id newId : BlockId)
  | connect (source target : BlockId)
  | disconnect (target : BlockId)

namespace Edit

/-- The graph after an edit, which is the same one if the edit fails. -/
def apply (g : Graph) : Edit → Graph
  | addKind newId kind => g.add (.ofKind newId kind)
  | addConfig newId config => g.add (.ofConfig newId config)
  | addUnder id config => settled g (g.addConfig id config)
  | remove id => (g.remove id).1
  | move id place => settled g (g.move id place)
  | rename id label => settled g (g.rename id label)
  | duplicate id newId => settled g (g.duplicate id newId)
  | connect source target => settled g (Prod.fst <$> g.connect source target)
  | disconnect target => (g.disconnect target).1

/-- The identifier that an edit gives out. -/
def newId? : Edit → Option BlockId
  | addKind newId _ | addConfig newId _ | duplicate _ newId => some newId
  | _ => none

/-- The identifier that the edit gives out is not taken. -/
def Fresh (g : Graph) (edit : Edit) : Prop := ∀ newId ∈ edit.newId?, newId ∉ g.ids

/-- Identifiers that edits in a row give out are not taken when they are given out. -/
def AllFresh : Graph → List Edit → Prop
  | _, [] => True
  | g, edit :: edits => edit.Fresh g ∧ AllFresh (edit.apply g) edits

instance (g : Graph) (edit : Edit) : Decidable (edit.Fresh g) :=
  inferInstanceAs (Decidable (∀ newId ∈ edit.newId?, newId ∉ g.ids))

instance decidableAllFresh : ∀ (g : Graph) (edits : List Edit), Decidable (AllFresh g edits)
  | _, [] => isTrue trivial
  | g, edit :: edits =>
    have := decidableAllFresh (edit.apply g) edits
    inferInstanceAs (Decidable (edit.Fresh g ∧ AllFresh (edit.apply g) edits))

end Edit

/-- The graphs that edits lead to. -/
inductive Reachable : Graph → Prop where
  | empty : Reachable empty
  | edit {g : Graph} (edit : Edit) (past : Reachable g) (fresh : edit.Fresh g) :
    Reachable (edit.apply g)

variable {g : Graph} {a b : BlockId}

theorem Reachable.edits {edits : List Edit} (h : g.Reachable) (hfresh : Edit.AllFresh g edits) :
    (edits.foldl Edit.apply g).Reachable := by
  induction edits generalizing g with
  | nil => exact h
  | cons edit edits ih => exact ih (.edit edit h hfresh.1) hfresh.2

/-- One edit keeps the rules, whether it succeeds or fails. -/
theorem WellFormed.edit (h : g.WellFormed) {edit : Edit} (hfresh : edit.Fresh g) :
    (edit.apply g).WellFormed := by
  cases edit with
  | addKind newId kind => exact h.add (hfresh newId rfl)
  | addConfig newId config => exact h.add (hfresh newId rfl)
  | addUnder id config => exact settled_cases h fun g' hadd => h.addConfig hadd
  | remove id => exact h.remove id
  | move id place => exact settled_cases h fun g' hmove => h.move hmove
  | rename id label => exact settled_cases h fun g' hrename => h.rename hrename
  | duplicate id newId => exact settled_cases h fun g' hdup => h.duplicate (hfresh newId rfl) hdup
  | connect source target =>
    refine settled_cases h fun g' hfirst => ?_
    obtain ⟨⟨after, replaced⟩, hconnect, rfl⟩ := map_eq_ok_iff.1 hfirst
    exact h.connect hconnect
  | disconnect target => exact h.unlink target

theorem Reachable.wellFormed (h : g.Reachable) : g.WellFormed := by
  induction h with
  | empty => exact wellFormed_empty
  | edit edit _ hfresh ih => exact ih.edit hfresh

/-! ## The views of a graph -/

theorem mem_childrenOf (h : g.WellFormed) : b ∈ g.childrenOf a ↔ g.Feeds a b := by
  rw [childrenOf, List.mem_filter, decide_eq_true_iff, mem_successors h]
  exact ⟨fun hmem => hmem.2, fun hf => ⟨h.fed_mem hf, hf⟩⟩

theorem mem_connections (h : g.WellFormed) : ⟨a, b⟩ ∈ g.connections ↔ g.Feeds a b := by
  simp only [connections, List.mem_filterMap, Option.map_eq_some_iff, Connection.mk.injEq]
  constructor
  · rintro ⟨target, _, source, hf, rfl, rfl⟩
    exact hf
  · intro hf
    exact ⟨b, h.fed_mem hf, a, hf, rfl, rfl⟩

theorem connections_nodup (h : g.WellFormed) : g.connections.Nodup := by
  refine h.ids_nodup.filterMap fun x y link hx hy => ?_
  obtain ⟨_, _, rfl⟩ := Option.map_eq_some_iff.1 hx
  obtain ⟨_, _, hsame⟩ := Option.map_eq_some_iff.1 hy
  exact (Connection.mk.inj hsame).2.symm

/-- The connections are those that the graph stores, in another order. -/
theorem connections_perm (h : g.WellFormed) : g.connections.Perm g.links := by
  refine (List.perm_ext_iff_of_nodup (connections_nodup h) h.targets_nodup.of_map).2 fun link => ?_
  obtain ⟨source, target⟩ := link
  rw [mem_connections h, h.feeds_iff]

/-- All views of a graph tell of the same blocks and the same connections, and the connections make a
    forest. -/
structure Consistent (g : Graph) : Prop where
  /-- No identifier is listed twice. -/
  ids_nodup : g.ids.Nodup
  /-- The blocks that are stored are listed, and nothing else. -/
  ids_perm : g.ids.Perm (g.stored.map fun entry => entry.2.id)
  /-- Each stored block is the one found under its identifier. -/
  stored : ∀ entry ∈ g.stored, entry.2.id = entry.1 ∧ g.find? entry.1 = some entry.2
  /-- The blocks in pipeline order are those of the identifiers listed. -/
  blocks : g.blocks.map Block.id = g.ids
  /-- At most one connection leads into a block. -/
  one_input : ∀ id, g.links.countP (·.target = id) ≤ 1
  /-- No connection leads into a load block. -/
  no_load_input : ∀ entry ∈ g.stored, entry.2.kind = .load →
    g.inputOf entry.1 = none ∧ ∀ link ∈ g.links, link.target ≠ entry.1
  /-- No block reaches itself. -/
  acyclic : ∀ id, ¬ Relation.TransGen (fun a b => ⟨a, b⟩ ∈ g.connections) id id
  children_iff : ∀ a c, c ∈ g.childrenOf a ↔ g.inputOf c = some a
  inputOf_iff : ∀ a c, g.inputOf c = some a ↔ ⟨a, c⟩ ∈ g.connections
  /-- The connections listed are those that the graph stores, and they join stored blocks. -/
  connections_iff : ∀ link, link ∈ g.connections ↔ link ∈ g.links
  ends_mem : ∀ link ∈ g.links, link.source ∈ g.ids ∧ link.target ∈ g.ids
  connections_nodup : g.connections.Nodup
  count_eq : g.connectionCount = g.connections.length

/-- Every graph that edits lead to is consistent. -/
theorem consistent_of_reachable (h : g.Reachable) : g.Consistent := by
  have hwf := h.wellFormed
  have hstored : ∀ entry ∈ g.stored, g.find? entry.1 = some entry.2 :=
    fun entry hentry => hwf.find?_eq_some_iff.2 hentry
  refine
    { ids_nodup := hwf.ids_nodup
      ids_perm := ?_
      stored := fun entry hentry => ⟨hwf.own_id entry hentry, hstored entry hentry⟩
      blocks := hwf.map_id_blocks
      one_input := fun id => ?_
      no_load_input := fun entry hentry hload => ?_
      acyclic := fun id hcycle => ?_
      children_iff := fun a c => mem_childrenOf hwf
      inputOf_iff := fun a c => (mem_connections hwf).symm
      connections_iff := fun link => (connections_perm hwf).mem_iff
      ends_mem := hwf.ends_mem
      connections_nodup := connections_nodup hwf
      count_eq := (connections_perm hwf).length_eq.symm }
  · have hids : g.stored.map (fun entry => entry.2.id) = g.stored.map Prod.fst :=
      List.map_congr_left hwf.own_id
    rw [hids]
    exact hwf.ids_perm
  · have hcount := List.nodup_iff_count_le_one.1 hwf.targets_nodup id
    rw [List.count_eq_countP, List.countP_map] at hcount
    exact hcount
  · have hfree : ∀ link ∈ g.links, link.target ≠ entry.1 := fun link hlink hsame => by
      have hkind := hwf.target_kind link hlink entry.2 (hsame ▸ hstored entry hentry)
      rw [hload] at hkind
      cases hkind
    refine ⟨?_, hfree⟩
    cases hinput : g.inputOf entry.1 with
    | none => rfl
    | some feeder => exact absurd rfl (hfree _ (link_of_feeds hinput))
  · have hsame : (fun a b => (⟨a, b⟩ : Connection) ∈ g.connections) = g.Feeds := by
      funext a b
      exact propext (mem_connections hwf)
    rw [hsame] at hcycle
    exact hwf.acyclic id hcycle

/-- A load block with two filters in a row, of which the second is moved to the front and connected
    anew; the connection back to the first filter is refused. -/
theorem consistent_after_rewiring :
    let load : BlockId := ⟨1⟩
    let first : BlockId := ⟨2⟩
    let second : BlockId := ⟨3⟩
    let g := [Edit.addKind load .load, .addKind first .filter, .duplicate first second,
      .connect load first, .connect load second, .move second 0, .connect first second,
      .connect second first, .rename load "Orders"].foldl Edit.apply empty
    g.Reachable ∧ g.ids = [second, load, first] ∧ g.Consistent := by
  intro load first second g
  have hreach : g.Reachable := .edits .empty (by decide +kernel)
  exact ⟨hreach, by decide +kernel, consistent_of_reachable hreach⟩

end BlockPipeline.Graph

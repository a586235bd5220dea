import BlockPipeline.Proofs.Graph.Reachable

set_option autoImplicit false

/-! # When two blocks can be connected

`connect` looks for a way back from the target while the target still has its former input. It refuses
nothing on account of that input: a way that leaves the target and comes back by its former input would
be a cycle before anything is connected (`reaches_link_of_reaches`). So two blocks can be connected just
when the connections as they will be, with the new one in place of the former input, make no cycle
(`connect_exact`). -/

namespace BlockPipeline.Graph

variable {g g' : Graph} {source target a b id : BlockId} {replaced : Option BlockId}

/-- The connections, once the input of `target` has given way to `source`. -/
def Rewired (g : Graph) (source target a b : BlockId) : Prop :=
  (a = source ∧ b = target) ∨ (b ≠ target ∧ ⟨a, b⟩ ∈ g.connections)

/-- What it takes to connect two blocks. -/
structure Connectable (g : Graph) (source target : BlockId) : Prop where
  source_mem : source ∈ g.ids
  target_mem : target ∈ g.ids
  not_load : ∀ block, g.find? target = some block → block.kind ≠ .load
  distinct : source ≠ target
  /-- No block reaches itself once the input of the target has given way. -/
  acyclic : ∀ id, ¬ Relation.TransGen (g.Rewired source target) id id

/-- What comes of connecting two blocks. -/
structure Connected (g : Graph) (source target : BlockId) (g' : Graph) (replaced : Option BlockId) :
    Prop where
  inputOf_target : g'.inputOf target = some source
  inputOf_other : ∀ other, other ≠ target → g'.inputOf other = g.inputOf other
  connections_iff : ∀ a b, ⟨a, b⟩ ∈ g'.connections ↔ g.Rewired source target a b
  ids : g'.ids = g.ids
  stored : g'.stored = g.stored
  /-- The former input is returned, unless it was the source already. -/
  replaced_iff : ∀ former, replaced = some former ↔ g.inputOf target = some former ∧ former ≠ source

/-! ## The graph with the new connection -/

theorem inputOf_unlink_of_ne (hne : b ≠ target) : (g.unlink target).inputOf b = g.inputOf b := by
  rw [inputOf, unlink, List.find?_filter, inputOf]
  congr 2
  funext link
  by_cases hb : link.target = b
  · simp [hb, hne]
  · simp [hb]

theorem inputOf_link : (g.link source target).inputOf b =
    if b = target then some source else g.inputOf b := by
  by_cases hsame : b = target
  · subst hsame
    simp [inputOf, link]
  · have hbehind : (g.link source target).inputOf b = (g.unlink target).inputOf b := by
      simp [inputOf, link, Ne.symm hsame]
    rw [if_neg hsame, hbehind, inputOf_unlink_of_ne hsame]

theorem feeds_link_iff (h : g.WellFormed) :
    (g.link source target).Feeds a b ↔ g.Rewired source target a b := by
  rw [Feeds, inputOf_link, Rewired, mem_connections h]
  by_cases hsame : b = target
  · simp [hsame, eq_comm]
  · simp [hsame, Feeds]

/-- A way out of the target never comes back to it, so it does not need the former input. -/
theorem reaches_link_of_reaches (h : g.WellFormed) (hr : Relation.ReflTransGen g.Feeds target b) :
    Relation.ReflTransGen (g.link source target).Feeds target b := by
  induction hr with
  | refl => exact .refl
  | @tail a b hway hf ih =>
    have hne : b ≠ target := by
      rintro rfl
      exact h.acyclic b (.tail' hway hf)
    refine ih.tail ?_
    rwa [Feeds, inputOf_link, if_neg hne]

/-- The new connection closes a cycle just when there is a way back from the target already. -/
theorem acyclic_link_iff (h : g.WellFormed) (htarget : target ∈ g.ids) :
    (∀ id, ¬ (g.link source target).Reaches id id) ↔ source ∉ g.reachedFrom target := by
  rw [mem_reachedFrom h htarget]
  constructor
  · intro hacyclic hback
    have hclosing : (g.link source target).Feeds source target := by
      rw [Feeds, inputOf_link, if_pos rfl]
    exact hacyclic target (.tail' (reaches_link_of_reaches h hback) hclosing)
  · intro hnot id hcycle
    rcases reaches_link h hcycle with hr | ⟨hback, hthere⟩
    · exact h.acyclic id hr
    · exact hnot (hthere.trans hback)

theorem acyclic_rewired_iff (h : g.WellFormed) (htarget : target ∈ g.ids) :
    (∀ id, ¬ Relation.TransGen (g.Rewired source target) id id) ↔ source ∉ g.reachedFrom target := by
  have hsame : (g.link source target).Feeds = g.Rewired source target := by
    funext a b
    exact propext (feeds_link_iff h)
  rw [← acyclic_link_iff h htarget, ← hsame]
  rfl

/-! ## Connecting -/

/-- Blocks that can be connected stay as they are, or the connection is made. -/
theorem connect_of_connectable (h : g.WellFormed) (hable : g.Connectable source target) :
    g.connect source target =
      if g.Feeds source target then .ok (g, none)
      else .ok (g.link source target, g.inputOf target) := by
  obtain ⟨first, hsource⟩ := h.mem_ids_iff.1 hable.source_mem
  obtain ⟨second, htarget⟩ := h.mem_ids_iff.1 hable.target_mem
  have hkind := BlockKind.isSource_eq_false_iff.2 (hable.not_load second htarget)
  have hcycle := (acyclic_rewired_iff h hable.target_mem).1 hable.acyclic
  rw [connect_eq hsource htarget, if_neg hable.distinct, if_neg (by simp [hkind]), if_neg hcycle]

theorem connectable_of_connect (h : g.WellFormed)
    (hconnect : g.connect source target = .ok (g', replaced)) : g.Connectable source target := by
  obtain ⟨hsource, ⟨block, htarget, hkind⟩, hdistinct, hcycle, -⟩ := connect_eq_ok hconnect
  have hmem := h.mem_ids_iff.2 ⟨block, htarget⟩
  refine ⟨h.mem_ids_iff.2 hsource, hmem, ?_, hdistinct, (acyclic_rewired_iff h hmem).2 hcycle⟩
  intro other hother
  obtain rfl := Option.some.inj (htarget.symm.trans hother)
  exact BlockKind.isSource_eq_false_iff.1 hkind

/-- A connection that is there already is left as it is. -/
theorem connected_self (h : g.WellFormed) (hf : g.Feeds source target) :
    g.Connected source target g none := by
  refine ⟨hf, fun _ _ => rfl, fun a b => ?_, rfl, rfl, fun former => ?_⟩
  · rw [mem_connections h, Rewired, mem_connections h]
    constructor
    · intro hab
      by_cases hb : b = target
      · subst hb
        exact .inl ⟨feeder_unique hab hf, rfl⟩
      · exact .inr ⟨hb, hab⟩
    · rintro (⟨rfl, rfl⟩ | ⟨-, hab⟩)
      · exact hf
      · exact hab
  · rw [show g.inputOf target = some source from hf]
    simp [eq_comm]

theorem connected_link (h : g.WellFormed)
    (hconnect : g.connect source target = .ok (g.link source target, g.inputOf target))
    (hnew : ¬ g.Feeds source target) :
    g.Connected source target (g.link source target) (g.inputOf target) := by
  refine ⟨?_, fun other hother => ?_, fun a b => ?_, rfl, rfl, fun former => ?_⟩
  · rw [inputOf_link, if_pos rfl]
  · rw [inputOf_link, if_neg hother]
  · rw [mem_connections (h.connect hconnect), feeds_link_iff h]
  · refine ⟨fun hformer => ⟨hformer, ?_⟩, fun hformer => hformer.1⟩
    rintro rfl
    exact hnew hformer

/-- However a graph came about, two blocks are connected just when both are there, the target is no load
    block and not the source, and no cycle arises from the new connection in place of the former input
    of the target. Then only the input of the target changes, and the former one is returned. Otherwise
    the graph stays as it is. -/
theorem connect_exact (h : g.Reachable) (source target : BlockId) :
    ((∃ g' replaced, g.connect source target = .ok (g', replaced)) ↔ g.Connectable source target) ∧
      (∀ g' replaced, g.connect source target = .ok (g', replaced) →
        g.Connected source target g' replaced ∧ (Edit.connect source target).apply g = g') ∧
      ∀ error, g.connect source target = .error error → (Edit.connect source target).apply g = g := by
  have hwf := h.wellFormed
  refine ⟨⟨?_, fun hable => ?_⟩, fun g' replaced hconnect => ⟨?_, ?_⟩, fun error hconnect => ?_⟩
  · rintro ⟨g', replaced, hconnect⟩
    exact connectable_of_connect hwf hconnect
  · rw [connect_of_connectable hwf hable]
    split
    · exact ⟨_, _, rfl⟩
    · exact ⟨_, _, rfl⟩
  · have hmade := connect_of_connectable hwf (connectable_of_connect hwf hconnect)
    rw [hconnect] at hmade
    split_ifs at hmade with hf
    · cases hmade
      exact connected_self hwf hf
    · cases hmade
      exact connected_link hwf hconnect hf
  · rw [Edit.apply, hconnect]
    rfl
  · rw [Edit.apply, hconnect]
    rfl

/-- Two filters in a row below a load block. The second one can be fed by the load block instead, since
    its former input goes; the first one cannot be fed by the second one. -/
theorem connect_past_filter :
    let load : BlockId := ⟨1⟩
    let first : BlockId := ⟨2⟩
    let second : BlockId := ⟨3⟩
    let g := [Edit.addKind load .load, .addKind first .filter, .duplicate first second,
      .connect load first, .connect first second].foldl Edit.apply empty
    g.Reachable ∧ g.Connectable load second ∧
      (∃ g', g.connect load second = .ok (g', some first) ∧ g.Connected load second g' (some first)) ∧
      ¬ g.Connectable second first ∧ (Edit.connect second first).apply g = g := by
  intro load first second g
  have hreach : g.Reachable := .edits .empty (by decide +kernel)
  have hmade : (Prod.snd <$> g.connect load second).toOption = some (some first) := by decide +kernel
  have hrefused : g.connect second first = .error (.invalidConnection second first .cycle) := by
    decide +kernel
  obtain ⟨hiff, hconnected, -⟩ := connect_exact hreach load second
  obtain ⟨hiff', -, hkept⟩ := connect_exact hreach second first
  obtain ⟨⟨g', replaced⟩, hg', rfl⟩ := map_eq_ok_iff.1 (toOption_eq_some_iff.1 hmade)
  refine ⟨hreach, hiff.1 ⟨g', _, hg'⟩, ⟨g', hg', (hconnected g' _ hg').1⟩, fun hable => ?_,
    hkept _ hrefused⟩
  obtain ⟨_, _, hother⟩ := hiff'.2 hable
  rw [hrefused] at hother
  cases hother

end BlockPipeline.Graph

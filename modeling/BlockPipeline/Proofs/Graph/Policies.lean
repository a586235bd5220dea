import BlockPipeline.Proofs.Graph.Places
import BlockPipeline.Proofs.Session.Reachable
import Mathlib.Data.List.Chain

set_option autoImplicit false

/-! # The two policies of staleness

One policy takes what stands behind the edited block, the other one what can be reached from it. What is
reached stands behind, whatever the block, just when every connection leads on in pipeline order: then
places grow along each way (`Forward.mem_blocksAfter`). The two lists are the same, whatever the block,
just when the pipeline is one chain. A search follows the connections (`downstreamOf_follows`), and in
a chain there is only one order that does (`eq_of_follows`). -/

namespace BlockPipeline

namespace Graph

variable {g : Graph} {a b id first : BlockId} {done front back rest below : List BlockId}

/-- In pipeline order each block after the first is fed by the one just before it. -/
def Chained (g : Graph) : Prop := g.ids.IsChain g.Feeds

instance (g : Graph) : Decidable g.Chained := inferInstanceAs (Decidable (g.ids.IsChain g.Feeds))

/-! ## Chains -/

/-- In a chain everything but its first block is fed from within. -/
theorem exists_feeder_mem (hchain : (first :: rest).IsChain g.Feeds) (hb : b ∈ rest) :
    ∃ a ∈ first :: rest, g.Feeds a b := by
  induction rest generalizing first with
  | nil => cases hb
  | cons next rest ih =>
    obtain ⟨hf, hrest⟩ := List.isChain_cons_cons.1 hchain
    rcases List.mem_cons.1 hb with rfl | hb
    · exact ⟨first, List.mem_cons_self, hf⟩
    · obtain ⟨a, ha, hf⟩ := ih hrest hb
      exact ⟨a, List.mem_cons_of_mem _ ha, hf⟩

/-- What follows the connections takes up the blocks of a chain in the order of the chain. -/
theorem eq_of_follows (hchain : (first :: rest).IsChain g.Feeds) (hnodup : (first :: rest).Nodup)
    (hperm : below.Perm rest) (hdone : ∀ id ∈ first :: rest, id ∈ done → id = first)
    (hfollows : g.Follows done below) : below = rest := by
  induction rest generalizing first below done with
  | nil => exact hperm.eq_nil
  | cons next rest ih =>
    obtain ⟨hfirst, hrest⟩ := List.nodup_cons.1 hnodup
    obtain ⟨-, htail⟩ := List.isChain_cons_cons.1 hchain
    cases below with
    | nil => exact absurd hperm.symm.eq_nil (List.cons_ne_nil _ _)
    | cons b below =>
      rcases List.mem_cons.1 (hperm.mem_iff.1 List.mem_cons_self) with rfl | hb
      · refine congrArg (b :: ·) (ih htail hrest hperm.cons_inv (fun id hid hmem => ?_) hfollows.2)
        refine (List.mem_cons.1 hmem).resolve_right fun hmem => hfirst ?_
        exact hdone id (List.mem_cons_of_mem _ hid) hmem ▸ hid
      · -- it is fed by something behind the first block, which is not done
        obtain ⟨a, ha, hf⟩ := exists_feeder_mem htail hb
        have hsame : a = first := hdone a (List.mem_cons_of_mem _ ha) (hfollows.1 a hf)
        exact absurd (hsame ▸ ha) hfirst

/-- In a chain whatever stands behind a block is reached from it. -/
theorem Chained.pairwise_reaches (hchain : g.Chained) : g.ids.Pairwise g.Reaches := by
  have htrans : g.ids.IsChain g.Reaches := hchain.imp fun _ _ => Relation.TransGen.single
  have : IsTrans BlockId g.Reaches := ⟨fun _ _ _ => Relation.TransGen.trans⟩
  exact htrans.pairwise

theorem Chained.forward (h : g.WellFormed) (hchain : g.Chained) : g.Forward := by
  intro a b placeA placeB hf ha hb
  obtain ⟨hltA, rfl⟩ := position?_eq_some ha
  obtain ⟨hltB, rfl⟩ := position?_eq_some hb
  by_contra hnot
  -- otherwise there is a way back
  rcases Nat.lt_or_eq_of_le (Nat.not_lt.1 hnot) with hlt | rfl
  · have hback := List.pairwise_iff_getElem.1 hchain.pairwise_reaches _ _ hltB hltA hlt
    exact h.acyclic _ (.head hf hback)
  · exact h.acyclic _ (.single hf)

theorem Chained.downstreamOf_eq (h : g.WellFormed) (hchain : g.Chained) (id : BlockId) :
    g.downstreamOf id = g.blocksAfter id := by
  by_cases hid : id ∈ g.ids
  · obtain ⟨front, back, hids⟩ := List.append_of_mem hid
    have hnodup : (id :: back).Nodup := (List.nodup_append.1 (hids ▸ h.ids_nodup)).2.1
    have hall : (front ++ id :: back).IsChain g.Feeds := hids ▸ show g.ids.IsChain g.Feeds from hchain
    have hback : (id :: back).IsChain g.Feeds := (List.isChain_append.1 hall).2.1
    have hreaches : (id :: back).Pairwise g.Reaches :=
      (List.pairwise_append.1 (hids ▸ hchain.pairwise_reaches)).2.1
    rw [blocksAfter_of_split h hids]
    have hperm : (g.downstreamOf id).Perm back := by
      refine (List.perm_ext_iff_of_nodup (downstreamOf_nodup h id) hnodup.of_cons).2 fun b => ?_
      rw [mem_downstreamOf h]
      refine ⟨fun hr => ?_, (List.pairwise_cons.1 hreaches).1 b⟩
      exact blocksAfter_of_split h hids ▸ (hchain.forward h).mem_blocksAfter h hr
    refine eq_of_follows hback hnodup hperm (fun b _ hb => ?_) (downstreamOf_follows h id)
    exact List.mem_singleton.1 hb
  · rw [downstreamOf_of_not_mem h hid, eq_comm, List.eq_nil_iff_forall_not_mem]
    intro b hb
    obtain ⟨_, _, hplace, -⟩ := (Graph.mem_blocksAfter h).1 hb
    obtain ⟨hlt, rfl⟩ := position?_eq_some hplace
    exact hid (List.getElem_mem hlt)

theorem chained_iff (h : g.WellFormed) :
    g.Chained ↔ ∀ id, g.blocksAfter id = g.downstreamOf id := by
  refine ⟨fun hchain id => (hchain.downstreamOf_eq h id).symm, fun hsame => ?_⟩
  refine List.isChain_iff_forall_rel_of_append_cons_cons.2 fun a b front back hids => ?_
  have hbelow : g.downstreamOf a = b :: back := by rw [← hsame a, blocksAfter_of_split h hids]
  -- what is found first is fed by the block itself
  have hb : b ∈ g.downstreamOf a := hbelow ▸ List.mem_cons_self
  obtain ⟨feeder, -, hf⟩ := Relation.TransGen.tail'_iff.1 ((mem_downstreamOf h).1 hb)
  have hfollows := downstreamOf_follows h a
  rw [hbelow] at hfollows
  exact List.mem_singleton.1 (hfollows.1 feeder hf) ▸ hf

end Graph

namespace StalenessPolicy

open BlockPipeline.Graph

variable {g : Graph}

/-- However a graph came about, `position` marks every block that `reachability` does, whatever block is
    edited, just when each block stands behind the one that feeds it. The two mark the same blocks in
    the same order just when the pipeline is one chain. -/
theorem affected_compared (h : g.Occurs) :
    (g.Forward ↔ ∀ id, reachability.affected g id ⊆ position.affected g id) ∧
      (g.Chained ↔ ∀ id, position.affected g id = reachability.affected g id) :=
  ⟨forward_iff h.wellFormed, chained_iff h.wellFormed⟩

/-- Four blocks in a chain, of which the third was moved into its place. When the last one is moved to
    the front, `position` misses it. -/
theorem affected_in_chain :
    let load : BlockId := ⟨1⟩
    let upper : BlockId := ⟨2⟩
    let middle : BlockId := ⟨3⟩
    let lower : BlockId := ⟨4⟩
    let g := [Edit.addKind load .load, .addKind upper .filter, .addKind lower .sort,
      .duplicate upper middle, .move middle 2, .connect load upper, .connect upper middle,
      .connect middle lower].foldl Edit.apply empty
    let moved := (Edit.move lower 0).apply g
    g.Occurs ∧ g.Chained ∧ g.Forward ∧ position.affected g upper = [middle, lower] ∧
      reachability.affected g upper = [middle, lower] ∧
      moved.Occurs ∧ position.affected moved upper = [middle] ∧ ¬ moved.Forward := by
  intro load upper middle lower g moved
  have hreach : g.Reachable := .edits .empty (by decide +kernel)
  have hoccurs : g.Occurs := .edited hreach
  have hmoved : moved.Occurs := .edited (.edit _ hreach (by decide +kernel))
  have hchain : g.Chained := by decide +kernel
  have hposition : position.affected g upper = [middle, lower] := by decide +kernel
  have hmissed : position.affected moved upper = [middle] := by decide +kernel
  have hreached : lower ∈ reachability.affected moved upper := by decide +kernel
  obtain ⟨hforward, hsame⟩ := affected_compared hoccurs
  refine ⟨hoccurs, hchain, hforward.2 fun id => ?_, hposition, ?_, hmoved, hmissed, fun hforward => ?_⟩
  · rw [hsame.1 hchain id]
    exact List.Subset.refl _
  · rw [← hsame.1 hchain upper, hposition]
  · have hlower := (affected_compared hmoved).1.1 hforward upper hreached
    rw [hmissed] at hlower
    exact absurd hlower (by decide)

end StalenessPolicy

end BlockPipeline

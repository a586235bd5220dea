import BlockPipeline.Proofs.Graph.Levels
import BlockPipeline.Proofs.Graph.Places
import Mathlib.Data.Prod.Lex
import Mathlib.Order.Bounds.Basic

set_option autoImplicit false

/-! # What the topological order sorts by

The topological order is pipeline order, except that a block pulls the blocks above it to the front.
So a block comes out where the first of itself and the blocks below it stands, its `lead`. Blocks with
the same lead lie on the way back from one block, and there they come out from the top, by `depth`. The
two numbers make the `rank` of a block; no two blocks have the same rank, and the order is that of the
ranks (`sortedByRank_topologicalOrder`).

While the order is built it contains exactly the ways back from the blocks that have been taken up, in
the order of the ranks (`Ranked`). What the next block adds has that block as its lead, and the lead of
everything before is a block taken up earlier. -/

namespace BlockPipeline.Graph

variable {g : Graph} {a b id : BlockId} {done ordered rest : List BlockId}

/-! ## The way back as far as it is new -/

/-- Going back along the connections, until nothing is left or what is met is in order already, meets
    these blocks. -/
inductive Climbs (g : Graph) (ordered : List BlockId) : Option BlockId → List BlockId → Prop where
  | top : Climbs g ordered none []
  | met {id : BlockId} (old : id ∈ ordered) : Climbs g ordered (some id) []
  | onward {id : BlockId} {found : List BlockId} (new : id ∉ ordered)
    (above : Climbs g ordered (g.inputOf id) found) : Climbs g ordered (some id) (id :: found)

/-- The way back from any block ends, whatever is in order already. -/
theorem climbs_chain (h : g.WellFormed) (ordered : List BlockId) :
    ∀ id ∈ g.ids, g.Climbs ordered (some id) ((g.chain id).takeWhile (· ∉ ordered)) := by
  refine h.induction_mem fun id hid ih => ?_
  by_cases hold : id ∈ ordered
  · rw [chain_eq h hid, List.takeWhile_cons_of_neg (by simpa using hold)]
    exact .met hold
  · rw [chain_eq h hid, List.takeWhile_cons_of_pos (by simpa using hold)]
    refine .onward hold ?_
    cases hinput : g.inputOf id with
    | none => exact .top
    | some feeder => exact ih feeder hinput

/-! ## Ranks -/

/-- The first place in pipeline order where the block or one below it stands. -/
def lead (g : Graph) (id : BlockId) : Nat := g.ids.findIdx fun other => id ∈ g.chain other

/-- What the topological order sorts by: the lead first, then the depth. -/
def rank (g : Graph) (id : BlockId) : Nat ×ₗ Nat := toLex (g.lead id, g.depth id)

theorem rank_lt_iff :
    g.rank a < g.rank b ↔ g.lead a < g.lead b ∨ g.lead a = g.lead b ∧ g.depth a < g.depth b :=
  Prod.Lex.toLex_lt_toLex

/-- A rank says where the first of the block and the blocks below it stands in pipeline order, and how
    far the block is from the top. -/
structure IsRank (g : Graph) (id : BlockId) (rank : Nat ×ₗ Nat) : Prop where
  first_place : IsLeast
    {place | ∃ b, Relation.ReflTransGen g.Feeds id b ∧ g.position? b = some place} (ofLex rank).1
  from_top : ∃ top, g.inputOf top = none ∧ g.Way top (ofLex rank).2 id

/-- From any block, going up ends at one that nothing feeds. -/
theorem exists_top (h : g.WellFormed) :
    ∀ id ∈ g.ids, ∃ top, g.inputOf top = none ∧ g.Way top (g.depth id) id := by
  refine h.induction_mem fun id hid ih => ?_
  cases hinput : g.inputOf id with
  | none =>
    have hdepth : g.depth id = 0 := by
      rw [depth, chain_eq h hid, hinput]
      rfl
    exact ⟨id, hinput, hdepth ▸ .start⟩
  | some feeder =>
    obtain ⟨top, htop, hway⟩ := ih feeder hinput
    exact ⟨top, htop, depth_of_feeds h hinput ▸ hway.onward hinput⟩

theorem isLeast_lead (h : g.WellFormed) (hid : id ∈ g.ids) :
    IsLeast {place | ∃ b, Relation.ReflTransGen g.Feeds id b ∧ g.position? b = some place}
      (g.lead id) := by
  have hself : id ∈ g.chain id := (mem_chain h hid).2 .refl
  have hlt : g.lead id < g.ids.length :=
    List.findIdx_lt_length_of_exists ⟨id, hid, decide_eq_true hself⟩
  constructor
  · have hchain : id ∈ g.chain g.ids[g.lead id] := of_decide_eq_true (List.findIdx_getElem (w := hlt))
    exact ⟨_, reaches_of_mem_climb hchain, (position?_eq_some_iff h).2 ⟨hlt, rfl⟩⟩
  · rintro place ⟨b, hr, hplace⟩
    obtain ⟨hbound, rfl⟩ := (position?_eq_some_iff h).1 hplace
    -- a smaller place would have been found before the lead
    refine Nat.le_of_not_lt fun hbefore => ?_
    have hnot := List.not_of_lt_findIdx hbefore
    exact of_decide_eq_false hnot ((mem_chain h (List.getElem_mem hbound)).2 hr)

theorem isRank_rank (h : g.WellFormed) (hid : id ∈ g.ids) : g.IsRank id (g.rank id) :=
  ⟨isLeast_lead h hid, exists_top h id hid⟩

/-! ## The order of the ranks -/

/-- The way back leads up, so the ranks of blocks on it with the same lead descend. -/
theorem chain_descending (h : g.WellFormed) (id : BlockId) :
    (g.chain id).Pairwise fun a b => g.depth b < g.depth a := by
  refine (climb_pairwise g.ids.length id).imp fun {a b} hr => ?_
  obtain ⟨n, hway⟩ := reaches_iff_way.1 hr
  rw [hway.depth_eq h]
  omega

/-- An order contains the ways back from the blocks taken up, by rank. -/
structure Ranked (g : Graph) (done ordered : List BlockId) : Prop where
  mem_iff : ∀ b, b ∈ ordered ↔ ∃ c ∈ done, b ∈ g.chain c
  ascending : ordered.Pairwise fun a b => g.rank a < g.rank b

/-- What is on the way back from a block taken up has its lead among these. -/
theorem lead_lt (hids : g.ids = done ++ rest) (hb : ∃ c ∈ done, b ∈ g.chain c) :
    g.lead b < done.length := by
  have hlt : (done.findIdx fun other => b ∈ g.chain other) < done.length := by
    simpa using hb
  rw [lead, hids, List.findIdx_append, if_pos hlt]
  exact hlt

/-- What is new on the way back from the next block has this block as its lead. -/
theorem lead_eq (hids : g.ids = done ++ id :: rest) (hnew : ¬ ∃ c ∈ done, b ∈ g.chain c)
    (hb : b ∈ g.chain id) : g.lead b = done.length := by
  have hnone : ¬ (done.findIdx fun other => b ∈ g.chain other) < done.length := by
    simpa using hnew
  rw [lead, hids, List.findIdx_append, if_neg hnone, List.findIdx_cons, decide_eq_true hb, cond_true,
    Nat.zero_add]

/-- A list in order contains what reaches its blocks. -/
theorem Ordered.chain_subset (h : g.WellFormed) (hordered : g.Ordered ordered)
    (hid : id ∈ ordered) : g.chain id ⊆ ordered := by
  intro b hb
  have hr := (mem_chain h (hordered.subset hid)).1 hb
  induction hr using Relation.ReflTransGen.head_induction_on with
  | refl => exact hid
  | head hf hr ih =>
    have hmem := ih ((mem_chain h (hordered.subset hid)).2 hr)
    obtain ⟨front, back, hsplit⟩ := List.append_of_mem hmem
    have hfollows := hordered.follows
    rw [hsplit] at hfollows ⊢
    exact List.mem_append_left _ ((hfollows.feeder_mem hf).resolve_right List.not_mem_nil)

theorem Ranked.extend (h : g.WellFormed) (hids : g.ids = done ++ id :: rest)
    (hordered : g.Ordered ordered) (hranked : g.Ranked done ordered) :
    g.Ranked (done ++ [id]) (g.extendOrder ordered id) := by
  have hid : id ∈ g.ids := by simp [hids]
  obtain ⟨hextended, hidMem⟩ := hordered.extend h hid
  have hnew : ∀ b ∈ (g.chain id).takeWhile (· ∉ ordered), b ∈ g.chain id ∧ b ∉ ordered := by
    intro b hb
    exact ⟨(List.takeWhile_prefix _).subset hb, by simpa using List.mem_takeWhile_imp hb⟩
  have hlead : ∀ b ∈ (g.chain id).takeWhile (· ∉ ordered), g.lead b = done.length := by
    intro b hb
    obtain ⟨hchain, hnot⟩ := hnew b hb
    exact lead_eq hids (fun hold => hnot ((hranked.mem_iff b).2 hold)) hchain
  constructor
  · intro b
    constructor
    · intro hb
      rcases List.mem_append.1 hb with hb | hb
      · obtain ⟨c, hc, hchain⟩ := (hranked.mem_iff b).1 hb
        exact ⟨c, List.mem_append_left _ hc, hchain⟩
      · exact ⟨id, by simp, (hnew b (List.mem_reverse.1 hb)).1⟩
    · rintro ⟨c, hc, hchain⟩
      rcases List.mem_append.1 hc with hc | hc
      · exact List.mem_append_left _ ((hranked.mem_iff b).2 ⟨c, hc, hchain⟩)
      · rw [List.mem_singleton.1 hc] at hchain
        exact hextended.chain_subset h hidMem hchain
  · refine List.pairwise_append.2 ⟨hranked.ascending, ?_, fun a ha b hb => ?_⟩
    · -- blocks with one lead, from the top
      have hchain := (chain_descending h id).sublist (List.takeWhile_prefix (· ∉ ordered)).sublist
      refine List.pairwise_reverse.2 (hchain.imp_of_mem fun {a b} ha hb hdepth => ?_)
      exact rank_lt_iff.2 (.inr ⟨(hlead b hb).trans (hlead a ha).symm, hdepth⟩)
    · refine rank_lt_iff.2 (.inl ?_)
      rw [hlead b (List.mem_reverse.1 hb)]
      exact lead_lt hids ((hranked.mem_iff a).1 ha)

theorem Ranked.extend_all (h : g.WellFormed) (hids : g.ids = done ++ rest)
    (hordered : g.Ordered ordered) (hranked : g.Ranked done ordered) :
    g.Ranked g.ids (rest.foldl g.extendOrder ordered) := by
  induction rest generalizing done ordered with
  | nil => rwa [hids, List.append_nil]
  | cons id rest ih =>
    have hid : id ∈ g.ids := by simp [hids]
    have hnext := hranked.extend h hids hordered
    exact ih (by simp [hids]) (hordered.extend h hid).1 hnext

theorem topologicalOrder_ascending (h : g.WellFormed) :
    g.topologicalOrder.Pairwise fun a b => g.rank a < g.rank b := by
  have hstart : g.Ranked [] [] := ⟨by simp, .nil⟩
  exact (hstart.extend_all h rfl ⟨List.nodup_nil, List.nil_subset _, trivial⟩).ascending

/-- No two blocks have the same rank. -/
theorem rank_injective (h : g.WellFormed) (ha : a ∈ g.ids) (hb : b ∈ g.ids)
    (hsame : g.rank a = g.rank b) : a = b := by
  have hdistinct : (g.topologicalOrder.map g.rank).Nodup :=
    List.pairwise_map.2 ((topologicalOrder_ascending h).imp ne_of_lt)
  exact List.inj_on_of_nodup_map hdistinct ((mem_topologicalOrder h).2 ha)
    ((mem_topologicalOrder h).2 hb) hsame

/-- Lists of all blocks by rank are the same. -/
theorem eq_of_ranked {order other : List BlockId} (hperm : order.Perm other)
    (h : order.Pairwise fun a b => g.rank a < g.rank b)
    (hother : other.Pairwise fun a b => g.rank a < g.rank b) : order = other :=
  List.Perm.eq_of_pairwise (fun _ _ _ _ hab hba => absurd hab (lt_asymm hba)) h hother hperm

theorem topologicalOrder_eq_mergeSort (h : g.WellFormed) :
    g.topologicalOrder = g.ids.mergeSort fun a b => g.rank a ≤ g.rank b := by
  have hperm : (g.ids.mergeSort fun a b => g.rank a ≤ g.rank b).Perm g.ids := List.mergeSort_perm _ _
  have hsorted : (g.ids.mergeSort fun a b => g.rank a ≤ g.rank b).Pairwise fun a b =>
      g.rank a ≤ g.rank b := by
    have hpairwise : (g.ids.mergeSort fun a b => g.rank a ≤ g.rank b).Pairwise fun a b =>
        decide (g.rank a ≤ g.rank b) = true := by
      refine List.pairwise_mergeSort (fun a b c hab hbc => ?_) (fun a b => ?_) g.ids
      · simpa using le_trans (of_decide_eq_true hab) (of_decide_eq_true hbc)
      · simpa using le_total (g.rank a) (g.rank b)
    simpa using hpairwise
  refine List.Perm.eq_of_pairwise (fun a b ha hb hab hba => ?_)
    ((topologicalOrder_ascending h).imp le_of_lt) hsorted ((topologicalOrder_perm h).trans hperm.symm)
  exact rank_injective h ((mem_topologicalOrder h).1 ha) (hperm.mem_iff.1 hb) (le_antisymm hab hba)

/-! ## Where the order departs from pipeline order -/

/-- A block comes out before one that is ahead of it only for a block below it that is not behind. -/
theorem exists_of_overtaken (h : g.WellFormed) {placeA placeB : Nat}
    (ha : g.position? a = some placeA) (hb : g.position? b = some placeB) (hbefore : placeA < placeB)
    (hovertaken : [b, a].Sublist g.topologicalOrder) :
    ∃ c place, g.Reaches b c ∧ g.position? c = some place ∧ place ≤ placeA := by
  have hmem : ∀ {c : BlockId} {place : Nat}, g.position? c = some place → c ∈ g.ids := by
    intro c place hplace
    obtain ⟨hlt, rfl⟩ := position?_eq_some hplace
    exact List.getElem_mem hlt
  have hpair := (topologicalOrder_ascending h).sublist hovertaken
  have hrank : g.rank b < g.rank a := by simpa using hpair
  have hle : g.lead b ≤ g.lead a := by
    rcases rank_lt_iff.1 hrank with hlt | ⟨heq, -⟩
    · exact Nat.le_of_lt hlt
    · exact Nat.le_of_eq heq
  have hleadA : g.lead a ≤ placeA := (isLeast_lead h (hmem ha)).2 ⟨a, .refl, ha⟩
  obtain ⟨c, hr, hc⟩ := (isLeast_lead h (hmem hb)).1
  refine ⟨c, g.lead b, ?_, hc, Nat.le_trans hle hleadA⟩
  -- it is not the block itself, which stands farther behind
  refine (Relation.reflTransGen_iff_eq_or_transGen.1 hr).resolve_left ?_
  rintro rfl
  rw [hb] at hc
  have hplace := Option.some.inj hc
  omega

/-- If each block stands behind the one that feeds it, pipeline order is the topological order. -/
theorem topologicalOrder_eq_ids (h : g.WellFormed)
    (hbehind : ∀ a b placeA placeB, g.Feeds a b → g.position? a = some placeA →
      g.position? b = some placeB → placeA < placeB) : g.topologicalOrder = g.ids := by
  have hplace : ∀ place (hlt : place < g.ids.length), g.lead g.ids[place] = place := by
    intro place hlt
    have hself : g.position? g.ids[place] = some place := (position?_eq_some_iff h).2 ⟨hlt, rfl⟩
    obtain ⟨⟨b, hr, hb⟩, hleast⟩ := isLeast_lead h (List.getElem_mem hlt)
    refine Nat.le_antisymm (hleast ⟨_, .refl, hself⟩) ?_
    -- whatever is reached from the block stands behind it
    rcases Relation.reflTransGen_iff_eq_or_transGen.1 hr with rfl | hr
    · exact Nat.le_of_eq (Option.some.inj (hself.symm.trans hb))
    · exact Nat.le_of_lt (Forward.lt_of_reaches h hbehind hr hself hb)
  refine eq_of_ranked (topologicalOrder_perm h) (topologicalOrder_ascending h) ?_
  rw [List.pairwise_iff_getElem]
  intro first second hfirst hsecond hlt
  refine rank_lt_iff.2 (.inl ?_)
  rwa [hplace first hfirst, hplace second hsecond]

/-- The list is that of all blocks by rank, each after the one that feeds it. -/
structure SortedByRank (g : Graph) (order : List BlockId) : Prop where
  /-- Each step of the construction ends, whatever is in order already, and puts what it meets on its
      way back in front of the block. -/
  steps : order = g.ids.foldl g.extendOrder [] ∧ ∀ ordered, ∀ id ∈ g.ids, ∃ found,
    g.Climbs ordered (some id) found ∧ g.extendOrder ordered id = ordered ++ found.reverse
  perm : order.Perm g.ids
  after_feeder : ∀ front b back, order = front ++ b :: back →
    ∀ feeder, g.inputOf b = some feeder → feeder ∈ front
  is_rank : ∀ id ∈ g.ids, g.IsRank id (g.rank id)
  sorted : order = g.ids.mergeSort fun a b => g.rank a ≤ g.rank b
  ascending : order.Pairwise fun a b => g.rank a < g.rank b
  /-- A block comes out before one that is ahead of it in pipeline order only if a block below it
      stands where that one does or farther ahead. -/
  overtaken : ∀ a b placeA placeB, g.position? a = some placeA → g.position? b = some placeB →
    placeA < placeB → [b, a].Sublist order →
      ∃ c place, g.Reaches b c ∧ g.position? c = some place ∧ place ≤ placeA
  /-- Where each block stands behind the one that feeds it, pipeline order is kept. -/
  kept : (∀ a b placeA placeB, g.Feeds a b → g.position? a = some placeA →
    g.position? b = some placeB → placeA < placeB) → order = g.ids

/-- However a graph came about, the topological order is that of the ranks. -/
theorem sortedByRank_topologicalOrder (h : g.Occurs) : g.SortedByRank g.topologicalOrder := by
  have hwf := h.wellFormed
  refine
    { steps := ⟨rfl, fun ordered id hid => ⟨_, climbs_chain hwf ordered id hid, rfl⟩⟩
      perm := topologicalOrder_perm hwf
      after_feeder := fun front b back hsplit feeder hf => ?_
      is_rank := fun id hid => isRank_rank hwf hid
      sorted := topologicalOrder_eq_mergeSort hwf
      ascending := topologicalOrder_ascending hwf
      overtaken := fun a b placeA placeB ha hb => exists_of_overtaken hwf ha hb
      kept := topologicalOrder_eq_ids hwf }
  have hfollows := (topologicalOrder_ordered hwf).follows
  rw [hsplit] at hfollows
  exact (hfollows.feeder_mem hf).resolve_right List.not_mem_nil

/-- A block that was moved to the front pulls the block that feeds it and the load block to the front
    as well, past a block that is not connected. -/
theorem sortedByRank_of_moved :
    let load : BlockId := ⟨1⟩
    let alone : BlockId := ⟨2⟩
    let upper : BlockId := ⟨3⟩
    let lower : BlockId := ⟨4⟩
    let last : BlockId := ⟨5⟩
    let g := [Edit.addKind load .load, .addKind alone .filter, .addKind upper .filter,
      .addKind lower .filter, .addKind last .filter, .connect load upper, .connect load lower,
      .connect upper lower, .connect load last, .move load 1, .move lower 0].foldl Edit.apply empty
    g.Occurs ∧ g.ids = [lower, alone, load, upper, last] ∧
      g.topologicalOrder = [load, upper, lower, alone, last] ∧
      g.SortedByRank g.topologicalOrder := by
  intro load alone upper lower last g
  have hoccurs : g.Occurs := .edited (.edits .empty (by decide +kernel))
  exact ⟨hoccurs, by decide +kernel, by decide +kernel, sortedByRank_topologicalOrder hoccurs⟩

end BlockPipeline.Graph

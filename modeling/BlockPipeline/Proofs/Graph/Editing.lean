import BlockPipeline.Proofs.Attempt
import BlockPipeline.Proofs.Graph.Downstream

set_option autoImplicit false

/-! # Edits keep graphs well formed

Each edit is shown to keep `WellFormed`. The rules depend on a stored block only through its identifier
and its kind (`WellFormed.of_signatures`), and on the order only up to a permutation
(`WellFormed.reorder`). A block under a new identifier has no connection yet. Removals take
connections away, and `connect` adds one whose target does not reach its source. -/

namespace BlockPipeline

/-- What the rules on graphs ask of a block. -/
def Block.signature (block : Block) : BlockId × BlockKind := (block.id, block.kind)

namespace Graph

variable {g g' : Graph} {id a b : BlockId} {block : Block}

/-! ## Edits of the blocks -/

theorem wellFormed_empty : empty.WellFormed where
  keys_nodup := List.nodup_nil
  ids_perm := List.Perm.refl _
  own_id := by simp [empty]
  targets_nodup := List.nodup_nil
  ends_mem := by simp [empty]
  target_kind := by simp [empty]
  acyclic id hcycle := by
    obtain ⟨c, _, hc⟩ := Relation.TransGen.tail'_iff.1 hcycle
    cases hc

theorem WellFormed.of_signatures (h : g.WellFormed)
    (hstored : Assoc.mapValues Block.signature g'.stored =
      Assoc.mapValues Block.signature g.stored)
    (hids : g'.ids = g.ids) (hlinks : g'.links = g.links) : g'.WellFormed := by
  have hkeys : g'.stored.map Prod.fst = g.stored.map Prod.fst := by
    simpa only [Assoc.keys_mapValues] using congrArg (List.map Prod.fst) hstored
  have hfind : ∀ id, (g'.find? id).map Block.signature = (g.find? id).map Block.signature :=
    fun id => by rw [find?, find?, ← Assoc.find?_mapValues, ← Assoc.find?_mapValues, hstored]
  refine
    { keys_nodup := hkeys ▸ h.keys_nodup
      ids_perm := by rw [hids, hkeys]; exact h.ids_perm
      own_id := fun entry hentry => ?_
      targets_nodup := by rw [hlinks]; exact h.targets_nodup
      ends_mem := by rw [hlinks, hids]; exact h.ends_mem
      target_kind := fun link hlink block hblock => ?_
      acyclic := by rw [Reaches, feeds_of_links_eq hlinks]; exact h.acyclic }
  · have hmem : (entry.1, entry.2.signature) ∈ Assoc.mapValues Block.signature g.stored :=
      hstored ▸ List.mem_map_of_mem hentry
    obtain ⟨old, hold, hsame⟩ := List.mem_map.1 hmem
    obtain ⟨hkey, hsig⟩ := Prod.mk.inj hsame
    exact (congrArg Prod.fst hsig).symm.trans ((h.own_id old hold).trans hkey)
  · rw [hlinks] at hlink
    have hsig := hfind link.target
    rw [hblock, Option.map_some] at hsig
    obtain ⟨old, hold, hsame⟩ := Option.map_eq_some_iff.1 hsig.symm
    have hkind : old.kind = block.kind := congrArg Prod.snd hsame
    exact hkind ▸ h.target_kind link hlink old hold

/-- The pipeline order may be any order of the blocks. -/
theorem WellFormed.reorder (h : g.WellFormed) {ids : List BlockId} (hperm : ids.Perm g.ids) :
    ({ g with ids } : Graph).WellFormed :=
  { h with
    ids_perm := hperm.trans h.ids_perm
    ends_mem := fun link hlink => by
      rw [hperm.mem_iff, hperm.mem_iff]
      exact h.ends_mem link hlink }

theorem WellFormed.add (h : g.WellFormed) (hnew : block.id ∉ g.ids) : (g.add block).WellFormed := by
  have hkey : block.id ∉ g.stored.map Prod.fst := mt h.ids_perm.mem_iff.2 hnew
  have hinsert : (g.add block).stored.Perm ((block.id, block) :: g.stored) := Assoc.insert_perm hkey
  have hids : (g.add block).ids.Perm (block.id :: g.ids) := List.perm_append_comm
  refine
    { keys_nodup := ?_
      ids_perm := hids.trans ((h.ids_perm.cons _).trans (hinsert.map Prod.fst).symm)
      own_id := fun entry hentry => ?_
      targets_nodup := h.targets_nodup
      ends_mem := fun link hlink => ?_
      target_kind := fun link hlink other hother => ?_
      acyclic := h.acyclic }
  · exact (hinsert.map Prod.fst).nodup_iff.2 (List.nodup_cons.2 ⟨hkey, h.keys_nodup⟩)
  · rcases List.mem_cons.1 (hinsert.mem_iff.1 hentry) with rfl | hold
    · rfl
    · exact h.own_id entry hold
  · obtain ⟨hsource, htarget⟩ := h.ends_mem link hlink
    exact ⟨List.mem_append_left _ hsource, List.mem_append_left _ htarget⟩
  · -- the new block is no end of a connection
    have hne : link.target ≠ block.id := fun hsame => hnew (hsame ▸ (h.ends_mem link hlink).2)
    refine h.target_kind link hlink other ?_
    rwa [find?, ← Assoc.find?_insert_of_ne hne block]

/-- A block is added under an identifier that is not taken, or not at all. -/
theorem WellFormed.addConfig (h : g.WellFormed) {config : BlockConfig}
    (hadd : g.addConfig id config = .ok g') : g'.WellFormed := by
  unfold Graph.addConfig at hadd
  split at hadd
  · cases hadd
  · next htaken =>
      cases hadd
      exact h.add fun hmem => htaken (h.contains_iff.2 hmem)

/-- A change of one block keeps the rules if the block keeps its identifier and its kind. -/
theorem WellFormed.modify (h : g.WellFormed) {change : Block → Block}
    (hsig : ∀ block, g.find? id = some block → (change block).signature = block.signature) :
    (g.modify id change).WellFormed := by
  refine h.of_signatures ?_ rfl rfl
  rw [Graph.modify, Assoc.modify, Assoc.mapValues, List.map_map]
  refine List.map_congr_left fun entry hentry => ?_
  rw [Function.comp_apply]
  split
  · next hkey =>
      have hfind : g.find? id = some entry.2 := h.find?_eq_some_iff.2 (hkey ▸ hentry)
      rw [hsig entry.2 hfind]
  · rfl

theorem position?_eq_some {place : Nat} (h : g.position? id = some place) :
    ∃ hlt : place < g.ids.length, g.ids[place] = id := by
  obtain ⟨hlt, hid, -⟩ := List.findIdx?_eq_some_iff_getElem.1 h
  exact ⟨hlt, by simpa using hid⟩

/-- A block stands at a place, and at no other. -/
theorem position?_eq_some_iff (h : g.WellFormed) {place : Nat} :
    g.position? id = some place ↔ ∃ hlt : place < g.ids.length, g.ids[place] = id := by
  refine ⟨position?_eq_some, ?_⟩
  rintro ⟨hlt, rfl⟩
  refine List.findIdx?_eq_some_iff_getElem.2 ⟨hlt, by simp, fun other hother hsame => ?_⟩
  have hplace := (h.ids_nodup.getElem_inj_iff).1 (eq_of_beq hsame)
  omega

theorem move_eq_ok_iff {place : Nat} :
    g.move id place = .ok g' ↔ ∃ former, g.position? id = some former ∧
      g' = { g with
        ids := (g.ids.eraseIdx former).insertIdx (min place (g.ids.eraseIdx former).length) id } := by
  unfold move
  cases g.position? id with
  | none => simp
  | some former => simp [@eq_comm _ g']

/-- A move leaves the same blocks in another order. -/
theorem WellFormed.move (h : g.WellFormed) {place : Nat} (hmove : g.move id place = .ok g') :
    g'.WellFormed := by
  obtain ⟨former, hformer, rfl⟩ := move_eq_ok_iff.1 hmove
  obtain ⟨hlt, hid⟩ := position?_eq_some hformer
  have herase := List.getElem_cons_eraseIdx_perm hlt
  rw [hid] at herase
  exact h.reorder ((List.perm_insertIdx id _ (Nat.min_le_right _ _)).trans herase)

theorem rename_eq_ok_iff {label : String} :
    g.rename id label = .ok g' ↔ ∃ block, g.find? id = some block ∧
      g' = g.modify id fun block => { block with label } := by
  simp only [rename, bind_eq_ok_iff, get_eq_ok_iff, pure, Except.pure, Except.ok.injEq,
    @eq_comm _ g']

theorem WellFormed.rename (h : g.WellFormed) {label : String}
    (hrename : g.rename id label = .ok g') : g'.WellFormed := by
  obtain ⟨_, _, rfl⟩ := rename_eq_ok_iff.1 hrename
  exact h.modify fun _ _ => rfl

/-- A copy is a block more, which is then moved behind its original. -/
theorem WellFormed.duplicate (h : g.WellFormed) {copyId : BlockId} (hnew : copyId ∉ g.ids)
    (hdup : g.duplicate id copyId = .ok g') : g'.WellFormed := by
  obtain ⟨block, -, hmove⟩ := bind_eq_ok_iff.1 hdup
  have hadded : (g.add (block.duplicate copyId)).WellFormed := h.add hnew
  exact hadded.move hmove

/-! ## Edits of the connections -/

theorem WellFormed.remove (h : g.WellFormed) (id : BlockId) : (g.remove id).1.WellFormed := by
  unfold Graph.remove
  cases g.find? id with
  | none => exact h
  | some block =>
    have hlinks : (g.links.filter fun link => link.source ≠ id ∧ link.target ≠ id).Sublist g.links :=
      List.filter_sublist
    have hkeys : (Assoc.erase id g.stored).map Prod.fst =
        (g.stored.map Prod.fst).filter (· ≠ id) := by
      rw [List.filter_map]
      rfl
    refine
      { keys_nodup := h.keys_nodup.sublist (List.filter_sublist.map _)
        ids_perm := hkeys ▸ h.ids_perm.filter _
        own_id := fun entry hentry => h.own_id entry (List.mem_filter.1 hentry).1
        targets_nodup := h.targets_nodup.sublist (hlinks.map _)
        ends_mem := fun link hlink => ?_
        target_kind := fun link hlink other hother => ?_
        acyclic := acyclic_of_feeds_imp (fun a b hf => ?_) h.acyclic }
    · obtain ⟨hlink, hne⟩ := List.mem_filter.1 hlink
      obtain ⟨hsource, htarget⟩ := of_decide_eq_true hne
      obtain ⟨hsourceMem, htargetMem⟩ := h.ends_mem link hlink
      exact ⟨List.mem_filter.2 ⟨hsourceMem, decide_eq_true hsource⟩,
        List.mem_filter.2 ⟨htargetMem, decide_eq_true htarget⟩⟩
    · obtain ⟨hlink, hne⟩ := List.mem_filter.1 hlink
      refine h.target_kind link hlink other ?_
      rwa [find?, ← Assoc.find?_erase_of_ne (of_decide_eq_true hne).2]
    · exact h.feeds_iff.2 (hlinks.subset (link_of_feeds hf))

theorem WellFormed.unlink (h : g.WellFormed) (target : BlockId) : (g.unlink target).WellFormed := by
  have hlinks : (g.unlink target).links.Sublist g.links := List.filter_sublist
  exact
    { h with
      targets_nodup := h.targets_nodup.sublist (hlinks.map _)
      ends_mem := fun link hlink => h.ends_mem link (hlinks.subset hlink)
      target_kind := fun link hlink => h.target_kind link (hlinks.subset hlink)
      acyclic := acyclic_of_feeds_imp
        (fun a b hf => h.feeds_iff.2 (hlinks.subset (link_of_feeds hf))) h.acyclic }

/-- The graph with one connection more, which replaces the one into its target. -/
def link (g : Graph) (source target : BlockId) : Graph :=
  { g.unlink target with links := ⟨source, target⟩ :: (g.unlink target).links }

/-- What connecting two blocks that are there comes to. -/
theorem connect_eq {source target : BlockId} {first : Block}
    (hsource : g.find? source = some first) (htarget : g.find? target = some block) :
    g.connect source target =
      if source = target then .error (.invalidConnection source target .ownInput)
      else if block.kind.isSource then .error (.invalidConnection source target .intoSource)
      else if source ∈ g.reachedFrom target then .error (.invalidConnection source target .cycle)
      else if g.Feeds source target then .ok (g, none)
      else .ok (g.link source target, g.inputOf target) := by
  rw [connect, get_eq_ok_iff.2 hsource, get_eq_ok_iff.2 htarget]
  -- the checks in the order in which they are made, each with those before it passed
  by_cases hsame : source = target
  · rw [if_pos hsame]
    simp only [bind, Except.bind, if_pos hsame]
    rfl
  rw [if_neg hsame]
  by_cases hkind : block.kind.isSource = true
  · rw [if_pos hkind]
    simp only [bind, Except.bind, if_neg hsame, if_pos hkind]
    rfl
  rw [if_neg hkind]
  by_cases hcycle : source ∈ g.reachedFrom target
  · rw [if_pos hcycle]
    simp only [bind, Except.bind, if_neg hsame, if_neg hkind, if_pos hcycle]
    rfl
  rw [if_neg hcycle]
  simp only [bind, Except.bind, if_neg hsame, if_neg hkind, if_neg hcycle]
  rfl

/-- What it takes to connect two blocks, and what comes of it. -/
theorem connect_eq_ok {source target : BlockId} {replaced : Option BlockId}
    (hconnect : g.connect source target = .ok (g', replaced)) :
    (∃ first, g.find? source = some first) ∧
      (∃ block, g.find? target = some block ∧ block.kind.isSource = false) ∧
      source ≠ target ∧ source ∉ g.reachedFrom target ∧ (g' = g ∨ g' = g.link source target) := by
  have hfound := hconnect
  simp only [connect, bind_eq_ok_iff, get_eq_ok_iff] at hfound
  obtain ⟨first, hsource, block, htarget, _⟩ := hfound
  rw [connect_eq hsource htarget] at hconnect
  split_ifs at hconnect with hsame hkind hcycle hfeeds
  · obtain ⟨rfl, _⟩ := Prod.mk.inj (Except.ok.inj hconnect)
    exact ⟨⟨first, hsource⟩, ⟨block, htarget, by simpa using hkind⟩, hsame, hcycle, .inl rfl⟩
  · obtain ⟨rfl, _⟩ := Prod.mk.inj (Except.ok.inj hconnect)
    exact ⟨⟨first, hsource⟩, ⟨block, htarget, by simpa using hkind⟩, hsame, hcycle, .inr rfl⟩

theorem feeds_link {source target : BlockId} (hf : (g.link source target).Feeds a b) :
    (a = source ∧ b = target) ∨ ⟨a, b⟩ ∈ g.links := by
  rcases List.mem_cons.1 (link_of_feeds hf) with hnew | hold
  · exact .inl (Connection.mk.inj hnew)
  · exact .inr (List.mem_filter.1 hold).1

/-- Whatever is reached after a connection was reached before, or the way leads through the
    connection. -/
theorem reaches_link (h : g.WellFormed) {source target : BlockId}
    (hr : (g.link source target).Reaches a b) :
    g.Reaches a b ∨ (Relation.ReflTransGen g.Feeds a source ∧
      Relation.ReflTransGen g.Feeds target b) := by
  induction hr with
  | single hf =>
    rcases feeds_link hf with ⟨rfl, rfl⟩ | hold
    · exact .inr ⟨.refl, .refl⟩
    · exact .inl (.single (h.feeds_iff.2 hold))
  | tail _ hf ih =>
    rcases feeds_link hf with ⟨rfl, rfl⟩ | hold
    · rcases ih with hr | ⟨hr, _⟩
      · exact .inr ⟨hr.to_reflTransGen, .refl⟩
      · exact .inr ⟨hr, .refl⟩
    · have hstep := h.feeds_iff.2 hold
      exact ih.imp (fun hr => hr.tail hstep) (fun hr => ⟨hr.1, hr.2.tail hstep⟩)

/-- A connection is refused if its target reaches its source, already before the connection that it
    replaces is taken away. So it closes no cycle. -/
theorem WellFormed.connect (h : g.WellFormed) {source target : BlockId} {replaced : Option BlockId}
    (hconnect : g.connect source target = .ok (g', replaced)) : g'.WellFormed := by
  obtain ⟨hsource, ⟨block, htarget, hkind⟩, _, hcycle, rfl | rfl⟩ := connect_eq_ok hconnect
  · exact h
  have hfree := h.unlink target
  have htargetMem : target ∈ g.ids := h.mem_ids_iff.2 ⟨block, htarget⟩
  refine
    { hfree with
      targets_nodup := List.nodup_cons.2 ⟨fun hmem => ?_, hfree.targets_nodup⟩
      ends_mem := fun link hlink => ?_
      target_kind := fun link hlink other hother => ?_
      acyclic := fun id hr => ?_ }
  · obtain ⟨link, hlink, hsame⟩ := List.mem_map.1 hmem
    exact of_decide_eq_true (List.mem_filter.1 hlink).2 hsame
  · rcases List.mem_cons.1 hlink with rfl | hlink
    · exact ⟨h.mem_ids_iff.2 hsource, htargetMem⟩
    · exact hfree.ends_mem link hlink
  · rcases List.mem_cons.1 hlink with rfl | hlink
    · obtain rfl : block = other := Option.some.inj (htarget.symm.trans hother)
      exact hkind
    · exact hfree.target_kind link hlink other hother
  · -- a new cycle would go from the target of the connection back to its source
    rcases reaches_link h hr with hr | ⟨hback, hthere⟩
    · exact h.acyclic id hr
    · exact hcycle ((mem_reachedFrom h htargetMem).2 (hthere.trans hback))

end Graph

end BlockPipeline

import BlockPipeline.Engine.Scripted
import BlockPipeline.Proofs.Session.Changes

set_option autoImplicit false

/-! # Moved and copied blocks

To move a block is to take it out of the order and to put it in again (`move_of_split`). Its new place
is counted among the other blocks, so a place beyond the end is the last one there is. A copy is added
at the end and then moved to the place behind its original, which was found before the copy was added
(`duplicate_of_split`).

Neither edit does anything else: `Moved` and `Copied` say so of the whole graph, and `placed_exact` of
every graph that comes about. -/

namespace BlockPipeline.Graph

variable {g g' : Graph} {id copyId : BlockId} {block : Block} {front back : List BlockId} {place : Nat}

/-- The block stands at the wanted place, or at the last one if that is nearer, and all else is as it
    was. -/
structure Moved (g : Graph) (id : BlockId) (place : Nat) (g' : Graph) : Prop where
  position : g'.position? id = some (min place (g.ids.length - 1))
  /-- The other blocks follow each other as before. -/
  others : g'.ids.filter (· ≠ id) = g.ids.filter (· ≠ id)
  perm : g'.ids.Perm g.ids
  /-- No block is changed, the one that is moved included. -/
  stored : g'.stored = g.stored
  /-- The connections in the order in which they were made. -/
  links : g'.links = g.links
  connections : g'.connections.Perm g.connections

/-- A copy of the block stands behind it, one that has not run and is not connected, and all else is as
    it was. -/
structure Copied (g : Graph) (id copyId : BlockId) (block : Block) (g' : Graph) : Prop where
  original : g.find? id = some block
  copy : g'.find? copyId = some
    { id := copyId
      label := block.label ++ " (Copy)"
      config := block.config
      status := .idle
      outputTable := none
      isStale := false }
  others : ∀ other, other ≠ copyId → g'.find? other = g.find? other
  behind : ∃ front back, g.ids = front ++ id :: back ∧ g'.ids = front ++ id :: copyId :: back
  erased : g'.ids.erase copyId = g.ids
  links : g'.links = g.links
  connections : g'.connections = g.connections
  unconnected : ∀ link ∈ g'.connections, link.source ≠ copyId ∧ link.target ≠ copyId

/-! ## The order of the blocks -/

theorem insertIdx_length_append (front back : List BlockId) (id : BlockId) :
    (front ++ back).insertIdx front.length id = front ++ id :: back := by
  induction front with
  | nil => rfl
  | cons first front ih => exact congrArg (first :: ·) ih

/-- A block that is put in between others does not change their order. -/
theorem filter_insertIdx {others : List BlockId} (hnew : id ∉ others) (hplace : place ≤ others.length) :
    (others.insertIdx place id).filter (· ≠ id) = others := by
  have hsplit := insertIdx_length_append (others.take place) (others.drop place) id
  rw [List.take_append_drop, List.length_take_of_le hplace] at hsplit
  have hkept : ∀ part : List BlockId, part ⊆ others → part.filter (· ≠ id) = part :=
    fun part hpart => List.filter_eq_self.2 fun other hother =>
      decide_eq_true (ne_of_mem_of_not_mem (hpart hother) hnew)
  rw [hsplit, List.filter_append, List.filter_cons_of_neg (by simp),
    hkept _ (List.take_subset _ _), hkept _ (List.drop_subset _ _), List.take_append_drop]

theorem not_mem_of_split (h : g.WellFormed) (hids : g.ids = front ++ id :: back) :
    id ∉ front ++ back :=
  (List.nodup_middle.1 (hids ▸ h.ids_nodup)).notMem

theorem move_of_split (h : g.WellFormed) (hids : g.ids = front ++ id :: back) (place : Nat) :
    g.move id place =
      .ok { g with ids := (front ++ back).insertIdx (min place (front ++ back).length) id } := by
  have herase : g.ids.eraseIdx front.length = front ++ back := by
    rw [hids, List.eraseIdx_append_of_length_le (Nat.le_refl _), Nat.sub_self, List.eraseIdx_cons_zero]
  refine move_eq_ok_iff.2 ⟨front.length, position?_of_split h hids, ?_⟩
  rw [herase]

/-! ## Moving -/

theorem exists_moved (h : g.WellFormed) (hid : id ∈ g.ids) (place : Nat) :
    ∃ g', g.move id place = .ok g' ∧ g.Moved id place g' := by
  obtain ⟨front, back, hids⟩ := List.append_of_mem hid
  have hmove := move_of_split h hids place
  have hnew := not_mem_of_split h hids
  have hlength : g.ids.length - 1 = (front ++ back).length := by
    rw [hids, List.length_append, List.length_cons, List.length_append]
    omega
  have hmoved := h.move hmove
  have hothers : g.ids.filter (· ≠ id) = front ++ back := by
    rw [hids, ← insertIdx_length_append, filter_insertIdx hnew (by simp)]
  refine ⟨_, hmove, ?_, ?_, hmoved.ids_perm.trans h.ids_perm.symm, rfl, rfl, ?_⟩
  · rw [position?_eq_some_iff hmoved, hlength]
    have hplace : min place (front ++ back).length <
        ((front ++ back).insertIdx (min place (front ++ back).length) id).length := by
      rw [List.length_insertIdx_of_le_length (Nat.min_le_right _ _)]
      omega
    exact ⟨hplace, List.getElem_insertIdx_self hplace⟩
  · rw [hothers]
    exact filter_insertIdx hnew (Nat.min_le_right _ _)
  · exact (connections_perm hmoved).trans (connections_perm h).symm

/-! ## Copying -/

theorem duplicate_of_split (h : g.WellFormed) (hids : g.ids = front ++ id :: back)
    (hnew : copyId ∉ g.ids) (hfind : g.find? id = some block) :
    g.duplicate id copyId =
      .ok { g.add (block.duplicate copyId) with ids := front ++ id :: copyId :: back } := by
  have hadded : (g.add (block.duplicate copyId)).WellFormed := h.add hnew
  have hlast : (g.add (block.duplicate copyId)).ids = (front ++ id :: back) ++ copyId :: [] :=
    congrArg (· ++ [copyId]) hids
  have hfirst : (front ++ [id]).length = front.length + 1 := by simp
  have hbehind := insertIdx_length_append (front ++ [id]) back copyId
  rw [List.append_assoc, List.append_assoc, List.singleton_append, List.singleton_append,
    hfirst] at hbehind
  have hmin : min (front.length + 1) (front ++ id :: back).length = front.length + 1 := by
    rw [List.length_append, List.length_cons]
    omega
  rw [duplicate, get_eq_ok_iff.2 hfind, position?_of_split h hids]
  refine (move_of_split hadded hlast (front.length + 1)).trans ?_
  rw [List.append_nil, hmin, hbehind]

/-- A copy has no input, so it adds nothing to the connections. -/
theorem connections_of_copy (h : g.WellFormed) (hids : g.ids = front ++ id :: back)
    (hnew : copyId ∉ g.ids) (hids' : g'.ids = front ++ id :: copyId :: back)
    (hlinks : g'.links = g.links) : g'.connections = g.connections := by
  have hinputs : g'.inputOf = g.inputOf := by
    funext other
    rw [inputOf, inputOf, hlinks]
  have hinput : g.inputOf copyId = none := by
    rw [Option.eq_none_iff_forall_ne_some]
    intro feeder hfeeder
    exact hnew (h.fed_mem hfeeder)
  rw [connections, connections, hinputs, hids, hids', List.filterMap_append, List.filterMap_append,
    List.filterMap_cons, List.filterMap_cons, List.filterMap_cons, hinput]
  rfl

theorem exists_copied (h : g.WellFormed) (hid : id ∈ g.ids) (hnew : copyId ∉ g.ids) :
    ∃ block g', g.duplicate id copyId = .ok g' ∧ g.Copied id copyId block g' := by
  obtain ⟨front, back, hids⟩ := List.append_of_mem hid
  obtain ⟨block, hfind⟩ := h.mem_ids_iff.1 hid
  have hduplicate := duplicate_of_split h hids hnew hfind
  have hconnections : Graph.connections
      { g.add (block.duplicate copyId) with ids := front ++ id :: copyId :: back } = g.connections :=
    connections_of_copy h hids hnew rfl rfl
  have herased : (front ++ id :: copyId :: back).erase copyId = g.ids := by
    rw [hids] at hnew ⊢
    have hfront : copyId ∉ front := fun hmem => hnew (List.mem_append_left _ hmem)
    have hne : id ≠ copyId := fun hsame => hnew (by simp [hsame])
    rw [List.erase_append_right _ hfront, List.erase_cons_tail (by simpa using hne),
      List.erase_cons_head]
  refine ⟨block, _, hduplicate, hfind, ?_, fun other hother => ?_, ⟨front, back, hids, rfl⟩, herased,
    rfl, hconnections, ?_⟩
  · exact (find?_add g (block.duplicate copyId) copyId).trans (if_pos rfl)
  · exact (find?_add g (block.duplicate copyId) other).trans (if_neg hother)
  · rw [hconnections]
    intro link hlink
    obtain ⟨hsource, htarget⟩ := h.ends_mem link ((connections_perm h).mem_iff.1 hlink)
    exact ⟨ne_of_mem_of_not_mem hsource hnew, ne_of_mem_of_not_mem htarget hnew⟩

/-! ## Blocks that are not there -/

theorem move_eq_error (hid : id ∉ g.ids) (place : Nat) :
    g.move id place = .error (.blockNotFound id) := by
  have hposition : g.position? id = none := by
    rw [position?, List.findIdx?_eq_none_iff]
    intro other hother
    exact beq_eq_false_iff_ne.2 (ne_of_mem_of_not_mem hother hid)
  rw [move, hposition]

theorem duplicate_eq_error (h : g.WellFormed) (hid : id ∉ g.ids) (copyId : BlockId) :
    g.duplicate id copyId = .error (.blockNotFound id) := by
  rw [duplicate, get, h.find?_eq_none hid]
  rfl

/-- However a graph came about, a block of it can be moved to any place, and copied under any new
    identifier, and nothing else is changed by that. Without the block both edits fail, and the graph
    stays as it is. -/
theorem placed_exact (h : g.Occurs) (id : BlockId) :
    (id ∈ g.ids →
      (∀ place, ∃ g', g.move id place = .ok g' ∧ (Edit.move id place).apply g = g' ∧
        g.Moved id place g') ∧
      ∀ copyId, copyId ∉ g.ids → ∃ block g', g.duplicate id copyId = .ok g' ∧
        (Edit.duplicate id copyId).apply g = g' ∧ g.Copied id copyId block g') ∧
    (id ∉ g.ids →
      (∀ place, g.move id place = .error (.blockNotFound id) ∧ (Edit.move id place).apply g = g) ∧
      ∀ copyId, g.duplicate id copyId = .error (.blockNotFound id) ∧
        (Edit.duplicate id copyId).apply g = g) := by
  have hwf := h.wellFormed
  refine ⟨fun hid => ⟨fun place => ?_, fun copyId hnew => ?_⟩,
    fun hid => ⟨fun place => ?_, fun copyId => ?_⟩⟩
  · obtain ⟨g', hmove, hmoved⟩ := exists_moved hwf hid place
    refine ⟨g', hmove, ?_, hmoved⟩
    rw [Edit.apply, hmove]
    rfl
  · obtain ⟨block, g', hduplicate, hcopied⟩ := exists_copied hwf hid hnew
    refine ⟨block, g', hduplicate, ?_, hcopied⟩
    rw [Edit.apply, hduplicate]
    rfl
  · have herror := move_eq_error hid place
    refine ⟨herror, ?_⟩
    rw [Edit.apply, herror]
    rfl
  · have herror := duplicate_eq_error hwf hid copyId
    refine ⟨herror, ?_⟩
    rw [Edit.apply, herror]
    rfl

/-- A filter that has run and is stale is moved to a place far beyond the end, and copied. The copy is
    idle though the filter is not, and has no input though the filter has one. -/
theorem placed_after_run :
    let load : BlockId := ⟨1⟩
    let filter : BlockId := ⟨2⟩
    let last : BlockId := ⟨3⟩
    let copy : BlockId := ⟨4⟩
    let edited := [Session.Edit.addConfig load (.load { tableName := "orders" }),
      .addConfig filter (.filter { column := "amount", value := some (.text "7") }),
      .addKind last .chart, .connect load filter].foldl Session.Edit.apply .empty
    let ran := (Scripted.engine.runAll {} edited ⟨[], [], []⟩).session
    let g := ((Session.Edit.setConfig load (.load { tableName := "sales" })).apply ran).graph
    g.Occurs ∧ g.ids = [load, filter, last] ∧
      (g.find? filter).map (fun block => (block.status, block.outputTable, block.isStale)) =
        some (.success, some (.derived filter), true) ∧
      (∃ g', g.move filter (2 ^ 64 - 1) = .ok g' ∧ g.Moved filter (2 ^ 64 - 1) g' ∧
        g'.position? filter = some 2) ∧
      (∃ block g', g.duplicate filter copy = .ok g' ∧ g.Copied filter copy block g' ∧
        g'.inputOf copy = none ∧ g'.inputOf filter = some load) ∧
      (Edit.move copy 0).apply g = g ∧ (Edit.duplicate copy ⟨5⟩).apply g = g := by
  intro load filter last copy edited ran g
  have hreach : ran.Reachable := .runAll _ _ _ (.edits .empty (by decide +kernel))
  have hoccurs : g.Occurs := .held (.edit _ hreach (by decide +kernel)) rfl
  have hids : g.ids = [load, filter, last] := by decide +kernel
  have hstate : (g.find? filter).map (fun block => (block.status, block.outputTable, block.isStale)) =
      some (.success, some (.derived filter), true) := by decide +kernel
  have hinput : g.inputOf filter = some load ∧ g.inputOf copy = none := by decide +kernel
  clear_value g
  have hmem : filter ∈ g.ids := by simp [hids]
  have hnew : copy ∉ g.ids := by rw [hids]; decide
  obtain ⟨hmoves, hcopies⟩ := (placed_exact hoccurs filter).1 hmem
  obtain ⟨g₁, hmove, -, hmoved⟩ := hmoves (2 ^ 64 - 1)
  obtain ⟨block, g₂, hduplicate, -, hcopied⟩ := hcopies copy hnew
  obtain ⟨hmissed, hmissedCopies⟩ := (placed_exact hoccurs copy).2 hnew
  have hplace : g₁.position? filter = some 2 := by
    rw [hmoved.position, hids]
    rfl
  refine ⟨hoccurs, hids, hstate, ⟨g₁, hmove, hmoved, hplace⟩,
    ⟨block, g₂, hduplicate, hcopied, ?_, ?_⟩, (hmissed 0).2, (hmissedCopies ⟨5⟩).2⟩
  · rw [inputOf, hcopied.links]
    exact hinput.2
  · rw [inputOf, hcopied.links]
    exact hinput.1

end BlockPipeline.Graph

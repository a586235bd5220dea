import BlockPipeline.Proofs.Graph.Editing

set_option autoImplicit false

/-! # Places in pipeline order

What stands behind a block is told by the places of both (`mem_blocksAfter`). If every connection leads
on in pipeline order, the places grow along each way (`Forward.lt_of_reaches`). -/

namespace BlockPipeline.Graph

variable {g : Graph} {a b id : BlockId} {front back : List BlockId}

/-- Each block stands behind the one that feeds it. -/
def Forward (g : Graph) : Prop :=
  ∀ a b placeA placeB, g.Feeds a b → g.position? a = some placeA → g.position? b = some placeB →
    placeA < placeB

theorem exists_position (h : g.WellFormed) (hid : id ∈ g.ids) : ∃ place, g.position? id = some place := by
  obtain ⟨place, hlt, hplace⟩ := List.getElem_of_mem hid
  exact ⟨place, (position?_eq_some_iff h).2 ⟨hlt, hplace⟩⟩

/-! ## What stands behind a block -/

theorem mem_blocksAfter (h : g.WellFormed) : b ∈ g.blocksAfter a ↔
    ∃ placeA placeB, g.position? a = some placeA ∧ g.position? b = some placeB ∧ placeA < placeB := by
  unfold blocksAfter
  cases ha : g.position? a with
  | none => simp
  | some placeA =>
    simp only [List.mem_drop_iff_getElem, position?_eq_some_iff h, Option.some_inj]
    constructor
    · rintro ⟨more, hlt, hb⟩
      exact ⟨placeA, _, rfl, ⟨by omega, hb⟩, by omega⟩
    · rintro ⟨_, placeB, rfl, ⟨hlt, hb⟩, hbehind⟩
      obtain ⟨more, rfl⟩ := Nat.exists_eq_add_of_lt hbehind
      have hplace : placeA + 1 + more = placeA + more + 1 := by omega
      exact ⟨more, by omega, by simpa only [hplace] using hb⟩

theorem not_mem_blocksAfter_self (h : g.WellFormed) : id ∉ g.blocksAfter id := by
  intro hmem
  obtain ⟨place, other, hplace, hother, hlt⟩ := (mem_blocksAfter h).1 hmem
  obtain rfl := Option.some.inj (hplace.symm.trans hother)
  exact Nat.lt_irrefl _ hlt

theorem position?_of_split (h : g.WellFormed) (hids : g.ids = front ++ id :: back) :
    g.position? id = some front.length :=
  (position?_eq_some_iff h).2 ⟨by simp [hids], by simp [hids]⟩

theorem blocksAfter_of_split (h : g.WellFormed) (hids : g.ids = front ++ id :: back) :
    g.blocksAfter id = back := by
  simp [blocksAfter, position?_of_split h hids, hids]

/-! ## Connections that lead on -/

/-- Along each way the places grow. -/
theorem Forward.lt_of_reaches (h : g.WellFormed) (hforward : g.Forward) (hr : g.Reaches a b)
    {placeA placeB : Nat} (ha : g.position? a = some placeA) (hb : g.position? b = some placeB) :
    placeA < placeB := by
  induction hr generalizing placeB with
  | single hf => exact hforward _ _ _ _ hf ha hb
  | tail _ hf ih =>
    obtain ⟨between, hbetween⟩ := exists_position h (h.feeder_mem hf)
    exact Nat.lt_trans (ih hbetween) (hforward _ _ _ _ hf hbetween hb)

theorem Forward.mem_blocksAfter (h : g.WellFormed) (hforward : g.Forward) (hr : g.Reaches a b) :
    b ∈ g.blocksAfter a := by
  obtain ⟨_, hfirst, _⟩ := Relation.TransGen.head'_iff.1 hr
  obtain ⟨_, _, hlast⟩ := Relation.TransGen.tail'_iff.1 hr
  obtain ⟨placeA, ha⟩ := exists_position h (h.feeder_mem hfirst)
  obtain ⟨placeB, hb⟩ := exists_position h (h.fed_mem hlast)
  exact (Graph.mem_blocksAfter h).2 ⟨placeA, placeB, ha, hb, hforward.lt_of_reaches h hr ha hb⟩

/-- Whatever is reached stands behind, just when each connection leads on. -/
theorem forward_iff (h : g.WellFormed) : g.Forward ↔ ∀ id, g.downstreamOf id ⊆ g.blocksAfter id := by
  constructor
  · intro hforward id b hb
    exact hforward.mem_blocksAfter h ((mem_downstreamOf h).1 hb)
  · intro hbehind a b placeA placeB hf ha hb
    obtain ⟨_, _, ha', hb', hlt⟩ :=
      (mem_blocksAfter h).1 (hbehind a ((mem_downstreamOf h).2 (.single hf)))
    rw [ha] at ha'
    rw [hb] at hb'
    cases ha'
    cases hb'
    exact hlt

end BlockPipeline.Graph

import BlockPipeline.Proofs.Json.KeyOrder
import BlockPipeline.Proofs.Session.Updates

set_option autoImplicit false

/-! # Updates in a row

Each update decodes the configuration anew, so a second patch is laid over other fields than the first
one was: names that no slot has are gone, and what the first patch gave is written in another way. But
decoding looks at each slot on its own, so a slot overlaid twice is what it is when overlaid once
(`Overlaid.trans`). And what a configuration was before it is replaced does not matter to the session
(`replaceConfig_replaceConfig`). So two updates do what one update does whose patch is the first one
overlaid by the second (`updateConfig_composes`). -/

namespace BlockPipeline

open Json

variable {p q : List (String × Json)} {name : String}

/-! ## Patches -/

namespace Json

/-- The fields of the first patch overlaid by those of the second one. -/
def overlay (p q : List (String × Json)) : List (String × Json) := Assoc.ofList (p ++ q)

theorem mem_overlay {field : String × Json} (h : field ∈ overlay p q) : field ∈ p ∨ field ∈ q :=
  List.mem_append.1 ((Assoc.mem_foldl_insert h).resolve_right List.not_mem_nil)

theorem find?_overlay (p q : List (String × Json)) (name : String) :
    Assoc.find? name (Assoc.ofList (overlay p q)) =
      (Assoc.find? name (Assoc.ofList q)).or (Assoc.find? name (Assoc.ofList p)) := by
  have hnodup : ((overlay p q).map Prod.fst).Nodup :=
    (Assoc.ascending_nil.insert_all (p ++ q)).keys_nodup
  rw [Assoc.find?_ofList hnodup, overlay, Assoc.ofList, List.foldl_append, Assoc.find?_foldl_insert]
  rfl

end Json

namespace BlockConfig

variable {config config' config'' : BlockConfig}

/-- Overlaid twice is overlaid once with what the second table has, or else the first one. -/
theorem Overlaid.trans {both : List (String × Json)} (h : config.Overlaid p config')
    (h' : config'.Overlaid q config'')
    (hboth : ∀ name, Assoc.find? name both = (Assoc.find? name q).or (Assoc.find? name p)) :
    config.Overlaid both config'' := by
  cases h with
  | load hslots =>
    cases h' with
    | load hslots' => exact .load fun slot hslot => (hslots slot hslot).trans (hslots' slot hslot) (hboth _)
  | filter hslots =>
    cases h' with
    | filter hslots' =>
      exact .filter fun slot hslot => (hslots slot hslot).trans (hslots' slot hslot) (hboth _)
  | aggregate hslots =>
    cases h' with
    | aggregate hslots' =>
      exact .aggregate fun slot hslot => (hslots slot hslot).trans (hslots' slot hslot) (hboth _)
  | sort hslots =>
    cases h' with
    | sort hslots' => exact .sort fun slot hslot => (hslots slot hslot).trans (hslots' slot hslot) (hboth _)
  | chart hslots =>
    cases h' with
    | chart hslots' =>
      exact .chart fun slot hslot => (hslots slot hslot).trans (hslots' slot hslot) (hboth _)
  | insight hslots =>
    cases h' with
    | insight hslots' =>
      exact .insight fun slot hslot => (hslots slot hslot).trans (hslots' slot hslot) (hboth _)

/-- An empty table overlays nothing. -/
theorem Overlaid.nil (config : BlockConfig) : config.Overlaid [] config := by
  cases config with
  | load c => exact .load fun _ _ => rfl
  | filter c => exact .filter fun _ _ => rfl
  | aggregate c => exact .aggregate fun _ _ => rfl
  | sort c => exact .sort fun _ _ => rfl
  | chart c => exact .chart fun _ _ => rfl
  | insight c => exact .insight fun _ _ => rfl

theorem Patched.trans (h : config.Patched (.object p) config')
    (h' : config'.Patched (.object q) config'') :
    config.Patched (.object (overlay p q)) config'' := by
  have hkind := h.kind_eq
  cases h with
  | object kept overlaid =>
    cases h' with
    | object kept' overlaid' =>
      refine .object (fun value hmem => ?_) (overlaid.trans overlaid' (find?_overlay p q))
      rcases mem_overlay hmem with hmem | hmem
      · exact kept value hmem
      · exact hkind ▸ kept' value hmem

theorem Patched.nil (config : BlockConfig) : config.Patched (.object []) config :=
  .object (fun _ hmem => absurd hmem List.not_mem_nil) (.nil config)

end BlockConfig

/-! ## Replacements -/

/-- Marking blocks changes each entry on its own. -/
theorem Graph.markStale_eq (g : Graph) (ids : List BlockId) : g.markStale ids =
    { g with stored := g.stored.map fun entry =>
        (entry.1, if entry.1 ∈ ids then entry.2.markStale else entry.2) } := by
  unfold markStale
  induction ids generalizing g with
  | nil => simp
  | cons id ids ih =>
    rw [List.foldl_cons, ih, modify, Assoc.modify, List.map_map]
    congr 1
    refine List.map_congr_left fun entry _ => ?_
    by_cases hid : entry.1 = id
    · simp [hid, Block.markStale]
    · simp [hid]

/-- A configuration that is replaced leaves nothing behind, marks included. -/
theorem Graph.markStale_modify (g : Graph) (id : BlockId) (ids : List BlockId)
    (config config' : BlockConfig) :
    (((g.modify id fun block => { block with config }).markStale ids).modify id fun block =>
        { block with config := config' }).markStale ids =
      (g.modify id fun block => { block with config := config' }).markStale ids := by
  simp only [markStale_eq, modify, Assoc.modify, List.map_map]
  congr 1
  refine List.map_congr_left fun entry _ => ?_
  by_cases hid : entry.1 = id
  · by_cases hmem : id ∈ ids
    · simp [hid, hmem, Block.markStale]
    · simp [hid, hmem]
  · by_cases hmem : entry.1 ∈ ids
    · simp [hid, hmem, Block.markStale]
    · simp [hid, hmem]

namespace Session

variable {s s₁ s₂ : Session} {id : BlockId} {affected₁ affected₂ : List BlockId}

theorem replaceConfig_eq (s : Session) (id : BlockId) (config : BlockConfig) :
    s.replaceConfig id config =
      (s.withGraph ((s.graph.modify id fun block => { block with config }).markStale
        (s.policy.affected s.graph id)), s.policy.affected s.graph id) := by
  have haffected : s.policy.affected (s.graph.modify id fun block => { block with config }) id =
      s.policy.affected s.graph id := StalenessPolicy.affected_modify _
  simp only [replaceConfig, haffected]

/-- The block has the configuration afterwards. -/
theorem exists_config_replaceConfig {block : Block} (hfind : s.graph.find? id = some block)
    (config : BlockConfig) :
    ∃ after, (s.replaceConfig id config).1.graph.find? id = some after ∧ after.config = config := by
  refine ⟨_, (Graph.find?_markStale _ _ id).trans (congrArg _ (Graph.find?_modify_self hfind)), ?_⟩
  split <;> rfl

/-- Of two replacements the first one does not matter. -/
theorem replaceConfig_replaceConfig (s : Session) (id : BlockId) (config config' : BlockConfig) :
    (s.replaceConfig id config).1.replaceConfig id config' = s.replaceConfig id config' := by
  obtain ⟨hids, hlinks⟩ := shape_replaceConfig s id config
  have hcontains : (s.replaceConfig id config).1.graph.contains id = s.graph.contains id := by
    rw [replaceConfig_eq, Graph.contains, Graph.contains, withGraph, Graph.find?_markStale,
      Graph.find?_modify, Option.isSome_map, Option.isSome_map]
  have hpolicy : (s.replaceConfig id config).1.policy = s.policy := rfl
  have haffected : s.policy.affected (s.replaceConfig id config).1.graph id =
      s.policy.affected s.graph id := StalenessPolicy.affected_congr hids hlinks hcontains
  rw [replaceConfig_eq (s.replaceConfig id config).1, hpolicy, haffected, replaceConfig_eq s id config',
    replaceConfig_eq s id config]
  exact congrArg (fun graph => (s.withGraph graph, s.policy.affected s.graph id))
    (s.graph.markStale_modify id _ config config')

/-- What is found in a session when a block has been given the configuration that it has. -/
theorem find?_replaceConfig_self {block : Block} (hfind : s.graph.find? id = some block)
    (other : BlockId) : (s.replaceConfig id block.config).1.graph.find? other =
      (s.graph.find? other).map fun block =>
        if other ∈ s.policy.affected s.graph id then block.markStale else block := by
  have hmodify : (s.graph.modify id fun former => { former with config := block.config }).find? other =
      s.graph.find? other := by
    by_cases hsame : other = id
    · rw [hsame, Graph.find?_modify_self hfind, hfind]
    · exact Graph.find?_modify_of_ne hsame
  rw [replaceConfig_eq, withGraph, Graph.find?_markStale, hmodify]

/-- Two updates of a block in a row do what one update does whose patch is the first one overlaid by the
    second: the session and the blocks that are marked are the same. An update with an empty patch
    succeeds if the block is there, and only marks blocks. For a configuration is read back from its
    value, whether its fields are in the order of writing or in key order. -/
theorem updateConfig_composes (s : Session) (id : BlockId) :
    (∀ p q s₁ s₂ affected₁ affected₂, s.updateConfig id (.object p) = .ok (s₁, affected₁) →
      s₁.updateConfig id (.object q) = .ok (s₂, affected₂) →
        s.updateConfig id (.object (overlay p q)) = .ok (s₂, affected₂)) ∧
    (∀ block, s.graph.find? id = some block → ∃ s',
      s.updateConfig id (.object []) = .ok (s', s.policy.affected s.graph id) ∧
        ∀ other, s'.graph.find? other = (s.graph.find? other).map fun block =>
          if other ∈ s.policy.affected s.graph id then { block with isStale := true } else block) ∧
    ∀ config : BlockConfig, BlockConfig.ofJson config.toJson = .ok config ∧
      BlockConfig.ofJson config.toJson.sorted = .ok config := by
  refine ⟨fun p q s₁ s₂ affected₁ affected₂ hfirst hsecond => ?_, fun block hfind => ?_,
    fun config => ⟨config.decode_toJson, config.ofJson_sorted⟩⟩
  · obtain ⟨block, config, hfind, hpatched, hreplaced⟩ := updateConfig_eq_ok_iff.1 hfirst
    obtain rfl : (s.replaceConfig id config).1 = s₁ := congrArg Prod.fst hreplaced
    obtain ⟨between, config', hfind', hpatched', hreplaced'⟩ := updateConfig_eq_ok_iff.1 hsecond
    -- the second update starts from the configuration that the first one made
    obtain ⟨after, hafter, rfl⟩ := exists_config_replaceConfig hfind config
    obtain rfl := Option.some.inj (hafter.symm.trans hfind')
    rw [replaceConfig_replaceConfig] at hreplaced'
    exact updateConfig_eq_ok_iff.2 ⟨block, config', hfind, hpatched.trans hpatched', hreplaced'⟩
  · have hupdate := updateConfig_eq_ok_iff.2
      ⟨block, block.config, hfind, .nil block.config, (replaceConfig_eq s id block.config)⟩
    refine ⟨_, hupdate, fun other => ?_⟩
    have hfound := find?_replaceConfig_self hfind other
    rwa [replaceConfig_eq] at hfound

/-- The first patch takes away what a filter compares with and has a name that no filter has, the second
    one gives the filter another value and repeats its kind. Together they are one patch. -/
theorem updates_of_filter :
    let load : BlockId := ⟨1⟩
    let filter : BlockId := ⟨2⟩
    let sort : BlockId := ⟨3⟩
    let s := [Edit.addConfig load (.load { tableName := "orders" }),
      .addConfig filter (.filter { column := "amount", value := some (.text "7") }),
      .addConfig sort (.sort { column := "amount" })].foldl Edit.apply .empty
    let p : List (String × Json) := [("value", .null), ("column", .string "price"), ("colour", .bool true)]
    let q : List (String × Json) := [("value", .ofNat 7), ("type", .string "filter")]
    let s₁ := (Edit.updateConfig filter (.object p)).apply s
    let s₂ := (Edit.updateConfig filter (.object q)).apply s₁
    s.updateConfig filter (.object p) = .ok (s₁, [sort]) ∧
      s₁.updateConfig filter (.object q) = .ok (s₂, [sort]) ∧
      overlay p q = [("colour", .bool true), ("column", .string "price"), ("type", .string "filter"),
        ("value", .ofNat 7)] ∧
      s.updateConfig filter (.object (overlay p q)) = .ok (s₂, [sort]) ∧
      (s₁.graph.find? filter).map Block.config = some (.filter { column := "price" }) ∧
      (s₂.graph.find? filter).map Block.config =
        some (.filter { column := "price", value := some (.number (.integer 7)) }) ∧
      (s₂.graph.find? sort).map Block.isStale = some true ∧
      ∃ s', s₂.updateConfig filter (.object []) = .ok (s', [sort]) := by
  intro load filter sort s p q s₁ s₂
  have hfirst : s.updateConfig filter (.object p) = .ok (s₁, [sort]) := by decide +kernel
  have hsecond : s₁.updateConfig filter (.object q) = .ok (s₂, [sort]) := by decide +kernel
  have hfound : (s₂.graph.find? filter).isSome := by decide +kernel
  obtain ⟨block, hfind⟩ := Option.isSome_iff_exists.1 hfound
  have haffected : s₂.policy.affected s₂.graph filter = [sort] := by decide +kernel
  obtain ⟨s', hempty, -⟩ := (updateConfig_composes s₂ filter).2.1 block hfind
  rw [haffected] at hempty
  exact ⟨hfirst, hsecond, by decide +kernel,
    (updateConfig_composes s filter).1 p q s₁ s₂ _ _ hfirst hsecond, by decide +kernel,
    by decide +kernel, by decide +kernel, s', hempty⟩

end Session

end BlockPipeline

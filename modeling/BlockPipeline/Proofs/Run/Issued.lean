import BlockPipeline.Proofs.Run.Turns
import BlockPipeline.Proofs.Sql.Targets

set_option autoImplicit false

/-! # What calls may be made for a block

A run describes tables and queries them, and makes the tables of the blocks that it runs. Whatever it
makes for a block is the table of that block, as a table or as a view by the kind of the block
(`Issued`). In a run each call belongs to the turn of one block (`Conducted.segmented`). -/

namespace BlockPipeline

/-- The calls that are ever made for a block of the kind, be it run or removed. -/
inductive Issued (id : BlockId) (kind : BlockKind) : Call → Prop where
  | describe (table : TableName) : Issued id kind (.describe table)
  | preview (table : TableName) (limit : Nat) :
    Issued id kind (.execute (Sql.preview table limit).text)
  | countRows (table : TableName) : Issued id kind (.execute (Sql.countRows table).text)
  | make {config : BlockConfig} (input : TableName) (kind_eq : config.kind = kind)
    (derived : kind ≠ .load) : Issued id kind (.execute (Sql.compile config input (.derived id)).text)
  | drop (derived : kind ≠ .load) : Issued id kind (.execute (Sql.drop kind (.derived id)).text)

/-- What the statement of a call makes or removes. -/
def Call.target? : Call → Option Sql.Target
  | .execute sql => Sql.target? sql
  | .describe _ | .register _ _ => none

/-- The calls fall into one segment for each of the blocks, in order, and those of a segment are such
    as are allowed for its block. -/
def Transcript.Segmented (allowed : BlockId → Call → Prop) (ids : List BlockId)
    (transcript : Transcript) : Prop :=
  ∃ segments : List Transcript, transcript = segments.flatten ∧
    List.Forall₂ (fun id segment => ∀ exchange ∈ segment, allowed id exchange.call) ids segments

/-- The blocks that were run and not skipped, in order. -/
def Visits.ran (visits : Visits) : List BlockId :=
  (visits.filter fun visit => !visit.outcome.isSkip).map Visit.block

theorem Outcome.isSkip_iff {outcome : Outcome} : outcome.isSkip = true ↔ outcome = .skipped := by
  cases outcome <;> simp [Outcome.isSkip]

variable {σ : Type} {config : RunConfig} {s : Session} {block : Block} {id : BlockId}
  {kind : BlockKind} {calls : List Call} {segment transcript : Transcript} {outcome : Outcome}

theorem Transcript.Segmented.imp {allowed allowed' : BlockId → Call → Prop} {ids : List BlockId}
    (himp : ∀ id call, allowed id call → allowed' id call) (h : transcript.Segmented allowed ids) :
    transcript.Segmented allowed' ids := by
  obtain ⟨segments, hflatten, hsegments⟩ := h
  exact ⟨segments, hflatten, hsegments.imp fun id segment hsegment exchange hmem =>
    himp id _ (hsegment exchange hmem)⟩

/-- Each call is allowed for one of the blocks. -/
theorem Transcript.Segmented.exists_mem {allowed : BlockId → Call → Prop} {ids : List BlockId}
    (h : transcript.Segmented allowed ids) {exchange : Exchange} (hmem : exchange ∈ transcript) :
    ∃ id ∈ ids, allowed id exchange.call := by
  obtain ⟨segments, rfl, hsegments⟩ := h
  obtain ⟨segment, hsegment, hexchange⟩ := List.mem_flatten.1 hmem
  induction hsegments with
  | nil => cases hsegment
  | @cons id other ids segments hallowed _ ih =>
    rcases List.mem_cons.1 hsegment with rfl | hsegment
    · exact ⟨id, List.mem_cons_self, hallowed exchange hexchange⟩
    · obtain ⟨id, hid, h⟩ := ih (List.mem_flatten_of_mem hsegment hexchange) hsegment
      exact ⟨id, List.mem_cons_of_mem _ hid, h⟩

/-! ## One turn -/

theorem Answers.call_mem (h : Answers calls outcome segment) {exchange : Exchange}
    (hmem : exchange ∈ segment) : exchange.call ∈ calls :=
  h.initial.subset (List.mem_map_of_mem hmem)

theorem issued_of_mem_fetchCalls {table : TableName} {call : Call}
    (h : call ∈ fetchCalls config table) : Issued id kind call := by
  simp only [fetchCalls, List.mem_cons, List.not_mem_nil, or_false] at h
  rcases h with rfl | rfl | rfl
  · exact .describe table
  · exact .preview table config.previewLimit
  · exact .countRows table

theorem Told.issued (h : Told config s block outcome segment) :
    ∀ exchange ∈ segment, Issued block.id block.kind exchange.call := by
  intro exchange hmem
  cases h with
  | incomplete _ => cases hmem
  | unfed _ _ _ => cases hmem
  | load _ _ answers => exact issued_of_mem_fetchCalls (answers.call_mem hmem)
  | fed _ derived input_eq answers =>
    rcases List.mem_cons.1 (answers.call_mem hmem) with hmake | hfetch
    · rw [hmake]
      exact .make _ rfl derived
    · exact issued_of_mem_fetchCalls hfetch

/-! ## All turns -/

/-- The call is one of those made for the block that the session has under the identifier. -/
def Session.Issues (s : Session) (id : BlockId) (call : Call) : Prop :=
  ∃ block, s.graph.find? id = some block ∧ Issued id block.kind call

section
variable {engine : Engine σ} {entry : BlockId → Prop} {start p : Progress (σ × Transcript)}
  {turns past : List (Turn σ)} {turn : Turn σ}

theorem Turn.Follows.issues (hwf : start.session.graph.WellFormed)
    (h : turn.Follows engine config entry start past) :
    ∀ exchange ∈ turn.segment, start.session.Issues turn.visit.block exchange.call := by
  intro exchange hmem
  have hran : turn.visit.outcome ≠ .skipped := fun hskip => by
    rw [h.skipped hskip] at hmem
    cases hmem
  obtain ⟨block, hfind, htold⟩ := h.ran hran
  -- the session of the moment has the blocks that the run began with
  have houtline := Graph.find?_of_outline h.reached.outline_eq turn.visit.block
  rw [hfind, Option.map_some] at houtline
  obtain ⟨former, hformer, hsame⟩ := Option.map_eq_some_iff.1 houtline.symm
  obtain ⟨hid, -, hconfig⟩ := BlockDefinition.mk.inj hsame
  have hkind : former.kind = block.kind := congrArg BlockConfig.kind hconfig
  refine ⟨former, hformer, ?_⟩
  rw [hkind, ← hwf.id_of_find? hformer, hid]
  exact htold.issued exchange hmem

/-- The segments of the blocks that are skipped are empty. -/
theorem flatMap_segment_filter (h : ∀ turn ∈ turns, turn.visit.outcome = .skipped → turn.segment = []) :
    (turns.filter fun turn => !turn.visit.outcome.isSkip).flatMap Turn.segment =
      turns.flatMap Turn.segment := by
  induction turns with
  | nil => rfl
  | cons turn turns ih =>
    obtain ⟨hturn, hturns⟩ := List.forall_mem_cons.1 h
    rw [List.flatMap_cons, ← ih hturns, List.filter_cons]
    split
    · rw [List.flatMap_cons]
    · next hskip => rw [hturn (by simpa [Outcome.isSkip_iff] using hskip), List.nil_append]

/-- The calls of a run are made for the blocks that it runs, one after the other. -/
theorem Conducted.segmented (hwf : start.session.graph.WellFormed)
    (h : Conducted engine config entry start p turns) :
    p.engineState.2.Segmented start.session.Issues p.visits.ran := by
  have hfollows : ∀ turn ∈ turns, ∃ past, turn.Follows engine config entry start past := by
    intro turn hmem
    obtain ⟨past, later, hsplit⟩ := List.append_of_mem hmem
    exact ⟨past, (h.follows past turn later hsplit).1⟩
  have hskipped : ∀ turn ∈ turns, turn.visit.outcome = .skipped → turn.segment = [] :=
    fun turn hmem => (hfollows turn hmem).elim fun _ hturn => hturn.skipped
  refine ⟨(turns.filter fun turn => !turn.visit.outcome.isSkip).map Turn.segment, ?_, ?_⟩
  · rw [h.transcript, ← flatMap_segment_filter hskipped, List.flatMap_def]
  · rw [Visits.ran, h.visits, List.filter_map, List.map_map, List.forall₂_map_left_iff,
      List.forall₂_map_right_iff]
    refine List.forall₂_same.2 fun turn hmem => ?_
    obtain ⟨past, hturn⟩ := hfollows turn (List.mem_of_mem_filter hmem)
    exact hturn.issues hwf

end

end BlockPipeline

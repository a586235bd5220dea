import BlockPipeline.Proofs.Json.Reports
import BlockPipeline.Run.Config

set_option autoImplicit false

/-! # Run configurations that are built or read

A configuration that is built keeps one row of a result at least. One that is read from a text keeps as
many as the text says, also if these are none at all. So the two ways to a configuration lead to the
same one except for the limit zero, which is refused on one of them only (`ofText_eq_build_iff`). -/

namespace BlockPipeline.RunConfig

open Json

variable {config : RunConfig} {limit : Nat} {drop : Bool}

/-! ## Reading -/

theorem written (config : RunConfig) : record.Written
    [("preview_limit", .ofNat config.previewLimit), ("drop_on_remove", .bool config.dropOnRemove)]
    config where
  stores := .field rfl (Node.asNatural_ofNat "usize" config.previewLimit) (.field rfl rfl .nil)
  nodup := by simp
  required := by simp [record, Field.required]

theorem readable (h : config.previewLimit < 2 ^ 64) : Readable 1 config.toJson :=
  .object (ReadableFields.cons (.ofNat h) (.cons (.bool _) .nil))

/-- A configuration is read back from either form of its text, whatever its limit. -/
theorem ofText_chars (h : config.previewLimit < 2 ^ 64) (style : Style) :
    ofText (String.ofList (config.toJson.chars style 0)) = .ok config :=
  (readable h).decodeText_chars (by decide) config.written.decode style

/-! ## Building -/

theorem build_given (limit : Nat) (drop : Bool) : build (some limit) (some drop) =
    if limit = 0 then .error .noPreview else .ok ⟨limit, drop⟩ := by
  simp [build]

/-- A configuration that is built keeps a row: the usual limit is not zero, and no other limit is
    taken that is. -/
theorem one_le_of_build {limit : Option Nat} {drop : Option Bool} (h : build limit drop = .ok config) :
    1 ≤ config.previewLimit := by
  rw [build] at h
  split at h
  · cases h
  · next hlimit =>
    cases h
    cases limit with
    | none => exact Nat.le_of_ble_eq_true rfl
    | some limit => exact Nat.one_le_iff_ne_zero.2 fun hzero => hlimit (congrArg some hzero)

/-- Of a limit and whether tables are removed, reading makes a configuration in any case, and building
    makes one that keeps a row at least. So both make the same one if the limit is not zero, and only
    then. -/
theorem ofText_eq_build_iff (h : limit < 2 ^ 64) (style : Style) :
    ofText (String.ofList ((toJson ⟨limit, drop⟩).chars style 0)) = .ok ⟨limit, drop⟩ ∧
    ((ofText (String.ofList ((toJson ⟨limit, drop⟩).chars style 0))).toOption =
      (build (some limit) (some drop)).toOption ↔ 1 ≤ limit) ∧
    (limit = 0 → build (some limit) (some drop) = .error .noPreview) ∧
    ∀ given givenDrop config, build given givenDrop = .ok config → 1 ≤ config.previewLimit := by
  have hread : ofText (String.ofList ((toJson ⟨limit, drop⟩).chars style 0)) = .ok ⟨limit, drop⟩ :=
    ofText_chars h style
  refine ⟨hread, ?_, fun hzero => ?_, fun _ _ _ => one_le_of_build⟩
  · rw [hread, build_given]
    split
    · next hzero =>
      subst hzero
      exact iff_of_false nofun (by omega)
    · next hlimit => exact iff_of_true rfl (by omega)
  · rw [build_given, if_pos hzero]

/-- The least limit that both ways take, and the greatest one that can be written. -/
theorem ofText_eq_build_limits :
    let least := String.ofList ((toJson ⟨1, false⟩).chars .compact 0)
    let greatest := String.ofList ((toJson ⟨18446744073709551615, true⟩).chars .pretty 0)
    (ofText least).toOption = (build (some 1) (some false)).toOption ∧
      (ofText greatest).toOption = (build (some 18446744073709551615) (some true)).toOption :=
  ⟨(ofText_eq_build_iff (by decide) .compact).2.1.2 (by decide),
    (ofText_eq_build_iff (by decide) .pretty).2.1.2 (by decide)⟩

/-- The limit zero is read, and not built. -/
theorem zero_read_not_built :
    ofText "\x7b\"preview_limit\":0,\"drop_on_remove\":true\x7d" = .ok ⟨0, true⟩ ∧
      build (some 0) (some true) = .error .noPreview := by
  decide +kernel

end BlockPipeline.RunConfig

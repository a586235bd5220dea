import BlockPipeline.Database.Value
import BlockPipeline.Proofs.Temporal.Writing

set_option autoImplicit false

/-! # The JSON of days and instants

A day becomes the text of its date and an instant the text of its date and time, if they lie in the
range that is shown, and otherwise null (`toJson_temporal`). The limits of a day are whole years. Those
of an instant are narrower by the hours that an offset may add. -/

namespace BlockPipeline.Database.Value

open Temporal

/-- A day from the first to the last one that is shown becomes the text of its date, and another day
    becomes null. -/
structure RendersDay (days : Int) : Prop where
  null : toJson (.date days) = .null ↔ ¬ (Date.firstDay ≤ days ∧ days ≤ Date.lastDay)
  text : Date.firstDay ≤ days → days ≤ Date.lastDay → ∃ date text, Date.Falls days date ∧
    date.Written text.toList ∧ toJson (.date days) = .string text

/-- An instant in the range becomes a text that says when it is, and another instant becomes null. -/
structure RendersInstant (unit : TimeUnit) (n : Int) : Prop where
  null : toJson (.timestamp unit n) = .null ↔
    ¬ (Timestamp.first ≤ n * unit.nanos ∧ n * unit.nanos ≤ Timestamp.last)
  text : Timestamp.first ≤ n * unit.nanos → n * unit.nanos ≤ Timestamp.last →
    ∃ text, Timestamp.Written ⟨n * unit.nanos⟩ text.toList ∧
      Timestamp.ofText? text = some ⟨n * unit.nanos⟩ ∧ toJson (.timestamp unit n) = .string text

theorem rendersDay (days : Int) : RendersDay days := by
  by_cases h : Date.firstDay ≤ days ∧ days ≤ Date.lastDay
  · have hjson : toJson (.date days) = .string (Date.ofDays days).text := by
      rw [toJson, Date.dayText?, if_pos h, Option.map_some, Option.getD_some]
    obtain ⟨hfirst, hlast⟩ := (Date.shown_iff days).1 h
    have hwritten := Date.written_text (Date.isValid_ofDays days) hfirst hlast
    exact ⟨by simp [hjson, h], fun _ _ => ⟨_, _, Date.falls_ofDays days, hwritten, hjson⟩⟩
  · have hjson : toJson (.date days) = .null := by
      rw [toJson, Date.dayText?, if_neg h, Option.map_none, Option.getD_none]
    exact ⟨by simp [hjson, h], fun hfirst hlast => absurd ⟨hfirst, hlast⟩ h⟩

theorem rendersInstant (unit : TimeUnit) (n : Int) : RendersInstant unit n := by
  have hiff : Timestamp.inRange ⟨n * unit.nanos⟩ = true ↔
      Timestamp.first ≤ n * unit.nanos ∧ n * unit.nanos ≤ Timestamp.last := by
    rw [Timestamp.inRange, decide_eq_true_iff]
  by_cases h : Timestamp.inRange ⟨n * unit.nanos⟩ = true
  · have hjson : toJson (.timestamp unit n) = .string (Timestamp.text ⟨n * unit.nanos⟩) := by
      rw [toJson, instant?]
      simp only [h, if_true, Option.map_some, Option.getD_some]
    have hwritten := Timestamp.written_text h
    refine ⟨by simp [hjson, hiff.1 h], fun _ _ => ⟨_, hwritten, ?_, hjson⟩⟩
    exact Timestamp.ofText?_written hwritten h
  · have hjson : toJson (.timestamp unit n) = .null := by
      rw [toJson, instant?]
      simp only [h, if_false, Option.map_none, Option.getD_none, Bool.false_eq_true]
    refine ⟨by simp [hjson, ← hiff, h], fun hfirst hlast => absurd (hiff.2 ⟨hfirst, hlast⟩) h⟩

theorem first_shows : Timestamp.Shows ⟨Timestamp.first⟩ ⟨-9999, 1, 2⟩ ⟨1, 59, 59, 0⟩ :=
  ⟨Date.firstDay + 1, Date.falls_iff.2 (by decide), by constructor <;> decide, by decide⟩

theorem last_shows : Timestamp.Shows ⟨Timestamp.last⟩ ⟨9999, 12, 30⟩ ⟨22, 0, 0, 999999999⟩ :=
  ⟨Date.lastDay - 1, Date.falls_iff.2 (by decide), by constructor <;> decide, by decide⟩

variable {unit unit' : TimeUnit} {n n' : Int}

/-- What is written of an instant does not tell the unit that it was given in. -/
theorem toJson_timestamp_congr (h : n * unit.nanos = n' * unit'.nanos) :
    toJson (.timestamp unit n) = toJson (.timestamp unit' n') := by
  rw [toJson, toJson, instant?, instant?, h]

theorem RendersInstant.injective (h : RendersInstant unit n) (h' : RendersInstant unit' n')
    (hjson : toJson (.timestamp unit n) = toJson (.timestamp unit' n'))
    (hshown : toJson (.timestamp unit n) ≠ .null) : n * unit.nanos = n' * unit'.nanos := by
  obtain ⟨hfirst, hlast⟩ := not_not.1 (mt h.null.2 hshown)
  obtain ⟨hfirst', hlast'⟩ := not_not.1 (mt h'.null.2 (hjson ▸ hshown))
  obtain ⟨text, -, hread, htext⟩ := h.text hfirst hlast
  obtain ⟨text', -, hread', htext'⟩ := h'.text hfirst' hlast'
  obtain rfl : text = text' := by
    rw [htext, htext'] at hjson
    exact Json.string.inj hjson
  rw [hread] at hread'
  exact congrArg Timestamp.nanos (Option.some.inj hread')

theorem toJson_timestamp_eq_iff : toJson (.timestamp unit n) = toJson (.timestamp unit' n') ↔
    n * unit.nanos = n' * unit'.nanos ∨
      (toJson (.timestamp unit n) = .null ∧ toJson (.timestamp unit' n') = .null) := by
  constructor
  · intro h
    by_cases hnull : toJson (.timestamp unit n) = .null
    · exact .inr ⟨hnull, h ▸ hnull⟩
    · exact .inl ((rendersInstant unit n).injective (rendersInstant unit' n') h hnull)
  · rintro (h | ⟨h, h'⟩)
    · exact toJson_timestamp_congr h
    · rw [h, h']

/-- Days and instants are rendered exactly. Within limits that are dates and times of the calendar, the
    text says which day or instant it is, and beyond them there is none. Two instants have the same text
    if they are the same, whatever their units, and only then. -/
theorem toJson_temporal :
    (Date.Falls Date.firstDay ⟨-9999, 1, 1⟩ ∧ Date.Falls Date.lastDay ⟨9999, 12, 31⟩) ∧
    (Timestamp.Shows ⟨Timestamp.first⟩ ⟨-9999, 1, 2⟩ ⟨1, 59, 59, 0⟩ ∧
      Timestamp.Shows ⟨Timestamp.last⟩ ⟨9999, 12, 30⟩ ⟨22, 0, 0, 999999999⟩) ∧
    (∀ days, RendersDay days ∧ ∃! date, Date.Falls days date) ∧
    (∀ unit n, RendersInstant unit n) ∧
    (∀ unit unit' n n', toJson (.timestamp unit n) = toJson (.timestamp unit' n') ↔
      n * unit.nanos = n' * unit'.nanos ∨
        (toJson (.timestamp unit n) = .null ∧ toJson (.timestamp unit' n') = .null)) := by
  refine ⟨⟨?_, ?_⟩, ⟨first_shows, last_shows⟩, fun days => ⟨rendersDay days, ?_⟩, rendersInstant, ?_⟩
  · exact Date.falls_iff.2 (by decide)
  · exact Date.falls_iff.2 (by decide)
  · exact ⟨_, Date.falls_ofDays days, fun date h => Date.falls_iff.1 h⟩
  · exact fun _ _ _ _ => toJson_timestamp_eq_iff

example : toJson (.timestamp .millisecond (-62198755199500)) = .string "-000001-01-01T00:00:00.5Z" := by
  decide

end BlockPipeline.Database.Value

import BlockPipeline.Temporal.Timestamp

set_option autoImplicit false

/-! # Durations

The text of a duration has its hours, minutes, seconds and parts of a second, each with its unit and
without those that are zero. Hours are not gathered into days. -/

namespace BlockPipeline.Temporal

/-- A span of time, in nanoseconds of either sign. -/
structure Duration where
  nanos : Int
  deriving DecidableEq, Inhabited

namespace Duration

/-- The time from one instant to another. -/
def between (start finish : Timestamp) : Duration := ⟨finish.nanos - start.nanos⟩

/-- The whole seconds, rounded toward zero. -/
def seconds (d : Duration) : Int := d.nanos.tdiv nanosPerSecond

/-- What the whole seconds leave, with the sign of the duration. -/
def subsecondNanos (d : Duration) : Int := d.nanos.tmod nanosPerSecond

/-- The units, each with its number of nanoseconds, the greatest first. -/
def units : List (String × Nat) :=
  [("h", 3600000000000), ("m", 60000000000), ("s", 1000000000), ("ms", 1000000), ("µs", 1000),
    ("ns", 1)]

/-- The parts of a number of nanoseconds that are not zero. -/
def parts : List (String × Nat) → Nat → List String
  | [], _ => []
  | (unit, size) :: rest, nanos =>
    let later := parts rest (nanos % size)
    if nanos / size = 0 then later else (Text.naturalText (nanos / size) ++ unit) :: later

/-- The text of a duration. One that is negative lies in the past. -/
def text (d : Duration) : String :=
  if d.nanos = 0 then "0s"
  else " ".intercalate (parts units d.nanos.natAbs) ++ (if d.nanos < 0 then " ago" else "")

end Duration

end BlockPipeline.Temporal

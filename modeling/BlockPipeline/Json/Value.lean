import BlockPipeline.Number.Integer
import BlockPipeline.Number.Shortest

set_option autoImplicit false

/-! # JSON values

A number is an integer or a finite 64-bit floating-point value. An object is a list of fields in the
order in which they are written; a table row is an object whose fields are in key order. -/

namespace BlockPipeline

/-- A JSON number. -/
inductive Json.Number where
  | integer (value : Int)
  | float (value : Number.Finite)
  deriving DecidableEq, Inhabited

/-- A JSON value. -/
inductive Json where
  | null
  | bool (value : Bool)
  | number (value : Json.Number)
  | string (value : String)
  | array (items : List Json)
  | object (fields : List (String × Json))
  deriving Inhabited

namespace Json

/-- Numbers are written with the fewest digits that read back, positionally from `1e-5` up to but
    not including `1e16`. -/
def numberLayout : Number.Layout := ⟨-5, 16, true, .toEven⟩

/-- The text of a number. -/
def Number.text : Json.Number → String
  | .integer n => Text.integerText n
  | .float x => numberLayout.render .double x

/-- The number as a natural below `2 ^ 64`. -/
def Number.natural? : Json.Number → Option Nat
  | .integer n => if Number.fitsUnsigned 64 n then some n.toNat else none
  | .float _ => none

/-- An integer as a JSON value. -/
def ofInt (n : Int) : Json := .number (.integer n)

/-- A natural as a JSON value. -/
def ofNat (n : Nat) : Json := .number (.integer n)

/-- A floating-point value as a JSON value. What is not finite has no number and is null. -/
def ofFloating : Number.Floating → Json
  | .finite x => .number (.float x)
  | _ => .null

/-- The string inside a JSON string. -/
def string? : Json → Option String
  | .string s => some s
  | _ => none

/-! ## Equality -/

mutual

/-- Are two values the same, objects also in the order of their fields? -/
def same : Json → Json → Bool
  | .null, .null => true
  | .bool a, .bool b => a == b
  | .number a, .number b => a == b
  | .string a, .string b => a == b
  | .array xs, .array ys => sameItems xs ys
  | .object xs, .object ys => sameFields xs ys
  | _, _ => false

/-- `same` for the items of arrays. -/
def sameItems : List Json → List Json → Bool
  | [], [] => true
  | x :: xs, y :: ys => same x y && sameItems xs ys
  | _, _ => false

/-- `same` for the fields of objects. -/
def sameFields : List (String × Json) → List (String × Json) → Bool
  | [], [] => true
  | (k, x) :: xs, (l, y) :: ys => k == l && same x y && sameFields xs ys
  | _, _ => false

end

mutual

theorem same_iff : ∀ x y : Json, same x y = true ↔ x = y
  | .null, y => by cases y <;> simp [same]
  | .bool a, y => by cases y <;> simp [same]
  | .number a, y => by cases y <;> simp [same]
  | .string a, y => by cases y <;> simp [same]
  | .array xs, y => by
    cases y with
    | array ys => simpa [same] using sameItems_iff xs ys
    | _ => simp [same]
  | .object xs, y => by
    cases y with
    | object ys => simpa [same] using sameFields_iff xs ys
    | _ => simp [same]

theorem sameItems_iff : ∀ xs ys : List Json, sameItems xs ys = true ↔ xs = ys
  | [], ys => by cases ys <;> simp [sameItems]
  | x :: xs, ys => by
    cases ys with
    | nil => simp [sameItems]
    | cons y ys => simp [sameItems, same_iff x y, sameItems_iff xs ys]

theorem sameFields_iff : ∀ xs ys : List (String × Json), sameFields xs ys = true ↔ xs = ys
  | [], ys => by cases ys <;> simp [sameFields]
  | (k, x) :: xs, ys => by
    cases ys with
    | nil => simp [sameFields]
    | cons y ys =>
      obtain ⟨l, y⟩ := y
      simp [sameFields, same_iff x y, sameFields_iff xs ys, and_assoc]

end

instance : DecidableEq Json := fun x y => decidable_of_iff (same x y = true) (same_iff x y)

end Json

/-- A table row, keyed by column name. -/
abbrev Row := List (String × Json)

end BlockPipeline

set_option autoImplicit false

/-! # Universally unique identifiers

An identifier is a 128-bit number. It is written as thirty-two hexadecimal digits, with or without
hyphens between its five groups. -/

namespace BlockPipeline

/-- A 128-bit identifier. -/
structure Uuid where
  value : BitVec 128
  deriving DecidableEq

namespace Uuid

instance : LT Uuid := ⟨fun a b => a.value.toNat < b.value.toNat⟩

instance : DecidableRel (α := Uuid) (· < ·) :=
  fun a b => inferInstanceAs (Decidable (a.value.toNat < b.value.toNat))

/-- The identifier that is zero throughout. -/
def nil : Uuid := ⟨0⟩

instance : Inhabited Uuid := ⟨nil⟩

/-- The last `width` hexadecimal digits of a number, in lower case. -/
def hexDigits : Nat → Nat → List Char
  | 0, _ => []
  | width + 1, n => hexDigits width (n / 16) ++ [Nat.digitChar (n % 16)]

/-- All digits, without hyphens. -/
def digits (id : Uuid) : List Char := hexDigits 32 id.value.toNat

/-- The text without hyphens. -/
def simple (id : Uuid) : String := String.ofList id.digits

/-- The lengths of the five groups. -/
def groups : List Nat := [8, 4, 4, 4, 12]

/-- Puts hyphens between groups of these lengths. -/
def hyphenate : List Nat → List Char → List Char
  | [], cs | [_], cs => cs
  | n :: m :: rest, cs => cs.take n ++ '-' :: hyphenate (m :: rest) (cs.drop n)

/-- The text with hyphens. -/
def text (id : Uuid) : String := String.ofList (hyphenate groups id.digits)

/-- An identifier of the seventh version: it begins with the milliseconds since 1970, so later ones are
    greater, and goes on with random bits. -/
def ofInstant (milliseconds random : Nat) : Uuid :=
  ⟨BitVec.ofNat 48 milliseconds ++ BitVec.ofNat 4 7 ++ BitVec.ofNat 12 random ++ BitVec.ofNat 2 2
    ++ BitVec.ofNat 62 (random / 4096)⟩

/-! ## Reading -/

/-- The value of a hexadecimal digit of either case. -/
def hexValue? (c : Char) : Option Nat :=
  if c.isDigit then some (c.toNat - 48)
  else if 'a' ≤ c ∧ c ≤ 'f' then some (c.toNat - 87)
  else if 'A' ≤ c ∧ c ≤ 'F' then some (c.toNat - 55)
  else none

/-- The identifier of thirty-two digits. -/
def ofDigits? (cs : List Char) : Option Uuid :=
  if cs.length = 32 then
    (cs.mapM hexValue?).map fun ds => ⟨BitVec.ofNat 128 (ds.foldl (fun n d => n * 16 + d) 0)⟩
  else none

/-- Takes the hyphens out from between groups of these lengths. -/
def dehyphenate? : List Nat → List Char → Option (List Char)
  | [], cs | [_], cs => some cs
  | n :: m :: rest, cs =>
    match cs.drop n with
    | '-' :: after => (dehyphenate? (m :: rest) after).map (cs.take n ++ ·)
    | _ => none

/-- The text inside braces or behind a name-space mark, if it has either. -/
def unwrapped? (cs : List Char) : Option (List Char) :=
  match cs with
  | '\x7b' :: rest => if rest.getLast? = some '\x7d' then some rest.dropLast else none
  | 'u' :: 'r' :: 'n' :: ':' :: 'u' :: 'u' :: 'i' :: 'd' :: ':' :: rest => some rest
  | 'U' :: 'R' :: 'N' :: ':' :: 'U' :: 'U' :: 'I' :: 'D' :: ':' :: rest => some rest
  | _ => none

/-- Reads either text. The one with hyphens may stand in braces or behind `urn:uuid:`. -/
def ofText? (text : String) : Option Uuid :=
  let cs := text.toList
  if cs.length = 32 then ofDigits? cs
  else (dehyphenate? groups ((unwrapped? cs).getD cs)).bind ofDigits?

end Uuid

/-- Blocks are named by identifiers. -/
abbrev BlockId := Uuid

end BlockPipeline

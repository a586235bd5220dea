import BlockPipeline.Json.Value

set_option autoImplicit false

/-! # JSON text

One printer writes both forms: on one line without any blank, or with every item and field on a line
of its own, indented by two spaces a level. Only quotes, backslashes and control characters are
escaped. -/

namespace BlockPipeline.Json

/-- The two forms of JSON text. -/
inductive Style where
  | compact
  | pretty
  deriving DecidableEq

/-- What stands before an item or a closing bracket at this depth. -/
def Style.lineBreak (style : Style) (depth : Nat) : List Char :=
  match style with
  | .compact => []
  | .pretty => '\n' :: List.replicate (2 * depth) ' '

/-- What stands between the name of a field and its value. -/
def Style.colon (style : Style) : List Char :=
  match style with
  | .compact => [':']
  | .pretty => [':', ' ']

/-- One character inside a string. -/
def escape (c : Char) : List Char :=
  match c with
  | '"' => ['\\', '"']
  | '\\' => ['\\', '\\']
  | '\n' => ['\\', 'n']
  | '\r' => ['\\', 'r']
  | '\t' => ['\\', 't']
  | '\x08' => ['\\', 'b']
  | '\x0c' => ['\\', 'f']
  | c =>
    if c.toNat < 32 then
      ['\\', 'u', '0', '0', Nat.digitChar (c.toNat / 16), Nat.digitChar (c.toNat % 16)]
    else [c]

/-- A string between quotes. -/
def stringChars (s : String) : List Char := '"' :: s.toList.flatMap escape ++ ['"']

mutual

/-- The text of a value that stands at the given depth. -/
def chars (style : Style) (depth : Nat) : Json → List Char
  | .null => "null".toList
  | .bool true => "true".toList
  | .bool false => "false".toList
  | .number n => n.text.toList
  | .string s => stringChars s
  | .array [] => "[]".toList
  | .array (item :: items) =>
    '[' :: style.lineBreak (depth + 1) ++ item.chars style (depth + 1)
      ++ itemChars style (depth + 1) items ++ style.lineBreak depth ++ [']']
  | .object [] => "\x7b\x7d".toList
  | .object ((name, value) :: fields) =>
    '\x7b' :: style.lineBreak (depth + 1) ++ stringChars name ++ style.colon
      ++ value.chars style (depth + 1) ++ fieldChars style (depth + 1) fields
      ++ style.lineBreak depth ++ ['\x7d']

/-- The items after the first one, each with the comma before it. -/
def itemChars (style : Style) (depth : Nat) : List Json → List Char
  | [] => []
  | item :: items =>
    ',' :: style.lineBreak depth ++ item.chars style depth ++ itemChars style depth items

/-- The fields after the first one, each with the comma before it. -/
def fieldChars (style : Style) (depth : Nat) : List (String × Json) → List Char
  | [] => []
  | (name, value) :: fields =>
    ',' :: style.lineBreak depth ++ stringChars name ++ style.colon ++ value.chars style depth
      ++ fieldChars style depth fields

end

/-- The text on one line. -/
def compact (value : Json) : String := String.ofList (value.chars .compact 0)

/-- The text over several lines, without a line break at the end. -/
def pretty (value : Json) : String := String.ofList (value.chars .pretty 0)

end BlockPipeline.Json

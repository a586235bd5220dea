import BlockPipeline.Text.Classes

set_option autoImplicit false

/-! # Parts of texts

What is left of a text without the white space around it, whether a text stands in another one, and
what stands between quotes. -/

namespace BlockPipeline.Text

/-! ## White space at the ends -/

/-- The text without the white space at its end. -/
def trimEnd (s : List Char) : List Char := (s.reverse.dropWhile isSpace).reverse

/-- The text without the white space at its two ends. -/
def trim (s : List Char) : List Char := trimEnd (s.dropWhile isSpace)

/-- `trim` on strings. -/
def trimmed (s : String) : String := String.ofList (trim s.toList)

/-! ## Texts in texts -/

/-- Does the pattern stand somewhere in the text? -/
def occurs (pattern : List Char) : List Char → Bool
  | [] => pattern.isEmpty
  | c :: rest => pattern.isPrefixOf (c :: rest) || occurs pattern rest

/-- What follows the prefix, if the text begins with it. -/
def afterStart? : List Char → List Char → Option (List Char)
  | [], text => some text
  | _ :: _, [] => none
  | p :: pattern, c :: text => if p = c then afterStart? pattern text else none

/-- `occurs` on strings. -/
def hasPart (text pattern : String) : Bool := occurs pattern.toList text.toList

/-! ## Quoting by doubling

A text is put between two quotes, and every quote inside it is written twice. `unquoted?` takes the
quotes off again. -/

/-- Writes every quote `q` twice and every other character once. -/
def doubled (q : Char) : List Char → List Char
  | [] => []
  | c :: rest => if c = q then q :: q :: doubled q rest else c :: doubled q rest

/-- Takes two quotes in a row for one. A quote that stands alone is kept. -/
def undoubled (q : Char) : List Char → List Char
  | [] => []
  | [c] => [c]
  | c :: d :: rest =>
    if c = q ∧ d = q then q :: undoubled q rest else c :: undoubled q (d :: rest)

/-- The text between two quotes, with the quotes inside doubled. -/
def quoted (q : Char) (s : List Char) : List Char := q :: doubled q s ++ [q]

/-- What stands between the quotes of a quoted text, if there are two of them. -/
def unquoted? (q : Char) : List Char → Option (List Char)
  | [] => none
  | c :: rest =>
    if c = q ∧ rest.getLast? = some q then some (undoubled q rest.dropLast) else none

end BlockPipeline.Text

import BlockPipeline.Sql.Name

set_option autoImplicit false

/-! # SQL text taken apart

`pieces` takes text apart by the lexical rules of SQL, whatever the text: a name stands between double
quotes and a text between single ones, and inside them a doubled quote stands for one; two dashes
outside quotes begin a comment, which runs to the end of the line; words, numbers and operators are
as long as they can be. Nothing is lost (`source_pieces`).

On this rest two readings of SQL text: the tokens of a statement (`tokens`), and the statements of a
script, each of which ends at a semicolon outside quotes (`statements`). -/

namespace BlockPipeline.Sql

/-- A piece of SQL text. Names and texts are without their quotes. -/
inductive Piece where
  | blank (c : Char)
  | comment (text : String)
  | word (text : String)
  | name (text : String)
  | text (value : String)
  | number (digits : String)
  | symbol (mark : String)
  /-- A quote that is not closed, with all that follows it. -/
  | unclosed (text : String)
  deriving DecidableEq

namespace Piece

/-- The piece as it is written. -/
def source : Piece → List Char
  | blank c => [c]
  | name n => Text.quoted '"' n.toList
  | text v => Text.quoted '\'' v.toList
  | comment s | word s | number s | symbol s | unclosed s => s.toList

def isComment : Piece → Bool
  | comment _ => true
  | _ => false

/-- All but blanks and comments. -/
def isToken : Piece → Bool
  | blank _ | comment _ => false
  | _ => true

end Piece

/-! ## The first piece -/

/-- What stands before the quote that closes a quoted text, with doubled quotes taken for one, and
    what follows that quote. -/
def closing? (q : Char) : List Char → Option (List Char × List Char)
  | [] => none
  | c :: rest =>
    if c = q then
      match rest with
      | d :: after =>
        if d = q then (closing? q after).map fun found => (q :: found.1, found.2)
        else some ([], d :: after)
      | [] => some ([], [])
    else (closing? q rest).map fun found => (c :: found.1, found.2)

def isLineEnd (c : Char) : Bool := c == '\n' || c == '\r'

def isWordStart (c : Char) : Bool := c.isAlpha || c == '_'

def isWordRest (c : Char) : Bool := c.isAlphanum || c == '_'

/-- The digits at the beginning of a text, and the rest. -/
def takeDigits (text : List Char) : List Char × List Char :=
  (text.takeWhile Char.isDigit, text.dropWhile Char.isDigit)

/-- A point and the digits behind it, if the text begins with a point, and the rest. -/
def takeFraction : List Char → List Char × List Char
  | [] => ([], [])
  | c :: rest => if c = '.' then (c :: (takeDigits rest).1, (takeDigits rest).2) else ([], c :: rest)

/-- A sign, if the text begins with one, and the rest. -/
def takeSign : List Char → List Char × List Char
  | [] => ([], [])
  | c :: rest => if c = '+' ∨ c = '-' then ([c], rest) else ([], c :: rest)

/-- An exponent, if the text begins with one, and the rest. An exponent has digits. -/
def takeExponent : List Char → List Char × List Char
  | [] => ([], [])
  | c :: rest =>
    let (sign, behind) := takeSign rest
    let (digits, after) := takeDigits behind
    if (c = 'e' ∨ c = 'E') ∧ digits ≠ [] then (c :: (sign ++ digits), after) else ([], c :: rest)

/-- The number at the beginning of a text, and the rest. -/
def takeNumber (text : List Char) : List Char × List Char :=
  let (whole, rest) := takeDigits text
  let (fraction, rest) := takeFraction rest
  let (exponent, rest) := takeExponent rest
  (whole ++ fraction ++ exponent, rest)

/-- The operators of two characters. -/
def pairs : List (List Char) := [['!', '='], ['<', '='], ['>', '='], ['<', '>'], ['|', '|']]

/-- The first piece of the text `c :: rest`, and what follows it. -/
def next (c : Char) (rest : List Char) : Piece × List Char :=
  if c.isWhitespace then (.blank c, rest)
  else if c = '-' ∧ rest.head? = some '-' then
    (.comment (.ofList (c :: rest.takeWhile (!isLineEnd ·))), rest.dropWhile (!isLineEnd ·))
  else if c = '"' then
    match closing? c rest with
    | some (inside, after) => (.name (.ofList inside), after)
    | none => (.unclosed (.ofList (c :: rest)), [])
  else if c = '\'' then
    match closing? c rest with
    | some (inside, after) => (.text (.ofList inside), after)
    | none => (.unclosed (.ofList (c :: rest)), [])
  else if isWordStart c then
    (.word (.ofList (c :: rest.takeWhile isWordRest)), rest.dropWhile isWordRest)
  else if c.isDigit then
    let (number, after) := takeNumber (c :: rest)
    (.number (.ofList number), after)
  else if c :: rest.take 1 ∈ pairs then (.symbol (.ofList (c :: rest.take 1)), rest.drop 1)
  else (.symbol (.ofList [c]), rest)

/-! ## Nothing is lost -/

theorem closing?_eq_some {q : Char} {text inside after : List Char}
    (h : closing? q text = some (inside, after)) : Text.doubled q inside ++ q :: after = text := by
  fun_induction closing? q text generalizing inside with
  | case1 => cases h
  | case2 rest ih =>
    obtain ⟨found, hfound, hsame⟩ := Option.map_eq_some_iff.1 h
    cases hsame
    simp [Text.doubled, ih hfound]
  | case3 d rest hd =>
    cases h
    simp [Text.doubled]
  | case4 =>
    cases h
    simp [Text.doubled]
  | case5 c rest hc ih =>
    obtain ⟨found, hfound, hsame⟩ := Option.map_eq_some_iff.1 h
    cases hsame
    simp [Text.doubled, hc, ih hfound]

theorem closing?_cons_of_ne {q c : Char} (h : c ≠ q) (rest : List Char) :
    closing? q (c :: rest) = (closing? q rest).map fun found => (c :: found.1, found.2) := by
  cases rest with
  | nil => simp [closing?, h]
  | cons d after => simp [closing?, h]

/-- The quoted text is found again, unless another quote follows it. -/
theorem closing?_doubled {q : Char} {rest : List Char} (hrest : rest.head? ≠ some q)
    (inside : List Char) : closing? q (Text.doubled q inside ++ q :: rest) = some (inside, rest) := by
  induction inside with
  | nil =>
    cases rest with
    | nil => simp [Text.doubled, closing?]
    | cons d after =>
      have hd : d ≠ q := by simpa using hrest
      simp [Text.doubled, closing?, hd]
  | cons c inside ih =>
    by_cases hc : c = q
    · simp [Text.doubled, closing?, hc, ih]
    · simp [Text.doubled, hc, closing?_cons_of_ne hc, ih]

theorem takeDigits_append (text : List Char) : (takeDigits text).1 ++ (takeDigits text).2 = text :=
  List.takeWhile_append_dropWhile

theorem takeFraction_append (text : List Char) :
    (takeFraction text).1 ++ (takeFraction text).2 = text := by
  cases text with
  | nil => rfl
  | cons c rest =>
    simp only [takeFraction]
    split
    · rw [List.cons_append, takeDigits_append]
    · rfl

theorem takeSign_append (text : List Char) : (takeSign text).1 ++ (takeSign text).2 = text := by
  cases text with
  | nil => rfl
  | cons c rest =>
    simp only [takeSign]
    split
    · rfl
    · rfl

theorem takeExponent_append (text : List Char) :
    (takeExponent text).1 ++ (takeExponent text).2 = text := by
  cases text with
  | nil => rfl
  | cons c rest =>
    simp only [takeExponent]
    split
    · rw [List.cons_append, List.append_assoc, takeDigits_append, takeSign_append]
    · rfl

theorem takeNumber_append (text : List Char) : (takeNumber text).1 ++ (takeNumber text).2 = text := by
  simp only [takeNumber]
  rw [List.append_assoc, List.append_assoc, takeExponent_append, takeFraction_append,
    takeDigits_append]

theorem source_next (c : Char) (rest : List Char) :
    (next c rest).1.source ++ (next c rest).2 = c :: rest := by
  unfold next
  split
  · rfl
  split
  · simp [Piece.source, List.takeWhile_append_dropWhile]
  split
  · next hc =>
      subst hc
      split
      · next inside after hfound =>
          simp [Piece.source, Text.quoted, ← closing?_eq_some hfound]
      · simp [Piece.source]
  split
  · next hc =>
      subst hc
      split
      · next inside after hfound =>
          simp [Piece.source, Text.quoted, ← closing?_eq_some hfound]
      · simp [Piece.source]
  split
  · simp [Piece.source, List.takeWhile_append_dropWhile]
  split
  · simp [Piece.source, takeNumber_append]
  split
  · rw [Piece.source, String.toList_ofList, List.cons_append, List.take_append_drop]
  · simp [Piece.source]

theorem source_next_ne_nil (c : Char) (rest : List Char) : (next c rest).1.source ≠ [] := by
  unfold next
  split
  · simp [Piece.source]
  split
  · simp [Piece.source]
  split
  · split <;> simp [Piece.source, Text.quoted]
  split
  · split <;> simp [Piece.source, Text.quoted]
  split
  · simp [Piece.source]
  split
  · next hdigit => simp [Piece.source, takeNumber, takeDigits, hdigit]
  split
  · simp [Piece.source]
  · simp [Piece.source]

theorem length_next_lt (c : Char) (rest : List Char) :
    (next c rest).2.length < (c :: rest).length := by
  have hlength := congrArg List.length (source_next c rest)
  have hpos := List.length_pos_iff.2 (source_next_ne_nil c rest)
  rw [List.length_append] at hlength
  omega

/-- The pieces of a text, in order. -/
def pieces : List Char → List Piece
  | [] => []
  | c :: rest => (next c rest).1 :: pieces (next c rest).2
termination_by text => text.length
decreasing_by exact length_next_lt c rest

@[simp] theorem pieces_nil : pieces [] = [] := by rw [pieces]

/-- The pieces of a text make up the text. -/
theorem source_pieces (text : List Char) : (pieces text).flatMap Piece.source = text := by
  fun_induction pieces text with
  | case1 => rfl
  | case2 c rest ih => rw [List.flatMap_cons, ih, source_next]

/-! ## Two readings -/

/-- The tokens of a text: its pieces without blanks and comments. -/
def tokens (text : String) : List Piece := (pieces text.toList).filter Piece.isToken

/-- The statement that has been read, if there is anything in it. -/
def finished (current : List Char) : List String :=
  if current = [] then [] else [String.ofList current]

/-- The statements of a script, when the first of them begins with what has been read of it. -/
def statementsFrom (current : List Char) : List Piece → List String
  | [] => finished current
  | .comment _ :: rest => statementsFrom current rest
  | .blank c :: rest => statementsFrom (if current = [] then [] else current ++ [c]) rest
  | piece :: rest =>
    if piece = .symbol ";" then finished current ++ statementsFrom [] rest
    else statementsFrom (current ++ piece.source) rest

/-- The statements of a script, each as it is written up to its semicolon, but without comments and
    without blanks in front. -/
def statements (script : String) : List String := statementsFrom [] (pieces script.toList)

example : statements "-- it's;\nSELECT ';', \"a\"\"b\"; -- x\n\n SELECT 1" =
    ["SELECT ';', \"a\"\"b\"", "SELECT 1"] := by decide +kernel

example : tokens "a>=-1.5e+3 -- x\n'it''s'" =
    [.word "a", .symbol ">=", .symbol "-", .number "1.5e+3", .text "it's"] := by decide +kernel

end BlockPipeline.Sql

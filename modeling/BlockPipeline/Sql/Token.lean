import BlockPipeline.Json.Value
import BlockPipeline.Sql.Name

set_option autoImplicit false

/-! # Statements as tokens

A statement is a list of clauses, and a clause a list of tokens. Names and texts are tokens that hold
what they stand for; only the text of a token puts them between quotes. -/

namespace BlockPipeline.Sql

/-- One token of a statement. -/
inductive Token where
  /-- A keyword or a bare name. -/
  | word (text : String)
  /-- A name between double quotes. -/
  | name (text : String)
  /-- A text between single quotes. -/
  | text (value : String)
  | number (value : Json.Number)
  /-- An operator or a punctuation mark. -/
  | symbol (mark : String)
  deriving DecidableEq

/-- A part of a statement. -/
abbrev Clause := List Token

/-- A whole statement. The statement without clauses does nothing. -/
abbrev Statement := List Clause

namespace Token

/-- The token as it is written. -/
def chars : Token → List Char
  | .word w => w.toList
  | .name n => Text.quoted '"' n.toList
  | .text value => Text.quoted '\'' value.toList
  | .number value => value.text.toList
  | .symbol mark => mark.toList

/-- Is there a blank between two tokens of a clause? Commas and brackets stand close. -/
def blankBetween (left right : Token) : Bool :=
  left != .symbol "(" && right != .symbol "(" && right != .symbol ")" && right != .symbol ","

end Token

/-- The text of a clause. -/
def Clause.chars : Clause → List Char
  | [] => []
  | [token] => token.chars
  | left :: right :: rest =>
    left.chars ++ (if left.blankBetween right then [' '] else []) ++ Clause.chars (right :: rest)

/-- The text of a statement: its clauses with a blank between each two. -/
def Statement.chars : Statement → List Char
  | [] => []
  | [clause] => Clause.chars clause
  | clause :: rest => Clause.chars clause ++ ' ' :: Statement.chars rest

/-- The text of a statement. -/
def Statement.text (statement : Statement) : String := String.ofList statement.chars

/-- Is there nothing to be done? Then the text is empty. -/
def Statement.isBlank (statement : Statement) : Bool := statement.chars.isEmpty

theorem Statement.isEmpty_text (statement : Statement) :
    statement.text.isEmpty = statement.isBlank := by
  rw [Bool.eq_iff_iff, String.isEmpty_iff, isBlank, List.isEmpty_iff, text, String.ofList_eq_empty_iff]

/-- The tokens of a statement, in order. -/
def Statement.tokens (statement : Statement) : List Token := statement.flatten

/-- Keywords, in order. -/
def keywords (words : List String) : Clause := words.map .word

/-- The token of a table name: bare where it can be. -/
def tableToken (name : TableName) : Token :=
  if isBare name then .word name.text else .name name.text

/-- Puts a comma between the parts of a list. -/
def commaSeparated (parts : List Clause) : Clause := [Token.symbol ","].intercalate parts

end BlockPipeline.Sql

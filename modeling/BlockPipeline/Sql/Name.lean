import BlockPipeline.Lookup
import BlockPipeline.Text.Parts
import BlockPipeline.Uuid

set_option autoImplicit false

/-! # Table names and quoted names

A table name is any text. It can stand bare in a statement when it is a plain identifier that is not
a reserved word, and stands between double quotes otherwise. The table that a block makes is named for
the block. -/

namespace BlockPipeline

/-- The name of a table or view in a database. -/
structure TableName where
  text : String
  deriving DecidableEq, Inhabited

namespace TableName

/-- What the names of all derived tables begin with. -/
def derivedMark : String := "temp_"

/-- The name of the table that the block makes. -/
def derived (id : BlockId) : TableName := ⟨derivedMark ++ id.simple⟩

/-- Can the character begin a plain identifier? -/
def isPlainStart (c : Char) : Bool := c.isAlpha || c == '_'

/-- Can the character go on a plain identifier? -/
def isPlainRest (c : Char) : Bool := c.isAlphanum || c == '_'

/-- An ASCII letter or underscore, and then letters, digits and underscores. -/
def isPlain (name : TableName) : Bool :=
  match name.text.toList with
  | [] => false
  | c :: rest => isPlainStart c && rest.all isPlainRest

/-- Does the name begin like that of a derived table? -/
def isDerived (name : TableName) : Bool := derivedMark.toList.isPrefixOf name.text.toList

end TableName

namespace Sql

/-- A name between double quotes. -/
def quoteName (name : String) : String := String.ofList (Text.quoted '"' name.toList)

/-- A text between single quotes. -/
def quoteText (text : String) : String := String.ofList (Text.quoted '\'' text.toList)

/-- The words that no table can be called without quotes, in ascending order. -/
def reservedWords : List String :=
  ["ALL", "ANALYSE", "ANALYZE", "AND", "ANTI", "ANY", "ARRAY", "AS", "ASC", "ASOF", "ASYMMETRIC",
    "AUTHORIZATION", "BINARY", "BOTH", "CASE", "CAST", "CHECK", "COLLATE", "COLLATION", "COLUMN",
    "CONCURRENTLY", "CONSTRAINT", "CREATE", "CROSS", "DEFAULT", "DEFERRABLE", "DESC", "DESCRIBE",
    "DISTINCT", "DO", "ELSE", "END", "EXCEPT", "FALSE", "FETCH", "FOR", "FOREIGN", "FREEZE", "FROM",
    "FULL", "GENERATED", "GLOB", "GRANT", "GROUP", "HAVING", "ILIKE", "IN", "INITIALLY", "INNER",
    "INTERSECT", "INTO", "IS", "ISNULL", "JOIN", "LATERAL", "LEADING", "LEFT", "LIKE", "LIMIT",
    "MAP", "NATURAL", "NOT", "NOTNULL", "NULL", "OFFSET", "ON", "ONLY", "OR", "ORDER", "OUTER",
    "OVERLAPS", "PIVOT", "PIVOT_LONGER", "PIVOT_WIDER", "PLACING", "POSITIONAL", "PRIMARY",
    "QUALIFY", "REFERENCES", "RETURNING", "RIGHT", "SELECT", "SEMI", "SHOW", "SIMILAR", "SOME",
    "STRUCT", "SUMMARIZE", "SYMMETRIC", "TABLE", "TABLESAMPLE", "THEN", "TO", "TRAILING", "TRUE",
    "TRY_CAST", "UNION", "UNIQUE", "UNPIVOT", "USING", "VARIADIC", "VERBOSE", "WHEN", "WHERE",
    "WINDOW", "WITH"]

/-- Is the name a reserved word, in whatever case? -/
def isReserved (name : String) : Bool :=
  Bisection.contains reservedWords (String.ofList (name.toList.map Char.toUpper))

/-- Can the table name stand without quotes? -/
def isBare (name : TableName) : Bool := name.isPlain && !isReserved name.text

end Sql

end BlockPipeline

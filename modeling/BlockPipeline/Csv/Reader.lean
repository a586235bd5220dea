set_option autoImplicit false

/-! # Records of comma-separated text

Fields are separated by commas and records end with a line feed, a carriage return or both. A field
that begins with a quote goes on to the next lone quote; two quotes in it stand for one. Empty lines
between records are passed over, and the end of the text ends whatever is open. -/

namespace BlockPipeline.Csv

/-- A place in the text: its line, from one on, and the bytes before it. -/
structure Position where
  line : Nat
  byte : Nat
  deriving DecidableEq, Repr

/-- The place behind a character. -/
def Position.after (p : Position) (c : Char) : Position :=
  ⟨if c = '\n' then p.line + 1 else p.line, p.byte + c.utf8Size⟩

/-- A record, and the place where reading stood when it was begun. -/
structure Record where
  fields : List String
  position : Position
  deriving DecidableEq, Repr

/-- Where reading stands inside or between records. -/
inductive Mode where
  /-- Before a record. -/
  | between
  /-- Before a field. -/
  | fieldStart
  | plain
  | quoted
  /-- Behind a quote in a quoted field, which may be its end or the first of two. -/
  | quoteSeen
  deriving DecidableEq, Repr

/-- What has been read of the record so far, everything most recent first. -/
structure Partial where
  mode : Mode
  field : List Char
  fields : List (List Char)

namespace Partial

/-- Nothing has been read. -/
def start : Partial := ⟨.between, [], []⟩

/-- The field goes on. -/
def push (p : Partial) (mode : Mode) (c : Char) : Partial := ⟨mode, c :: p.field, p.fields⟩

/-- The field ends and another one begins. -/
def endField (p : Partial) : Partial := ⟨.fieldStart, [], p.field :: p.fields⟩

/-- All fields in order, the open one included. -/
def close (p : Partial) : List String :=
  (p.field :: p.fields).reverse.map fun field => String.ofList field.reverse

/-- The partial record after one more character of a field, or nothing if the record ends. -/
def step (p : Partial) (c : Char) : Option Partial :=
  let ends := c = '\n' ∨ c = '\r'
  match p.mode with
  | .between =>
    if ends then some p
    else if c = '"' then some { p with mode := .quoted }
    else if c = ',' then some p.endField
    else some (p.push .plain c)
  | .fieldStart =>
    if c = '"' then some { p with mode := .quoted }
    else if c = ',' then some p.endField
    else if ends then none
    else some (p.push .plain c)
  | .plain =>
    if c = ',' then some p.endField else if ends then none else some (p.push .plain c)
  | .quoted => if c = '"' then some { p with mode := .quoteSeen } else some (p.push .quoted c)
  | .quoteSeen =>
    if c = '"' then some (p.push .quoted c)
    else if c = ',' then some p.endField
    else if ends then none
    else some (p.push .plain c)

end Partial

/-- The records of the text that is left. `begun` is the place where the record at hand was begun. -/
def readRecords (begun : Position) (here : Position) (p : Partial) : List Char → List Record
  | [] => if p.mode = .between then [] else [⟨p.close, begun⟩]
  | c :: rest =>
    let next := here.after c
    match p.step c with
    | some p => readRecords begun next p rest
    | none => ⟨p.close, begun⟩ :: readRecords next next .start rest

/-- The records of a text. A mark of the byte order in front is dropped, but counted. -/
def records (text : String) : List Record :=
  let start : Position := ⟨1, 0⟩
  match text.toList with
  | '\ufeff' :: rest => readRecords start (start.after '\ufeff') .start rest
  | chars => readRecords start start .start chars

end BlockPipeline.Csv

import BlockPipeline.Json.Node

set_option autoImplicit false

/-! # Reading JSON text

`Document.ofText` lays a text out as a tree. Every function here takes the characters that are left
and gives the rest back; there is no rest behind a fault. The fuel of the recursive ones is bounded by
the length of the text. -/

namespace BlockPipeline.Json

/-- A node and the text behind it, if it can be found. -/
abbrev Reading := Node × Option (List Char)

namespace Reader

/-- A node after which nothing can be read. -/
def failure (whenRead whenSkipped : Fault) : Reading := (.fault whenRead whenSkipped, none)

/-- The text without the blanks in front: spaces, tabs, line feeds and carriage returns. -/
def skipBlanks (text : List Char) : List Char :=
  text.dropWhile fun c => c == ' ' || c == '\n' || c == '\t' || c == '\r'

/-- A word that stands for a value. -/
def readWord (node : Node) : List Char → List Char → Reading
  | [], text => (node, some text)
  | _ :: _, [] => failure .truncated .truncated
  | w :: word, c :: text =>
    if w = c then readWord node word text else failure .malformed .malformed

/-! ## Numbers -/

/-- A significand below `2 ^ 64` and a power of ten. -/
structure Magnitude where
  significand : Nat
  exponent : Int

/-- Takes up digits as long as the significand has room. -/
def Magnitude.takeUp (m : Magnitude) : List Char → Magnitude × List Char
  | [] => (m, [])
  | c :: digits =>
    let next := m.significand * 10 + (c.toNat - 48)
    if next < Nat.pow 2 64 then takeUp { m with significand := next } digits else (m, c :: digits)

/-- The digits before the point. Those that find no room only count as places. -/
def Magnitude.ofWhole (digits : List Char) : Magnitude :=
  let (m, left) := takeUp ⟨0, 0⟩ digits
  { m with exponent := left.length }

/-- The magnitude with the digits behind the point. Those that find no room are dropped. -/
def Magnitude.withFraction (m : Magnitude) (digits : List Char) : Magnitude :=
  let (taken, left) := m.takeUp digits
  { taken with exponent := m.exponent - (digits.length - left.length : Nat) }

/-- The integer that digits without point and exponent denote, if it fits into 64 bits. Minus zero
    is no integer. -/
def integerOf? (negative : Bool) (m : Magnitude) : Option Int :=
  if m.exponent ≠ 0 then none
  else if !negative then some m.significand
  else if 0 < m.significand ∧ m.significand ≤ Nat.pow 2 63 then some (- m.significand)
  else none

/-- The node of a number that is written with a point or an exponent or is no 64-bit integer. -/
def floatNode (negative : Bool) (m : Magnitude) (exponent : Int) : Node :=
  match Number.scaleInSteps negative m.significand (m.exponent + exponent) with
  | some x => .number (.float x)
  | none => .barred .null

/-- An exponent, behind its mark. -/
def readExponent (negative : Bool) (m : Magnitude) (text : List Char) : Reading :=
  let (minus, digitsOn) := match text with
    | '-' :: rest => (true, rest)
    | '+' :: rest => (false, rest)
    | rest => (false, rest)
  let digits := digitsOn.takeWhile Char.isDigit
  match digits, digitsOn with
  | [], [] => failure .truncated .malformed
  | [], _ => failure .malformed .malformed
  | digits, digitsOn =>
    let n : Int := Nat.ofDigitChars 10 digits 0
    (floatNode negative m (if minus then -n else n), some (digitsOn.dropWhile Char.isDigit))

/-- What follows the digits of a number, before the exponent if there is one. -/
def readAfterDigits (negative : Bool) (m : Magnitude) (node : Node) (text : List Char) : Reading :=
  match text with
  | 'e' :: rest | 'E' :: rest => readExponent negative m rest
  | rest => (node, some rest)

/-- What follows the digits before the point. -/
def readAfterWhole (negative : Bool) (m : Magnitude) (text : List Char) : Reading :=
  match text with
  | '.' :: rest =>
    let digits := rest.takeWhile Char.isDigit
    match digits, rest with
    | [], [] => failure .truncated .malformed
    | [], _ => failure .malformed .malformed
    | digits, rest =>
      let m := m.withFraction digits
      readAfterDigits negative m (floatNode negative m 0) (rest.dropWhile Char.isDigit)
  | rest =>
    let node := match integerOf? negative m with
      | some n => .number (.integer n)
      | none => floatNode negative m 0
    readAfterDigits negative m node rest

/-- A number behind its sign. It has no zero in front of other digits. -/
def readUnsigned (negative : Bool) (text : List Char) : Reading :=
  match text with
  | [] => failure .truncated .malformed
  | '0' :: rest =>
    match rest with
    | c :: _ =>
      if c.isDigit then failure .malformed .malformed else readAfterWhole negative ⟨0, 0⟩ rest
    | [] => readAfterWhole negative ⟨0, 0⟩ rest
  | c :: rest =>
    if c.isDigit then
      readAfterWhole negative (.ofWhole (c :: rest.takeWhile Char.isDigit))
        (rest.dropWhile Char.isDigit)
    else failure .malformed .malformed

/-! ## Strings -/

/-- The number that four hexadecimal digits denote, whatever their case. -/
def hexCode? (a b c d : Char) : Option Nat :=
  let digit? (c : Char) : Option Nat :=
    if c.isDigit then some (c.toNat - 48)
    else if 'a' ≤ c ∧ c ≤ 'f' then some (c.toNat - 87)
    else if 'A' ≤ c ∧ c ≤ 'F' then some (c.toNat - 55)
    else none
  do return (((← digit? a) * 16 + (← digit? b)) * 16 + (← digit? c)) * 16 + (← digit? d)

/-- The code behind the mark of an escape, and the text behind it. What matters first is whether four
    bytes are left. -/
def readCode (text : List Char) : Except Fault (Nat × List Char) :=
  match text with
  | a :: b :: c :: d :: rest =>
    match hexCode? a b c d with
    | some code => .ok (code, rest)
    | none => .error .malformed
  | few =>
    let bytes := few.foldl (fun bytes c => bytes + c.utf8Size) 0
    if bytes < 4 then .error .truncated else .error .malformed

/-- The character of a one-letter escape. -/
def shortEscape? : Char → Option Char
  | '"' => some '"'
  | '\\' => some '\\'
  | '/' => some '/'
  | 'b' => some '\x08'
  | 'f' => some '\x0c'
  | 'n' => some '\n'
  | 'r' => some '\r'
  | 't' => some '\t'
  | _ => none

/-- What the escape of a code yields. -/
inductive Escaped where
  | char (value : Char) (rest : List Char)
  /-- Half a surrogate pair, which can only be skipped. -/
  | half (rest : List Char)
  | fault (fault : Fault)

/-- The code of an escape, and of a second one if the first is the first half of a pair. -/
def readEscaped (text : List Char) : Escaped :=
  match readCode text with
  | .error fault => .fault fault
  | .ok (code, rest) =>
    if code < 0xd800 ∨ 0xdfff < code then .char (Char.ofNat code) rest
    else if 0xdc00 ≤ code then .half rest
    else match rest with
      | [] | ['\\'] => .fault .truncated
      | '\\' :: 'u' :: more =>
        match readCode more with
        | .error fault => .fault fault
        | .ok (second, more) =>
          if 0xdc00 ≤ second ∧ second ≤ 0xdfff then
            .char (Char.ofNat (0x10000 + (code - 0xd800) * 0x400 + (second - 0xdc00))) more
          else .half rest
      | _ => .half rest

/-- The characters of a string, most recent first, up to its closing quote. They are missing once
    something has been met that cannot be read. -/
def readString : Nat → Option (List Char) → List Char →
    Except (Fault × Fault) (Option (List Char) × List Char)
  | 0, _, _ => .error (.malformed, .malformed)
  | fuel + 1, seen, text =>
    let failed (fault : Fault) : Except (Fault × Fault) (Option (List Char) × List Char) :=
      .error (if seen.isSome then fault else .malformed, fault)
    match text with
    | [] | ['\\'] => failed .truncated
    | '"' :: rest => .ok (seen.map List.reverse, rest)
    | '\\' :: 'u' :: rest =>
      match seen with
      | none =>
        match readCode rest with
        | .ok (_, rest) => readString fuel none rest
        | .error fault => failed fault
      | some chars =>
        match readEscaped rest with
        | .char c rest => readString fuel (some (c :: chars)) rest
        | .half rest => readString fuel none rest
        | .fault fault => failed fault
    | '\\' :: e :: rest =>
      match shortEscape? e with
      | some c => readString fuel (seen.map (c :: ·)) rest
      | none => failed .malformed
    | c :: rest =>
      if c.toNat < 32 then failed .malformed else readString fuel (seen.map (c :: ·)) rest

/-- A string behind its opening quote, as a node. -/
def readStringNode (text : List Char) : Reading :=
  match readString (text.length + 1) (some []) text with
  | .ok (some chars, rest) => (.string (String.ofList chars), some rest)
  | .ok (none, rest) => (.barred .null, some rest)
  | .error (whenRead, whenSkipped) => failure whenRead whenSkipped

/-! ## Values -/

/-- The greatest number of arrays and objects around and including one that can be read. -/
def depthLimit : Nat := 127

/-- Marks an array or object that lies too deep. -/
def atDepth (depth : Nat) (node : Node) : Node := if depth < depthLimit then node else .barred node

mutual

/-- A value around which `depth` arrays and objects stand. -/
def readValue : Nat → Nat → List Char → Reading
  | 0, _, _ => failure .malformed .malformed
  | fuel + 1, depth, text =>
    match skipBlanks text with
    | [] => failure .truncated .truncated
    | 'n' :: rest => readWord .null "ull".toList rest
    | 't' :: rest => readWord (.bool true) "rue".toList rest
    | 'f' :: rest => readWord (.bool false) "alse".toList rest
    | '"' :: rest => readStringNode rest
    | '-' :: rest => readUnsigned true rest
    | '[' :: rest =>
      match skipBlanks rest with
      | [] => (atDepth depth (.array [] .cut), none)
      | ']' :: rest => (atDepth depth (.array [] .closed), some rest)
      | rest =>
        let (items, ending, rest) := readItems fuel (depth + 1) rest
        (atDepth depth (.array items ending), rest)
    | '\x7b' :: rest =>
      match skipBlanks rest with
      | [] => (atDepth depth (.object [] .cut), none)
      | '\x7d' :: rest => (atDepth depth (.object [] .closed), some rest)
      | rest =>
        let (fields, ending, rest) := readFields fuel (depth + 1) rest
        (atDepth depth (.object fields ending), rest)
    | rest => readUnsigned false rest

/-- The items of an array from one of them on. -/
def readItems : Nat → Nat → List Char → List Node × Ending × Option (List Char)
  | 0, _, _ => ([], .malformed, none)
  | fuel + 1, depth, text =>
    match readValue fuel depth text with
    | (item, none) => ([item], .malformed, none)
    | (item, some rest) =>
      match skipBlanks rest with
      | [] => ([item], .cut, none)
      | ']' :: rest => ([item], .closed, some rest)
      | ',' :: rest =>
        match skipBlanks rest with
        | [] => ([item], .cutAfterComma, none)
        | ']' :: _ => ([item], .malformed, none)
        | rest =>
          let (items, ending, rest) := readItems fuel depth rest
          (item :: items, ending, rest)
      | _ => ([item], .malformed, none)

/-- The fields of an object from one of them on. -/
def readFields : Nat → Nat → List Char → List (Option String × Node) × Ending × Option (List Char)
  | 0, _, _ => ([], .malformed, none)
  | fuel + 1, depth, text =>
    match text with
    | '"' :: rest =>
      match readString (rest.length + 1) (some []) rest with
      | .error (whenRead, whenSkipped) => ([], .brokenName whenRead whenSkipped, none)
      | .ok (name, rest) =>
        let name := name.map String.ofList
        match skipBlanks rest with
        | [] => ([(name, .fault .truncated .truncated)], .malformed, none)
        | ':' :: rest =>
          match readValue fuel depth rest with
          | (value, none) => ([(name, value)], .malformed, none)
          | (value, some rest) =>
            match skipBlanks rest with
            | [] => ([(name, value)], .cut, none)
            | '\x7d' :: rest => ([(name, value)], .closed, some rest)
            | ',' :: rest =>
              match skipBlanks rest with
              | [] => ([(name, value)], .cutAfterComma, none)
              | rest =>
                let (fields, ending, rest) := readFields fuel depth rest
                ((name, value) :: fields, ending, rest)
            | _ => ([(name, value)], .malformed, none)
        | _ => ([(name, .fault .malformed .malformed)], .malformed, none)
    | _ => ([], .malformed, none)

end

end Reader

/-- A whole text: its value, and whether anything but blanks follows it. -/
structure Document where
  root : Node
  hasMore : Bool

/-- Lays out a text. -/
def Document.ofText (text : String) : Document :=
  let chars := text.toList
  match Reader.readValue (2 * chars.length + 2) 0 chars with
  | (root, some rest) => ⟨root, !(Reader.skipBlanks rest).isEmpty⟩
  | (root, none) => ⟨root, false⟩

/-- The value of a text that is JSON from one end to the other. -/
def ofText? (text : String) : Option Json :=
  let document := Document.ofText text
  match document.root.read with
  | .ok value => if document.hasMore then none else some value
  | .error _ => none

end BlockPipeline.Json

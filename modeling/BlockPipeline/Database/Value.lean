import BlockPipeline.Json.Value
import BlockPipeline.Temporal.Timestamp
import BlockPipeline.Text.Literal

set_option autoImplicit false

/-! # Database values

The values that a database yields, and the JSON of each. Numbers become numbers where they fit, dates
and instants become their text. A value without a JSON form becomes a string that shows what it is. -/

namespace BlockPipeline.Database

/-- The integer types. -/
inductive IntegerType where
  | tiny
  | small
  | int
  | big
  | huge
  | unsignedTiny
  | unsignedSmall
  | unsignedInt
  | unsignedBig
  | unsignedHuge
  deriving DecidableEq, Repr

namespace IntegerType

/-- The name of the type. -/
def name : IntegerType → String
  | .tiny => "TinyInt"
  | .small => "SmallInt"
  | .int => "Int"
  | .big => "BigInt"
  | .huge => "HugeInt"
  | .unsignedTiny => "UTinyInt"
  | .unsignedSmall => "USmallInt"
  | .unsignedInt => "UInt"
  | .unsignedBig => "UBigInt"
  | .unsignedHuge => "UHugeInt"

/-- The width in bits. -/
def bits : IntegerType → Nat
  | .tiny | .unsignedTiny => 8
  | .small | .unsignedSmall => 16
  | .int | .unsignedInt => 32
  | .big | .unsignedBig => 64
  | .huge | .unsignedHuge => 128

/-- Does the type hold negative numbers? -/
def isSigned : IntegerType → Bool
  | .tiny | .small | .int | .big | .huge => true
  | _ => false

/-- Can the type hold the number? -/
def holds (type : IntegerType) (n : Int) : Bool :=
  if type.isSigned then Number.fitsSigned type.bits n else Number.fitsUnsigned type.bits n

end IntegerType

/-- The units of times. -/
inductive TimeUnit where
  | second
  | millisecond
  | microsecond
  | nanosecond
  deriving DecidableEq, Repr

namespace TimeUnit

/-- The name of the unit. -/
def name : TimeUnit → String
  | .second => "Second"
  | .millisecond => "Millisecond"
  | .microsecond => "Microsecond"
  | .nanosecond => "Nanosecond"

/-- The nanoseconds of the unit. -/
def nanos : TimeUnit → Int
  | .second => 1000000000
  | .millisecond => 1000000
  | .microsecond => 1000
  | .nanosecond => 1

end TimeUnit

/-- The number `unscaled / 10 ^ scale`, of so many digits at most. -/
structure Fixed where
  width : Nat
  scale : Nat
  unscaled : Int
  deriving DecidableEq

/-- The text of a fixed-point number, with as many digits behind the point as its scale says. -/
def Fixed.text (x : Fixed) : String :=
  let digits := Text.padDigits (x.scale + 1) x.unscaled.natAbs
  let point := digits.length - x.scale
  let sign := if x.unscaled < 0 then ['-'] else []
  let fraction := if x.scale = 0 then [] else '.' :: digits.drop point
  String.ofList (sign ++ digits.take point ++ fraction)

/-- A value of a database. A `float` is one of `Number.Format.single`, a `double` one of
    `Number.Format.double`. -/
inductive Value where
  | null
  | boolean (value : Bool)
  | integer (type : IntegerType) (value : Int)
  | float (value : Number.Floating)
  | double (value : Number.Floating)
  | decimal (value : Fixed)
  | text (value : String)
  | member (value : String)
  | blob (bytes : List Nat)
  | date (days : Int)
  | timestamp (unit : TimeUnit) (value : Int)
  | time (unit : TimeUnit) (value : Int)
  | interval (months days nanos : Int)
  | list (items : List Value)
  | array (items : List Value)
  | union (value : Value)

namespace Value

/-- In descriptions, numbers are written positionally from `1e-4` up to but not including `1e16`. -/
def descriptionLayout : Number.Layout := ⟨-4, 16, false, .up⟩

/-- The text of a floating-point value in a description. -/
def floatingText (format : Number.Format) : Number.Floating → String
  | .finite x => descriptionLayout.render format x
  | .infinite negative => if negative then "-inf" else "inf"
  | .nan => "NaN"

/-- The name of something and what it holds. -/
def call (name : String) (content : String) : String := name ++ "(" ++ content ++ ")"

/-- A list between brackets. -/
def bracketed (items : List String) : String := "[" ++ ", ".intercalate items ++ "]"

mutual

/-- The string that shows what a value is. -/
def describe : Value → String
  | .null => "Null"
  | .boolean b => call "Boolean" (if b then "true" else "false")
  | .integer type n => call type.name (Text.integerText n)
  | .float x => call "Float" (floatingText .single x)
  | .double x => call "Double" (floatingText .double x)
  | .decimal x =>
    call "Decimal" ("Decimal \x7b width: " ++ Text.naturalText x.width ++ ", scale: "
      ++ Text.naturalText x.scale ++ ", value: " ++ Text.integerText x.unscaled ++ " \x7d")
  | .text s => call "Text" (Text.literal s)
  | .member s => call "Enum" (Text.literal s)
  | .blob bytes => call "Blob" (bracketed (bytes.map Text.naturalText))
  | .date days => call "Date32" (Text.integerText days)
  | .timestamp unit n => call "Timestamp" (unit.name ++ ", " ++ Text.integerText n)
  | .time unit n => call "Time64" (unit.name ++ ", " ++ Text.integerText n)
  | .interval months days nanos =>
    "Interval \x7b months: " ++ Text.integerText months ++ ", days: " ++ Text.integerText days
      ++ ", nanos: " ++ Text.integerText nanos ++ " \x7d"
  | .list items => call "List" (bracketed (describeAll items))
  | .array items => call "Array" (bracketed (describeAll items))
  | .union value => call "Union" value.describe

/-- The strings of several values. -/
def describeAll : List Value → List String
  | [] => []
  | item :: items => item.describe :: describeAll items

end

/-- An integer as JSON. Of the two widest types, the signed one yields a number if it fits into 64
    signed bits and a string of digits otherwise. -/
def integerJson (type : IntegerType) (n : Int) : Json :=
  match type with
  | .huge => if IntegerType.big.holds n then .ofInt n else .string (Text.integerText n)
  | .unsignedHuge => .string (describe (.integer type n))
  | _ => .ofInt n

/-- The instant that is so many units after the beginning of 1970, if it can be shown. -/
def instant? (unit : TimeUnit) (n : Int) : Option Temporal.Timestamp :=
  let t : Temporal.Timestamp := ⟨n * unit.nanos⟩
  if t.inRange then some t else none

/-- The value as JSON. -/
def toJson : Value → Json
  | .null => .null
  | .boolean b => .bool b
  | .integer type n => integerJson type n
  | .float x => .ofFloating (Number.Format.double.convert x)
  | .double x => .ofFloating x
  | .decimal x => .string x.text
  | .text s => .string s
  | .date days => ((Temporal.Date.dayText? days).map Json.string).getD .null
  | .timestamp unit n => ((instant? unit n).map fun t => Json.string t.text).getD .null
  | value => .string value.describe

end Value

/-- Why a database cannot be used, in its own words. -/
inductive Failure where
  | opening (path source : String)
  | creating (source : String)
  | executing (source : String)
  deriving DecidableEq

/-- The text of a failure. -/
def Failure.message : Failure → String
  | .opening path source => "failed to open database " ++ path ++ ": " ++ source
  | .creating source => "failed to create in-memory database: " ++ source
  | .executing source => source

end BlockPipeline.Database

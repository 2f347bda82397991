import EntityQuery.Json.Basic

/-!
# TOML data

The values of a TOML document, and the JSON value that each stands for where any value is allowed.
-/

namespace EntityQuery.Toml

/-- A date or time as written: a date, a time, or both, with an offset from UTC in minutes. -/
structure DateTime where
  date : Option (Nat × Nat × Nat)
  time : Option (Nat × Nat × Nat × Nat)
  /-- `some none` stands for the letter `Z`. -/
  offset : Option (Option Int)
deriving DecidableEq

/-- A TOML value. -/
inductive Datum where
  | text (s : String)
  | int (n : Int64)
  | float (x : Binary64)
  | bool (b : Bool)
  | dateTime (d : DateTime)
  | array (items : List Datum)
  | table (entries : List (String × Datum))

open Text

namespace DateTime

/-- The decimals of a second without trailing zeros. -/
def fractionChars (nanos : Nat) : List Char :=
  if nanos = 0 then []
  else '.' :: ((fixedDigits 9 nanos).reverse.dropWhile (· == '0')).reverse

/-- A time of day. -/
def timeChars : Nat × Nat × Nat × Nat → List Char
  | (h, m, s, nanos) =>
    fixedDigits 2 h ++ ':' :: fixedDigits 2 m ++ ':' :: fixedDigits 2 s ++ fractionChars nanos

/-- An offset from UTC. -/
def offsetChars : Option Int → List Char
  | none => ['Z']
  | some minutes =>
    (if minutes < 0 then '-' else '+') ::
      (fixedDigits 2 (minutes.natAbs / 60) ++ ':' :: fixedDigits 2 (minutes.natAbs % 60))

/-- The normal text of a date or time. -/
def chars (d : DateTime) : List Char :=
  let date := match d.date with
    | some (y, m, day) => fixedDigits 4 y ++ '-' :: fixedDigits 2 m ++ '-' :: fixedDigits 2 day
    | none => []
  let time := (d.time.map timeChars).getD []
  let separator := if d.date.isSome ∧ d.time.isSome then ['T'] else []
  date ++ separator ++ time ++ (d.offset.map offsetChars).getD []

end DateTime

namespace Datum

/-- The member that marks a date or time inside JSON. -/
def dateTimeMember : String := "$__toml_private_datetime"

mutual

/-- The JSON form of a value: floats that are not finite become null, and a date or time an object
with its text in a member of its own. -/
def toJson : Datum → Json
  | .text s => .text s
  | .int n => .int (.ofInt64 n)
  | .float x => .ofBinary64 x
  | .bool b => .bool b
  | .dateTime d => .object [(dateTimeMember, .text (String.ofList d.chars))]
  | .array items => .array (toJsonItems items)
  | .table entries => .object (toJsonEntries entries)

/-- The JSON form of the items of an array. -/
def toJsonItems : List Datum → List Json
  | [] => []
  | d :: ds => toJson d :: toJsonItems ds

/-- The JSON form of the entries of a table. -/
def toJsonEntries : List (String × Datum) → List (String × Json)
  | [] => []
  | (k, d) :: es => (k, toJson d) :: toJsonEntries es

end

end Datum

end EntityQuery.Toml

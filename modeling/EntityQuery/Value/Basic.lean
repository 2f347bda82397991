import EntityQuery.Calendar.Instant
import EntityQuery.Json.Printer
import EntityQuery.Text.Quoted

/-!
# Values

The loosely typed values that a service sends and takes back, their text, their JSON form, their
literal in a filter, and the two equalities on them: strict equality compares numbers by value
whatever their kind, structural equality keeps the kinds apart.
-/

namespace EntityQuery

/-- A value of a field. `json` holds any document; arrays and objects have no other form. -/
inductive Value where
  | null
  | bool (b : Bool)
  | int (n : Int64)
  | float (x : Binary64)
  | text (s : String)
  | date (t : Instant)
  | json (j : Json)

namespace Value

/-! ## Numbers -/

/-- The largest magnitude up to which every integer is a binary64 value. -/
def safeInteger : Nat := 0x20000000000000

/-- A number as a value: an integer when it is integral and within the safe range. -/
def ofNumber (x : Binary64) : Value :=
  match x with
  | .finite y =>
    if y.isInteger ∧ y.truncate.natAbs ≤ safeInteger then .int (Int64.ofInt y.truncate) else .float x
  | _ => .float x

/-- The number that a value holds, if any. -/
def number? : Value → Option Binary64
  | .int n => some (.ofInt n.toInt)
  | .float x => some x
  | .json j => j.toBinary64?
  | _ => none

/-- Whether a value holds a number. -/
def isNumber (v : Value) : Bool :=
  v.number?.isSome

/-! ## Views -/

/-- Whether a value is null, also as a JSON document. -/
def isNull : Value → Bool
  | .null => true
  | .json .null => true
  | _ => false

/-- The text that a value holds, also as a JSON document. -/
def text? : Value → Option String
  | .text s => some s
  | .json (.text s) => some s
  | _ => none

/-- Whether a loose value counts as true: everything but null, false, zero, NaN and the empty
text. -/
def isTruthy : Value → Bool
  | .null => false
  | .bool b => b
  | .int n => n != 0
  | .float x => !x.isZero && !x.isNaN
  | .text s => !s.isEmpty
  | .date _ => true
  | .json j =>
    match j with
    | .null => false
    | .bool b => b
    | .int n => n.val != 0
    | .float x => x.word != 0
    | .text s => !s.isEmpty
    | _ => true

/-! ## Equality -/

/-- Strict equality: numbers by numeric value whatever their kind, everything else by kind and
content. -/
def strictEq : Value → Value → Bool
  | .int a, .int b => a == b
  | .date a, .date b => a == b
  | .null, .null => true
  | .bool a, .bool b => a == b
  | .text a, .text b => a == b
  | .json a, .json b => a.equal b
  | a, b =>
    match a.number?, b.number? with
    | some x, some y => x.equal y
    | _, _ => false

/-- Structural equality: the same kind and equal content, so an integer never equals a float. -/
def structEq : Value → Value → Bool
  | .null, .null => true
  | .bool a, .bool b => a == b
  | .int a, .int b => a == b
  | .float x, .float y => x.equal y
  | .text a, .text b => a == b
  | .date a, .date b => a == b
  | .json a, .json b => a.equal b
  | _, _ => false

/-- Whether all values of a list strictly equal the first one. -/
def allEqual : List Value → Bool
  | [] => true
  | v :: vs => vs.all v.strictEq

/-! ## Text, JSON and filter forms -/

/-- A JSON document as a value. Integers beyond the signed range become floats. -/
def ofJson : Json → Value
  | .null => .null
  | .bool b => .bool b
  | .int n =>
    match n.toInt64? with
    | some i => .int i
    | none => .float (.ofInt n.val)
  | .float x => .float (.finite x)
  | .text s => .text s
  | j => .json j

/-- The JSON form of a value: instants as timestamps, floats that are not finite as null. -/
def toJson : Value → Json
  | .null => .null
  | .bool b => .bool b
  | .int n => .int (.ofInt64 n)
  | .float x => .ofBinary64 x
  | .text s => .text s
  | .date t => .text t.isoText
  | .json j => j

/-- The text of a truth value. -/
def boolText (b : Bool) : String :=
  if b then "true" else "false"

/-- The text of an integer. -/
def intText (n : Int64) : String :=
  String.ofList (Text.intDigits n.toInt)

/-- The text of a value; null has none. -/
def display : Value → String
  | .null => ""
  | .bool b => boolText b
  | .int n => intText n
  | .float x => x.numberText
  | .text s => s
  | .date t => t.isoText
  | .json .null => ""
  | .json (.text s) => s
  | .json j => j.render

/-- The date literal of the filter language. -/
def dateLiteral (t : Instant) : String :=
  String.ofList ("date(".toList ++ t.isoChars ++ [')'])

theorem toList_dateLiteral (t : Instant) :
    (dateLiteral t).toList = "date(".toList ++ t.isoChars ++ [')'] :=
  String.toList_ofList

/-- The literal of a value in the filter language. -/
def toFilter : Value → String
  | .date t => dateLiteral t
  | .text s => Text.quote s
  | .json (.text s) => Text.quote s
  | v => if v.isNull then "null" else v.display

end Value

end EntityQuery

import EntityQuery.Json.Basic

/-!
# JSON text

The compact text of a document: no spaces, members in their order, and escapes only for the quote,
the backslash and the control characters below space. Floats show their shortest decimal, a tie to
even, positional for scientific exponents from -5 to 15 with at least one decimal, and with an
exponent and its sign otherwise.
-/

namespace EntityQuery.Json

open Text

/-- The two hexadecimal digits of a control character. -/
def hexPair (n : Nat) : List Char :=
  padLeft 2 '0' (Nat.toDigits 16 n)

/-- A character inside a JSON string. -/
def escapeChar (c : Char) : List Char :=
  if c = '"' then ['\\', '"']
  else if c = '\\' then ['\\', '\\']
  else if 0x20 ≤ c.toNat then [c]
  else if c.toNat = 0x08 then ['\\', 'b']
  else if c.toNat = 0x09 then ['\\', 't']
  else if c.toNat = 0x0A then ['\\', 'n']
  else if c.toNat = 0x0C then ['\\', 'f']
  else if c.toNat = 0x0D then ['\\', 'r']
  else ['\\', 'u', '0', '0'] ++ hexPair c.toNat

/-- A JSON string. -/
def stringChars (s : String) : List Char :=
  '"' :: s.toList.flatMap escapeChar ++ ['"']

/-- The exponent part of a float: the letter, the sign and the digits. -/
def exponentChars (e : Int) : List Char :=
  'e' :: (if e < 0 then '-' else '+') :: digitsOf e.natAbs

/-- A nonnegative float with its shortest decimal: the scientific exponent decides the form. -/
def magnitudeChars (d : Decimal) : List Char :=
  let ds := digitsOf d.digits
  let scientific : Int := d.exponent + ds.length - 1
  if d.digits = 0 then "0.0".toList
  else if -5 ≤ scientific ∧ scientific ≤ 15 then
    let (whole, fraction) := d.split
    Decimal.joinAt '.' whole (if fraction.isEmpty then ['0'] else fraction)
  else Decimal.joinAt '.' (ds.take 1) (ds.drop 1) ++ exponentChars scientific

/-- A float. -/
def floatChars (x : Binary64.Finite) : List Char :=
  let s := magnitudeChars (Binary64.shortest .even x.word)
  if x.negative then '-' :: s else s

mutual

/-- The characters of a document. -/
def chars : Json → List Char
  | .null => "null".toList
  | .bool true => "true".toList
  | .bool false => "false".toList
  | .int n => intDigits n.val
  | .float x => floatChars x
  | .text s => stringChars s
  | .array items => '[' :: itemChars items ++ [']']
  | .object members => '\x7b' :: memberChars members ++ ['\x7d']

/-- Items with commas between them. -/
def itemChars : List Json → List Char
  | [] => []
  | x :: xs => chars x ++ laterItemChars xs

/-- Items with a comma before each. -/
def laterItemChars : List Json → List Char
  | [] => []
  | x :: xs => ',' :: chars x ++ laterItemChars xs

/-- Members with commas between them. -/
def memberChars : List (String × Json) → List Char
  | [] => []
  | (k, v) :: ms => stringChars k ++ ':' :: chars v ++ laterMemberChars ms

/-- Members with a comma before each. -/
def laterMemberChars : List (String × Json) → List Char
  | [] => []
  | (k, v) :: ms => ',' :: stringChars k ++ ':' :: chars v ++ laterMemberChars ms

end

/-- The compact text of a document. -/
def render (j : Json) : String :=
  String.ofList j.chars

end EntityQuery.Json

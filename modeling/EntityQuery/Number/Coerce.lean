import EntityQuery.Number.Decimal
import EntityQuery.Text.Blank

/-!
# Numbers in free text

Reading a number out of loose text: white space and the byte order mark around it are ignored, no
text is zero, infinities are spelled out, and unsigned integers may be hexadecimal, octal or binary.
-/

namespace EntityQuery

open Text

/-- What is ignored around a number: white space and the byte order mark. -/
def isNumberPadding (c : Char) : Bool :=
  isBlank c || c == Char.ofNat 0xFEFF

/-- The value of a digit in some radix up to 16. -/
def digitIn? (radix : Nat) (c : Char) : Option Nat :=
  let v :=
    if '0' ≤ c ∧ c ≤ '9' then c.toNat - '0'.toNat
    else if 'a' ≤ c ∧ c ≤ 'f' then c.toNat - 'a'.toNat + 10
    else if 'A' ≤ c ∧ c ≤ 'F' then c.toNat - 'A'.toNat + 10
    else radix
  if v < radix then some v else none

/-- The radix that a letter after a leading zero announces. -/
def radixOf? (c : Char) : Option Nat :=
  if c = 'x' ∨ c = 'X' then some 16
  else if c = 'o' ∨ c = 'O' then some 8
  else if c = 'b' ∨ c = 'B' then some 2
  else none

/-- Take one more digit into a number, rounding the product and the sum. -/
def Binary64.pushDigit (radix digit : Nat) (acc : Binary64) : Binary64 :=
  (acc.mul (.ofInt radix)).add (.ofInt digit)

/-- Read digits of a radix to the end of the text. -/
def readRadix? (radix : Nat) : Binary64 → List Char → Option Binary64
  | acc, [] => some acc
  | acc, c :: s => do
    let d ← digitIn? radix c
    readRadix? radix (acc.pushDigit radix d) s

/-- Read a number that stands alone. -/
def readNumber? (s : List Char) : Option Binary64 :=
  if s = "Infinity".toList ∨ s = "+Infinity".toList then some (.infinite false)
  else if s = "-Infinity".toList then some (.infinite true)
  else match s with
    | [] => some (.zero false)
    | '0' :: c :: ds =>
      match radixOf? c with
      | some radix => if ds.isEmpty then none else readRadix? radix (.zero false) ds
      | none => Binary64.ofNumeral? s
    | _ => Binary64.ofNumeral? s

/-- Read a number out of free text. -/
def coerceChars (s : List Char) : Option Binary64 :=
  readNumber? (trimWhere isNumberPadding s)

/-- Read a number out of free text. -/
def coerceNumber (text : String) : Option Binary64 :=
  coerceChars text.toList

end EntityQuery

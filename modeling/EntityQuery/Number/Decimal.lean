import EntityQuery.Number.Shortest
import EntityQuery.Text.Digits

/-!
# Decimal text

Positional text of decimals and of binary64 values, and the grammar of decimal numerals. The
positional text has no exponent whatever the magnitude; a tie between two shortest decimals goes up.
-/

namespace EntityQuery

open Text

/-! ## Writing -/

namespace Decimal

/-- The digits before and after the point. There is at least one before it. -/
def split (d : Decimal) : List Char × List Char :=
  let ds := digitsOf d.digits
  match d.exponent with
  | .ofNat n => (if d.digits = 0 then ['0'] else ds ++ List.replicate n '0', [])
  | .negSucc n =>
    let places := n + 1
    let padded := padLeft (places + 1) '0' ds
    (padded.take (padded.length - places), padded.drop (padded.length - places))

/-- Join the digits before and after a point; without digits after it the point is left out. -/
def joinAt (point : Char) (whole fraction : List Char) : List Char :=
  if fraction.isEmpty then whole else whole ++ point :: fraction

/-- The positional text of a decimal. -/
def plainChars (d : Decimal) : List Char :=
  joinAt '.' d.split.1 d.split.2

end Decimal

namespace Binary64

/-- The shortest decimal of a finite magnitude, as positional text needs it. -/
def Finite.decimal (x : Finite) : Decimal :=
  shortest .up x.word

/-- The positional text of a finite value with its sign, `-0` included. -/
def Finite.plainChars (x : Finite) : List Char :=
  if x.negative then '-' :: x.decimal.plainChars else x.decimal.plainChars

/-- The positional text of a value, with the names `NaN`, `inf` and `-inf`. -/
def plainText : Binary64 → String
  | .finite x => String.ofList x.plainChars
  | .infinite false => "inf"
  | .infinite true => "-inf"
  | .nan => "NaN"

/-- The text of a number: positional, with `0` for either zero and the words `NaN`, `Infinity`
and `-Infinity`. -/
def numberChars : Binary64 → List Char
  | .finite x => if x.word = 0 then ['0'] else x.plainChars
  | .infinite false => "Infinity".toList
  | .infinite true => "-Infinity".toList
  | .nan => "NaN".toList

/-- The text of a number as boxes and filters show it. -/
def numberText (x : Binary64) : String :=
  String.ofList x.numberChars

end Binary64

/-! ## Reading -/

/-- Read an optional sign; true for a minus. -/
def takeSign : List Char → Bool × List Char
  | '-' :: s => (true, s)
  | '+' :: s => (false, s)
  | s => (false, s)

/-- Read an optional exponent that ends the text: `e` or `E`, a sign if any, at least one digit. -/
def readExponent? : List Char → Option Int
  | [] => some 0
  | c :: s =>
    if c = 'e' ∨ c = 'E' then
      let (negative, t) := takeSign s
      let (ds, rest) := spanDigits t
      if ds.isEmpty ∨ !rest.isEmpty then none
      else some (if negative then -(natOfDigits ds : Int) else natOfDigits ds)
    else none

/-- Read digits with at most one point among them, and at least one digit: the digits before the
point, those after it, and what follows. -/
def readMantissa? (s : List Char) : Option (List Char × List Char × List Char) :=
  let (whole, rest) := spanDigits s
  let (fraction, rest) := match rest with
    | '.' :: t => spanDigits t
    | t => ([], t)
  if whole.isEmpty ∧ fraction.isEmpty then none else some (whole, fraction, rest)

/-- The value of a numeral given in parts, correctly rounded. -/
def Binary64.ofParts (negative : Bool) (whole fraction : List Char) (exponent : Int) : Binary64 :=
  .ofDecimal negative (natOfDigits (whole ++ fraction)) (exponent - fraction.length)

/-- Read a whole text as a decimal numeral: a sign if any, digits with at most one point, and an
exponent if any. -/
def Binary64.ofNumeral? (s : List Char) : Option Binary64 := do
  let (negative, s) := takeSign s
  let (whole, fraction, rest) ← readMantissa? s
  let exponent ← readExponent? rest
  return .ofParts negative whole fraction exponent

end EntityQuery

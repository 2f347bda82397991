import EntityQuery.Local.Error
import EntityQuery.Number.Coerce

/-!
# Numbers as people write them

Points group the thousands and a comma stands before the decimals.
Writing rounds the shortest decimal half away from zero; reading drops every point, takes the first
comma as the decimal point, and cuts off, without rounding, the decimals beyond a given number.
-/

namespace EntityQuery

open Text

/-! ## Writing -/

/-- The decimals shown when their number is not fixed. -/
def maxFractionDigits : Nat := 20

/-- Add a carry to digits, from the last one to the first: the carry that is left, and the digits. -/
def carryInto (carry : Bool) : List Char → Bool × List Char
  | [] => (carry, [])
  | c :: s =>
    let (carry, ds) := carryInto carry s
    if carry then
      if c = '9' then (true, '0' :: ds) else (false, Char.ofNat (c.toNat + 1) :: ds)
    else (false, c :: ds)

/-- Add one in the last place of the digits before and after the point. A carry that leaves the first
digit is written before it. -/
def roundUp (whole fraction : List Char) : List Char × List Char :=
  let (carry, fraction) := carryInto true fraction
  let (carry, whole) := carryInto carry whole
  (if carry then '1' :: whole else whole, fraction)

/-- Cut the digits after the point to a number of places, and round up if the first digit cut off is
at least five. -/
def roundPlaces (places : Nat) (whole fraction : List Char) : List Char × List Char :=
  match fraction.drop places with
  | [] => (whole, fraction)
  | c :: _ =>
    if '5' ≤ c then roundUp whole (fraction.take places) else (whole, fraction.take places)

/-- Points between groups of three, for digits in reverse. -/
def groupReversed : List Char → List Char
  | a :: b :: c :: d :: s => a :: b :: c :: '.' :: groupReversed (d :: s)
  | s => s

/-- Points between groups of three digits, counted from the right. -/
def groupThousands (ds : List Char) : List Char :=
  (groupReversed ds.reverse).reverse

/-- The digits of a magnitude before and after the comma: decimals as many as fixed, or at most
twenty without trailing zeros. -/
def localizedParts (fractionDigits : Option Nat) (d : Decimal) : List Char × List Char :=
  match fractionDigits with
  | some places =>
    let (whole, fraction) := roundPlaces places d.split.1 d.split.2
    (whole, padRight places '0' fraction)
  | none =>
    let (whole, fraction) := roundPlaces maxFractionDigits d.split.1 d.split.2
    (whole, dropEndWhile (· == '0') fraction)

/-- A finite magnitude for people. -/
def localizedChars (grouping : Bool) (minimumIntegerDigits : Nat) (fractionDigits : Option Nat)
    (d : Decimal) : List Char :=
  let (whole, fraction) := localizedParts fractionDigits d
  let whole := padLeft (max minimumIntegerDigits 1) '0' whole
  Decimal.joinAt ',' (if grouping then groupThousands whole else whole) fraction

/-- A number for people. NaN has no text, an infinity its sign only, and a minus sign stands before
every number below zero, also one that rounds to zero. -/
def formatLocalized (x : Binary64) (grouping : Bool) (minimumIntegerDigits : UInt32)
    (fractionDigits : Option UInt32) : String :=
  let signed (s : List Char) : String := String.ofList (if x.isBelowZero then '-' :: s else s)
  match x with
  | .nan => ""
  | .infinite _ => signed ['∞']
  | .finite y =>
    signed (localizedChars grouping minimumIntegerDigits.toNat (fractionDigits.map UInt32.toNat)
      y.decimal)

/-! ## Reading -/

/-- Replace the first `a` by `b`. -/
def replaceFirst (a b : Char) : List Char → List Char
  | [] => []
  | c :: s => if c = a then b :: s else c :: replaceFirst a b s

/-- Drop the points and make the first comma the decimal point. -/
def plainNumeral (s : List Char) : List Char :=
  replaceFirst ',' '.' (s.filter (· ≠ '.'))

/-- Cut a number to some decimals: scale, cut to an integer, scale back, each step rounded. The
number of decimals is taken as a signed 32-bit one. -/
def Binary64.cutTo (digits : UInt32) (x : Binary64) : Binary64 :=
  let scale := (Binary64.ofInt 10).pow digits.toInt32.toInt
  (x.mul scale).trunc.div scale

/-- Read a number written for people. -/
def parseNumberChars? (fractionDigits : Option UInt32) (s : List Char) : Option Binary64 :=
  (coerceChars (plainNumeral s)).map fun x =>
    match fractionDigits with
    | some digits => x.cutTo digits
    | none => x

/-- Read a number written for people. -/
def parseNumber (text : String) (fractionDigits : Option UInt32) : Except TextError Binary64 :=
  match parseNumberChars? fractionDigits text.toList with
  | some x => .ok x
  | none => .error (.notNumber text)

end EntityQuery

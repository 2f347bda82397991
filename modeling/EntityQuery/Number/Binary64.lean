/-!
# Binary64 numbers

IEEE binary64 values with every operation exact and rounded once. A finite magnitude is kept as its
word: the exponent and fraction fields of the interchange format read as one number, so the order
of the words is the order of the magnitudes and the neighbours of a word are its value's neighbours.

Every finite value is a whole number of *units*, the least positive value `2^-1074`. An operation
computes its exact result as a quotient `n / d` of units, and `nearestWord` rounds that quotient to
the nearest word, a tie to the even one.
-/

namespace EntityQuery

/-- The place of the exponent field in a word, which is also the weight of the leading bit of a full
significand: `2^52`. -/
abbrev Binary64.leadingBit : Nat := 0x10000000000000

/-- The words of finite magnitudes lie below this one, `2047 * 2^52`, which stands for infinity. -/
abbrev Binary64.topWord : Nat := 0x7FF0000000000000

/-- A finite binary64 value: its sign and the word of its magnitude. Zero has both signs. -/
structure Binary64.Finite where
  negative : Bool
  word : Nat
  word_lt : word < Binary64.topWord
deriving DecidableEq

/-- A binary64 value. There is one NaN. -/
inductive Binary64 where
  | finite (x : Binary64.Finite)
  | infinite (negative : Bool)
  | nan
deriving DecidableEq

namespace Binary64

/-! ## Words and units -/

/-- The number of units in one: `1 = 2^1074 * 2^-1074`. -/
def one : Nat := 1 <<< 1074

/-- The magnitude that a word stands for, in units. Below `2^52` the word is the magnitude; above,
its high part is one more than the power of two that scales the significand. -/
def unitsOf (w : Nat) : Nat :=
  if w < leadingBit then w
  else (leadingBit + w % leadingBit) <<< (w / leadingBit - 1)

/-- The quotient `n / d` rounded to a whole number, a tie to the even one. -/
def divHalfEven (n d : Nat) : Nat :=
  let q := n / d
  let r := n % d
  if d < 2 * r ∨ (2 * r = d ∧ q % 2 = 1) then q + 1 else q

/-- The word nearest to `n / d` units. The significand takes 53 bits from the leading one on, or
all whole units when there are fewer; a significand that rounds up to `2^53` carries into the
exponent field, which is the right word. -/
def nearestWord (n d : Nat) : Nat :=
  let s := Nat.log2 (n / d) - 52
  s * leadingBit + divHalfEven n (d <<< s)

/-- The value nearest to `n / d` units, infinite from halfway beyond the last finite value on. -/
def ofUnits (negative : Bool) (n d : Nat) : Binary64 :=
  if h : nearestWord n d < topWord then .finite ⟨negative, nearestWord n d, h⟩
  else .infinite negative

/-- The magnitude of a finite value, in units. -/
def Finite.units (x : Finite) : Nat :=
  unitsOf x.word

/-- A finite value as a signed number of units; both zeros are `0`. -/
def Finite.signedUnits (x : Finite) : Int :=
  if x.negative then -(x.units : Int) else x.units

/-- The value nearest to a signed number of units; `zeroNegative` is the sign of a zero. -/
def ofSignedUnits (zeroNegative : Bool) (n : Int) : Binary64 :=
  ofUnits (if n = 0 then zeroNegative else decide (n < 0)) n.natAbs 1

/-! ## Zeros, integers and decimals -/

/-- Zero with a sign. -/
def zero (negative : Bool) : Binary64 :=
  .finite ⟨negative, 0, by decide⟩

/-- The value nearest to an integer. -/
def ofInt (n : Int) : Binary64 :=
  ofUnits (decide (n < 0)) (n.natAbs * one) 1

/-- The value nearest to `digits * 10^exponent`. Exponents that put it beyond every finite value,
or below half the least positive one, are settled without computing the power. -/
def ofDecimal (negative : Bool) (digits : Nat) (exponent : Int) : Binary64 :=
  if digits = 0 then zero negative
  else if 400 < exponent then .infinite negative
  else if exponent < -(400 + (Nat.log2 digits : Int)) then zero negative
  else ofUnits negative (digits * Nat.pow 10 exponent.toNat * one) (Nat.pow 10 (-exponent).toNat)

/-! ## Comparison -/

/-- Numeric equality: the two zeros are equal and NaN equals nothing. -/
def equal : Binary64 → Binary64 → Bool
  | .finite x, .finite y => x.signedUnits == y.signedUnits
  | .infinite s, .infinite t => s == t
  | _, _ => false

/-- Whether a value is NaN. -/
def isNaN : Binary64 → Bool
  | .nan => true
  | _ => false

/-- Whether a value equals zero. -/
def isZero : Binary64 → Bool
  | .finite x => x.word == 0
  | _ => false

/-- Whether a value is less than zero. -/
def isBelowZero : Binary64 → Bool
  | .finite x => x.negative && x.word != 0
  | .infinite s => s
  | .nan => false

/-! ## Arithmetic -/

/-- The sign of a product or quotient. -/
def signOf (x : Finite) (y : Finite) : Bool :=
  x.negative != y.negative

/-- The sum. A zero sum is negative only when both terms are. -/
def add : Binary64 → Binary64 → Binary64
  | .finite x, .finite y => ofSignedUnits (x.negative && y.negative) (x.signedUnits + y.signedUnits)
  | .infinite s, .infinite t => if s = t then .infinite s else .nan
  | .infinite s, .finite _ => .infinite s
  | .finite _, .infinite t => .infinite t
  | _, _ => .nan

/-- The product. Zero times an infinity is NaN. -/
def mul : Binary64 → Binary64 → Binary64
  | .finite x, .finite y => ofUnits (signOf x y) (x.units * y.units) one
  | .infinite s, .infinite t => .infinite (s != t)
  | .infinite s, .finite y => if y.word = 0 then .nan else .infinite (s != y.negative)
  | .finite x, .infinite t => if x.word = 0 then .nan else .infinite (x.negative != t)
  | _, _ => .nan

/-- The quotient. A nonzero value over zero is infinite; zero over zero and an infinity over an
infinity are NaN. -/
def div : Binary64 → Binary64 → Binary64
  | .finite x, .finite y =>
    if y.word = 0 then
      if x.word = 0 then .nan else .infinite (signOf x y)
    else ofUnits (signOf x y) (x.units * one) y.units
  | .infinite _, .infinite _ => .nan
  | .infinite s, .finite y => .infinite (s != y.negative)
  | .finite x, .infinite t => zero (x.negative != t)
  | _, _ => .nan

/-- The whole part of a finite magnitude. -/
def Finite.wholePart (x : Finite) : Nat :=
  x.units / one

/-- A finite value cut toward zero to an integer. -/
def Finite.truncate (x : Finite) : Int :=
  if x.negative then -(x.wholePart : Int) else x.wholePart

/-- Whether a finite value is an integer. -/
def Finite.isInteger (x : Finite) : Bool :=
  x.units % one == 0

/-- The value cut toward zero to an integer; the sign of a zero stays. -/
def trunc : Binary64 → Binary64
  | .finite x => ofUnits x.negative (x.wholePart * one) 1
  | x => x

/-- Square and multiply: `acc * base^n`, each product rounded, from the low bit of `n` up. -/
def powFrom (acc base : Binary64) (n : Nat) : Binary64 :=
  let acc' := if n % 2 = 1 then mul acc base else acc
  if h : n / 2 = 0 then acc' else powFrom acc' (mul base base) (n / 2)
termination_by n
decreasing_by omega

/-- An integer power by squaring; a negative one is the reciprocal of the positive one. -/
def pow (base : Binary64) (n : Int) : Binary64 :=
  let r := powFrom (ofInt 1) base n.natAbs
  if n < 0 then div (ofInt 1) r else r

end Binary64

end EntityQuery

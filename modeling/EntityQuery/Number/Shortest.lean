import EntityQuery.Number.Binary64

/-!
# Shortest decimals

The decimal with the fewest digits that rounds to a given magnitude, and of those the nearest. A
decimal has the fewest digits when it lies on the coarsest grid `10^p` that meets the interval of
reals which round to the magnitude; the search goes through the grids from coarse to fine and stops
at `p = -1074`, where the magnitude itself is a grid point.
-/

namespace EntityQuery

/-- A nonnegative decimal, `digits * 10^exponent`. -/
structure Decimal where
  digits : Nat
  exponent : Int
deriving DecidableEq

/-- Which of two equally near decimals is taken. -/
inductive Decimal.Tie where
  | up
  | even
deriving DecidableEq

namespace Binary64

/-! ## The interval of a magnitude

Ends are counted in half units, so that the midpoint of two neighbouring words is a whole number. -/

/-- The midpoint between a word and the one below, in half units. -/
def lowerEnd (w : Nat) : Nat :=
  unitsOf (w - 1) + unitsOf w

/-- The midpoint between a word and the one above, in half units. -/
def upperEnd (w : Nat) : Nat :=
  unitsOf w + unitsOf (w + 1)

/-- The half units in one step of the grid `10^p`, as a quotient. -/
def gridStep (p : Int) : Nat × Nat :=
  (Nat.pow 10 p.toNat * (2 * one), Nat.pow 10 (-p).toNat)

/-- Whether `d * 10^p` rounds to the word: it lies between the ends, which count when the word is
even. -/
def roundsTo (w d : Nat) (p : Int) : Bool :=
  let (num, den) := gridStep p
  let point := d * num
  let low := lowerEnd w * den
  let high := upperEnd w * den
  if w % 2 = 0 then decide (low ≤ point) && decide (point ≤ high)
  else decide (low < point) && decide (point < high)

/-- The nearer of the two points of the grid `10^p` around the magnitude; a tie goes by `tie`. -/
def nearerPoint (tie : Decimal.Tie) (w : Nat) (p : Int) : Nat :=
  let (num, den) := gridStep p
  let value := 2 * unitsOf w * den
  let d := value / num
  let twice := 2 * value
  let middle := (2 * d + 1) * num
  if twice < middle then d
  else if middle < twice then d + 1
  else match tie with
    | .up => d + 1
    | .even => if d % 2 = 0 then d else d + 1

/-- A point of the grid `10^p` that rounds to the word, the nearest if there are several. -/
def onGrid? (tie : Decimal.Tie) (w : Nat) (p : Int) : Option Nat :=
  let (num, den) := gridStep p
  let d := 2 * unitsOf w * den / num
  match roundsTo w d p, roundsTo w (d + 1) p with
  | true, true => some (nearerPoint tie w p)
  | true, false => some d
  | false, true => some (d + 1)
  | false, false => none

/-- An exponent so large that no point of its grid but zero is as small as the magnitude:
`2^k ≤ 10^(k/3)` for `k ≥ 0`, and `2^-k ≤ 10^(-3k/10)`. -/
def coarsest (w : Nat) : Int :=
  let k : Int := (Nat.log2 (unitsOf w) : Int) + 1 - 1074
  if 0 ≤ k then k / 3 + 1 else k * 3 / 10 + 1

/-- Search the grids `10^(n - 1074)`, …, `10^-1074` in this order. The last one holds the magnitude
itself, since a unit is `5^1074 * 10^-1074`. -/
def searchGrids (tie : Decimal.Tie) (w : Nat) : Nat → Decimal
  | 0 => ⟨unitsOf w * Nat.pow 5 1074, -1074⟩
  | n + 1 =>
    match onGrid? tie w (n + 1 - 1074) with
    | some d => ⟨d, n + 1 - 1074⟩
    | none => searchGrids tie w n

/-- The shortest decimal that rounds to the magnitude of a word, nearest of its length. -/
def shortest (tie : Decimal.Tie) (w : Nat) : Decimal :=
  if w = 0 then ⟨0, 0⟩ else searchGrids tie w (coarsest w + 1074).toNat

end Binary64

end EntityQuery

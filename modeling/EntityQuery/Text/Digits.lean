/-!
# Decimal digits

Runs of ASCII digits read as numbers, numbers written with a fixed width, and padding.
-/

namespace EntityQuery.Text

/-- The value of a run of decimal digits, most significant first. -/
def natOfDigits (ds : List Char) : Nat :=
  ds.foldl (fun n c => n * 10 + (c.toNat - '0'.toNat)) 0

/-- The decimal digits of a number, most significant first. -/
def digitsOf (n : Nat) : List Char :=
  Nat.toDigits 10 n

/-- Write `pad` before a text until it has at least `width` characters. -/
def padLeft (width : Nat) (pad : Char) (s : List Char) : List Char :=
  List.replicate (width - s.length) pad ++ s

/-- Write `pad` after a text until it has at least `width` characters. -/
def padRight (width : Nat) (pad : Char) (s : List Char) : List Char :=
  s ++ List.replicate (width - s.length) pad

/-- A number in at least `width` digits, with leading zeros. -/
def fixedDigits (width n : Nat) : List Char :=
  padLeft width '0' (digitsOf n)

/-- The digits of an integer, a minus sign before a negative one. -/
def intDigits : Int → List Char
  | .ofNat n => digitsOf n
  | .negSucc n => '-' :: digitsOf (n + 1)

/-- Split a text after its leading run of digits. -/
def spanDigits (s : List Char) : List Char × List Char :=
  (s.takeWhile Char.isDigit, s.dropWhile Char.isDigit)

/-- Read exactly `n` digits from the front of a text. -/
def takeDigits? : Nat → List Char → Option (List Char × List Char)
  | 0, s => some ([], s)
  | n + 1, c :: s =>
    if c.isDigit then (takeDigits? n s).map fun (ds, rest) => (c :: ds, rest) else none
  | _ + 1, [] => none

/-- Read a number written in exactly `n` digits from the front of a text. -/
def takeNumber? (n : Nat) (s : List Char) : Option (Nat × List Char) :=
  (takeDigits? n s).map fun (ds, rest) => (natOfDigits ds, rest)

/-- Read one given character from the front of a text. -/
def takeChar? (c : Char) : List Char → Option (List Char)
  | [] => none
  | d :: s => if d = c then some s else none

end EntityQuery.Text

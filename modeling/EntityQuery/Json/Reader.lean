import EntityQuery.Json.Basic

/-!
# Reading JSON

A reader of JSON text. Integer literals that fit a 64-bit word are integers, `-0` and every other
number is a float, correctly rounded; a float beyond the finite range is refused. A repeated key
keeps its first place and takes its last value. Documents may nest only so deep.
-/

namespace EntityQuery.Json

open Text

/-- How deep the text of a document may nest. -/
def maxDepth : Nat := 127

/-- Drop the blanks of JSON. -/
def skipBlanks (s : List Char) : List Char :=
  s.dropWhile fun c => c == ' ' || c == '\n' || c == '\t' || c == '\r'

/-- The value of a hexadecimal digit. -/
def hexDigit? (c : Char) : Option Nat :=
  if '0' ≤ c ∧ c ≤ '9' then some (c.toNat - '0'.toNat)
  else if 'a' ≤ c ∧ c ≤ 'f' then some (c.toNat - 'a'.toNat + 10)
  else if 'A' ≤ c ∧ c ≤ 'F' then some (c.toNat - 'A'.toNat + 10)
  else none

/-- Read four hexadecimal digits. -/
def takeUnit? : List Char → Option (Nat × List Char)
  | a :: b :: c :: d :: s => do
    let a ← hexDigit? a
    let b ← hexDigit? b
    let c ← hexDigit? c
    let d ← hexDigit? d
    return (((a * 16 + b) * 16 + c) * 16 + d, s)
  | _ => none

/-- Read the four digits of an escaped 16-bit unit, and of a second one when the first is the high
half of a pair. A half without its partner is refused. -/
def takeEscapedUnit? (s : List Char) : Option (Char × List Char) := do
  let (u, s) ← takeUnit? s
  if 0xD800 ≤ u ∧ u < 0xDC00 then
    match s with
    | '\\' :: 'u' :: s => do
      let (v, s) ← takeUnit? s
      if 0xDC00 ≤ v ∧ v < 0xE000 then
        return (Char.ofNat (0x10000 + (u - 0xD800) * 0x400 + (v - 0xDC00)), s)
      else none
    | _ => none
  else if 0xDC00 ≤ u ∧ u < 0xE000 then none
  else return (Char.ofNat u, s)

/-- The character of a one-letter escape. -/
def shortEscape? (c : Char) : Option Char :=
  if c = '"' ∨ c = '\\' ∨ c = '/' then some c
  else if c = 'b' then some (Char.ofNat 0x08)
  else if c = 'f' then some (Char.ofNat 0x0C)
  else if c = 'n' then some '\n'
  else if c = 'r' then some '\r'
  else if c = 't' then some '\t'
  else none

/-- Read a string after its opening quote; `acc` holds what was read, in reverse, and `fuel` is at
least the length of the text. -/
def readString (fuel : Nat) (acc : List Char) (s : List Char) : Option (String × List Char) :=
  match fuel, s with
  | fuel + 1, '\\' :: 'u' :: s =>
    match takeEscapedUnit? s with
    | some (c, s) => readString fuel (c :: acc) s
    | none => none
  | fuel + 1, '\\' :: c :: s =>
    match shortEscape? c with
    | some c => readString fuel (c :: acc) s
    | none => none
  | fuel + 1, c :: s =>
    if c = '"' then some (String.ofList acc.reverse, s)
    else if c.toNat < 0x20 ∨ c = '\\' then none
    else readString fuel (c :: acc) s
  | _, _ => none

/-- Read the exponent of a number, if there is one. -/
def takeExponent? : List Char → Option (Option Int × List Char)
  | c :: s =>
    if c = 'e' ∨ c = 'E' then
      let (negative, s) := takeSign s
      let (ds, rest) := spanDigits s
      if ds.isEmpty then none
      else some (some (if negative then -(natOfDigits ds : Int) else natOfDigits ds), rest)
    else some (none, c :: s)
  | [] => some (none, [])

/-- The value of a number literal: an integer when it has neither point nor exponent, is not `-0`
and fits a word; a float otherwise, if that is finite. -/
def numberOf (negative : Bool) (whole : List Char) (fraction : Option (List Char))
    (exponent : Option Int) : Option Json :=
  let float : Option Json :=
    match Binary64.ofParts negative whole (fraction.getD []) (exponent.getD 0) with
    | .finite x => some (.float x)
    | _ => none
  match fraction, exponent with
  | none, none =>
    let n : Int := natOfDigits whole
    if negative ∧ n = 0 then float
    else match Integer.ofInt? (if negative then -n else n) with
      | some n => some (.int n)
      | none => float
  | _, _ => float

/-- Read a number. -/
def readNumber (s : List Char) : Option (Json × List Char) := do
  let (negative, s) := match s with
    | '-' :: s => (true, s)
    | s => (false, s)
  let (whole, rest) := spanDigits s
  if whole.isEmpty ∨ (whole.length ≠ 1 ∧ whole.head? = some '0') then none
  let (fraction, rest) ← match rest with
    | '.' :: t =>
      let (ds, rest) := spanDigits t
      if ds.isEmpty then none else some (some ds, rest)
    | t => some (none, t)
  let (exponent, rest) ← takeExponent? rest
  let value ← numberOf negative whole fraction exponent
  return (value, rest)

/-- Read a given word. -/
def readWord (word : List Char) (value : Json) (s : List Char) : Option (Json × List Char) :=
  if word.isPrefixOf s then some (value, s.drop word.length) else none

mutual

/-- Read a value. `depth` says how many arrays and objects may still open, and `fuel` is at least
twice the length of the text. -/
def readValue (fuel depth : Nat) (s : List Char) : Option (Json × List Char) :=
  match fuel with
  | 0 => none
  | fuel + 1 =>
    match skipBlanks s with
    | '"' :: s =>
      match readString fuel [] s with
      | some (t, s) => some (.text t, s)
      | none => none
    | '[' :: s =>
      match depth with
      | 0 => none
      | depth + 1 =>
        match skipBlanks s with
        | ']' :: s => some (.array [], s)
        | s => readItems fuel depth [] s
    | '\x7b' :: s =>
      match depth with
      | 0 => none
      | depth + 1 =>
        match skipBlanks s with
        | '\x7d' :: s => some (.object [], s)
        | s => readMembers fuel depth [] s
    | 'n' :: s => readWord "ull".toList .null s
    | 't' :: s => readWord "rue".toList (.bool true) s
    | 'f' :: s => readWord "alse".toList (.bool false) s
    | s => readNumber s

/-- Read the items of an array up to its bracket; `acc` holds the items read, in reverse. -/
def readItems (fuel depth : Nat) (acc : List Json) (s : List Char) : Option (Json × List Char) :=
  match fuel with
  | 0 => none
  | fuel + 1 =>
    match readValue fuel depth s with
    | none => none
    | some (x, s) =>
      match skipBlanks s with
      | ',' :: s => readItems fuel depth (x :: acc) s
      | ']' :: s => some (.array (x :: acc).reverse, s)
      | _ => none

/-- Read the members of an object up to its brace. -/
def readMembers (fuel depth : Nat) (acc : List (String × Json)) (s : List Char) :
    Option (Json × List Char) :=
  match fuel with
  | 0 => none
  | fuel + 1 =>
    match skipBlanks s with
    | '"' :: s =>
      match readString fuel [] s with
      | none => none
      | some (key, s) =>
        match skipBlanks s with
        | ':' :: s =>
          match readValue fuel depth s with
          | none => none
          | some (x, s) =>
            match skipBlanks s with
            | ',' :: s => readMembers fuel depth (setMember key x acc) s
            | '\x7d' :: s => some (.object (setMember key x acc), s)
            | _ => none
        | _ => none
    | _ => none

end

/-- Read a whole text as a document that nests at most `depth` deep. -/
def readWithin? (depth : Nat) (text : String) : Option Json :=
  let s := text.toList
  match readValue (2 * s.length + 2) depth s with
  | some (j, rest) => if (skipBlanks rest).isEmpty then some j else none
  | none => none

/-- Read a whole text as a document. -/
def read? (text : String) : Option Json :=
  readWithin? maxDepth text

end EntityQuery.Json

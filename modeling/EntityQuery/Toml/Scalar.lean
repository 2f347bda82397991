import EntityQuery.Calendar.Civil
import EntityQuery.Text.Digits
import EntityQuery.Toml.Datum

/-!
# TOML scalars

Readers of blanks, comments, strings, numbers and dates at the front of a text. Each gives what was
read and the rest of the text.
-/

namespace EntityQuery.Toml

open Text

/-! ## Blanks -/

/-- Whether a character is a blank within a line. -/
def isSpace (c : Char) : Bool :=
  c == ' ' || c == '\t'

/-- Drop the blanks of a line. -/
def skipSpaces (s : List Char) : List Char :=
  s.dropWhile isSpace

/-- Whether a character may stand in a comment and in most strings: a tab, or no control. -/
def isPlain (c : Char) : Bool :=
  c == '\t' || (decide (0x20 ≤ c.toNat) && c.toNat != 0x7F)

/-- Read a line end. -/
def takeNewline? : List Char → Option (List Char)
  | '\n' :: s => some s
  | '\r' :: '\n' :: s => some s
  | _ => none

/-- Drop a comment, if there is one; the line end stays. -/
def skipComment (s : List Char) : List Char :=
  match s with
  | '#' :: s => s.dropWhile isPlain
  | s => s

/-- Read the end of a line or of the text, after blanks and a comment. -/
def takeLineEnd? (s : List Char) : Option (List Char) :=
  match skipComment (skipSpaces s) with
  | [] => some []
  | s => takeNewline? s

/-- Drop blanks, comments and line ends, as they may stand between the items of an array. Every step
takes a character, so `fuel` need only be the length of the text. -/
def skipLines : Nat → List Char → List Char
  | 0, s => s
  | fuel + 1, s =>
    let s := skipSpaces s
    match takeNewline? (skipComment s) with
    | some s => skipLines fuel s
    | none => s

/-! ## Strings -/

/-- Read `n` hexadecimal digits as a number. -/
def takeHex? : Nat → Nat → List Char → Option (Nat × List Char)
  | 0, acc, s => some (acc, s)
  | n + 1, acc, c :: s =>
    if '0' ≤ c ∧ c ≤ '9' then takeHex? n (acc * 16 + (c.toNat - '0'.toNat)) s
    else if 'a' ≤ c ∧ c ≤ 'f' then takeHex? n (acc * 16 + (c.toNat - 'a'.toNat + 10)) s
    else if 'A' ≤ c ∧ c ≤ 'F' then takeHex? n (acc * 16 + (c.toNat - 'A'.toNat + 10)) s
    else none
  | _ + 1, _, [] => none

/-- The character of a code point, if it is one. -/
def charOf? (n : Nat) : Option Char :=
  if n < 0xD800 ∨ (0xE000 ≤ n ∧ n < 0x110000) then some (Char.ofNat n) else none

/-- Read an escape after its backslash. -/
def takeEscape? : List Char → Option (Char × List Char)
  | [] => none
  | c :: s =>
    if c = 'b' then some (Char.ofNat 0x08, s)
    else if c = 't' then some ('\t', s)
    else if c = 'n' then some ('\n', s)
    else if c = 'f' then some (Char.ofNat 0x0C, s)
    else if c = 'r' then some ('\r', s)
    else if c = '"' ∨ c = '\\' then some (c, s)
    else if c = 'u' ∨ c = 'U' then do
      let (n, s) ← takeHex? (if c = 'u' then 4 else 8) 0 s
      return (← charOf? n, s)
    else none

/-- Read a string on one line after its opening double quote. -/
def takeBasic? (fuel : Nat) (acc : List Char) (s : List Char) : Option (String × List Char) :=
  match fuel, s with
  | fuel + 1, c :: s =>
    if c = '"' then some (String.ofList acc.reverse, s)
    else if c = '\\' then
      match takeEscape? s with
      | some (d, s) => takeBasic? fuel (d :: acc) s
      | none => none
    else if isPlain c then takeBasic? fuel (c :: acc) s
    else none
  | _, _ => none

/-- Read a literal string on one line after its opening single quote. -/
def takeLiteral? (s : List Char) : Option (String × List Char) :=
  let body := s.takeWhile fun c => isPlain c && c != '\''
  match s.drop body.length with
  | '\'' :: rest => some (String.ofList body, rest)
  | _ => none

/-- Drop the line end right after an opening delimiter, if there is one. -/
def skipFirstNewline (s : List Char) : List Char :=
  (takeNewline? s).getD s

/-- Drop the line end after a backslash with the blanks and line ends that follow it, if the
backslash ends its line. -/
def takeContinuation? (fuel : Nat) (s : List Char) : Option (List Char) :=
  (takeNewline? (skipSpaces s)).map fun s => skip fuel s
where
  skip : Nat → List Char → List Char
    | 0, s => s
    | fuel + 1, s =>
      match takeNewline? (skipSpaces s) with
      | some s => skip fuel s
      | none => skipSpaces s

/-- Read a string over several lines after its opening delimiter. `quote` is the quote of the
delimiter, and `escapes` says whether backslashes escape. Up to two quotes may stand before the
closing three; a line end is read as a line feed. -/
def takeLong? (quote : Char) (escapes : Bool) (fuel : Nat) (acc : List Char) (s : List Char) :
    Option (String × List Char) :=
  match fuel, s with
  | fuel + 1, c :: s =>
    if c = quote then
      let run := s.takeWhile (· == quote)
      let n := run.length + 1
      let rest := s.drop run.length
      if n < 3 then takeLong? quote escapes fuel (List.replicate n quote ++ acc) rest
      else if n ≤ 5 then
        some (String.ofList (List.replicate (n - 3) quote ++ acc).reverse, rest)
      else none
    else if escapes ∧ c = '\\' then
      match takeContinuation? fuel s with
      | some s => takeLong? quote escapes fuel acc s
      | none =>
        match takeEscape? s with
        | some (d, s) => takeLong? quote escapes fuel (d :: acc) s
        | none => none
    else if isPlain c then takeLong? quote escapes fuel (c :: acc) s
    else
      match takeNewline? (c :: s) with
      | some s => takeLong? quote escapes fuel ('\n' :: acc) s
      | none => none
  | _, _ => none

/-- Read a string of any of the four forms. -/
def takeString? (s : List Char) : Option (String × List Char) :=
  match s with
  | '"' :: '"' :: '"' :: s => takeLong? '"' true (s.length + 1) [] (skipFirstNewline s)
  | '\'' :: '\'' :: '\'' :: s => takeLong? '\'' false (s.length + 1) [] (skipFirstNewline s)
  | '"' :: s => takeBasic? (s.length + 1) [] s
  | '\'' :: s => takeLiteral? s
  | _ => none

/-! ## Numbers -/

/-- Read digits with single underscores between them, after the first digit; `isDigit` says which
characters are digits. -/
def takeMoreDigits (isDigit : Char → Bool) (acc : List Char) : List Char → List Char × List Char
  | '_' :: c :: s =>
    if isDigit c then takeMoreDigits isDigit (c :: acc) s else (acc.reverse, '_' :: c :: s)
  | c :: s => if isDigit c then takeMoreDigits isDigit (c :: acc) s else (acc.reverse, c :: s)
  | [] => (acc.reverse, [])

/-- Read at least one digit, with single underscores between digits. -/
def takeSomeDigits? (isDigit : Char → Bool) : List Char → Option (List Char × List Char)
  | c :: s => if isDigit c then some (takeMoreDigits isDigit [c] s) else none
  | [] => none

/-- Read the digits of a decimal integer, which has no leading zero. -/
def takeDecimal? : List Char → Option (List Char × List Char)
  | '0' :: s => some (['0'], s)
  | s => takeSomeDigits? Char.isDigit s

/-- An integer that fits a signed word. -/
def intOf? (n : Int) : Option Datum :=
  if -0x8000000000000000 ≤ n ∧ n < 0x8000000000000000 then some (.int (Int64.ofInt n)) else none

/-- Read digits of a radix, after its announcement. -/
def takeRadix? (radix : Nat) (s : List Char) : Option (Datum × List Char) := do
  let (ds, rest) ← takeSomeDigits? (fun c => (digitIn? radix c).isSome) s
  let n := ds.foldl (fun n c => n * radix + (digitIn? radix c).getD 0) 0
  return (← intOf? n, rest)
where
  digitIn? (radix : Nat) (c : Char) : Option Nat :=
    (takeHex? 1 0 [c]).bind fun (d, _) => if d < radix then some d else none

/-- Read the part of a float after its point, if there is one. -/
def takeFractionPart? : List Char → Option (Option (List Char) × List Char)
  | '.' :: s => (takeSomeDigits? Char.isDigit s).map fun (ds, rest) => (some ds, rest)
  | s => some (none, s)

/-- Read the exponent of a float, if there is one. -/
def takeExponentPart? : List Char → Option (Option Int × List Char)
  | [] => some (none, [])
  | c :: s =>
    if c = 'e' ∨ c = 'E' then do
      let (negative, s) := takeSign s
      let (ds, rest) ← takeSomeDigits? Char.isDigit s
      return (some (if negative then -(natOfDigits ds : Int) else natOfDigits ds), rest)
    else some (none, c :: s)

/-- Read the name of an infinity or of NaN. -/
def takeSpecial? (negative : Bool) : List Char → Option (Datum × List Char)
  | 'i' :: 'n' :: 'f' :: s => some (.float (.infinite negative), s)
  | 'n' :: 'a' :: 'n' :: s => some (.float .nan, s)
  | _ => none

/-- Read a number. A float that rounds to positive infinity is refused. -/
def takeNumeral? (s : List Char) : Option (Datum × List Char) :=
  match s with
  | '0' :: 'x' :: s => takeRadix? 16 s
  | '0' :: 'o' :: s => takeRadix? 8 s
  | '0' :: 'b' :: s => takeRadix? 2 s
  | s =>
    let (negative, s) := takeSign s
    match takeSpecial? negative s with
    | some r => some r
    | none => do
      let (whole, s) ← takeDecimal? s
      let (fraction, s) ← takeFractionPart? s
      let (exponent, s) ← takeExponentPart? s
      match fraction, exponent with
      | none, none =>
        let n : Int := natOfDigits whole
        return (← intOf? (if negative then -n else n), s)
      | _, _ =>
        let x := Binary64.ofParts negative whole (fraction.getD []) (exponent.getD 0)
        if x = .infinite false then none else some (.float x, s)

/-! ## Dates and times -/

/-- Read a time of day after its hour and colon. -/
def takeTimeRest? (hour : Nat) (s : List Char) : Option ((Nat × Nat × Nat × Nat) × List Char) := do
  let (minute, s) ← Text.takeNumber? 2 s
  let s ← takeChar? ':' s
  let (second, s) ← Text.takeNumber? 2 s
  let (fraction, rest) := match s with
    | '.' :: t => spanDigits t
    | t => ([], t)
  let rest := if fraction.isEmpty then s else rest
  let nanos := natOfDigits (padRight 9 '0' (fraction.take 9))
  if minute < 60 ∧ second ≤ 60 then some ((hour, minute, second, nanos), rest) else none

/-- Read an hour and a colon. -/
def takeHour? (s : List Char) : Option (Nat × List Char) := do
  let (hour, s) ← Text.takeNumber? 2 s
  let s ← takeChar? ':' s
  if hour < 24 then some (hour, s) else none

/-- Read an offset from UTC, if there is one. -/
def takeOffset? : List Char → Option (Option (Option Int) × List Char)
  | [] => some (none, [])
  | c :: s =>
    if c = 'Z' ∨ c = 'z' then some (some none, s)
    else if c = '+' ∨ c = '-' then do
      let (hours, s) ← takeHour? s
      let (minutes, s) ← Text.takeNumber? 2 s
      if 60 ≤ minutes then none
      let offset : Int := hours * 60 + minutes
      return (some (some (if c = '-' then -offset else offset)), s)
    else some (none, c :: s)

/-- Read the time that may follow a date: after `T`, `t` or a space, and with an offset perhaps. -/
def takeDayTime? (date : Nat × Nat × Nat) (s : List Char) : Option (Datum × List Char) :=
  let dateOnly : Datum × List Char := (.dateTime ⟨some date, none, none⟩, s)
  match s with
  | [] => some dateOnly
  | c :: t =>
    if c = 'T' ∨ c = 't' ∨ c = ' ' then
      match takeHour? t with
      | none => some dateOnly
      | some (hour, t) => do
        let (time, t) ← takeTimeRest? hour t
        let (offset, t) ← takeOffset? t
        return (.dateTime ⟨some date, some time, offset⟩, t)
    else some dateOnly

/-- Read a date, with a time perhaps, after its year and hyphen. -/
def takeDateRest? (year : Nat) (s : List Char) : Option (Datum × List Char) := do
  let (month, s) ← Text.takeNumber? 2 s
  let s ← takeChar? '-' s
  let (day, s) ← Text.takeNumber? 2 s
  if (⟨year, month, day⟩ : Calendar.Date).isValid then takeDayTime? (year, month, day) s else none

/-- Read a number, or a date or time: four digits and a hyphen start a date, an hour and a colon a
time. -/
def takeNumeric? (s : List Char) : Option (Datum × List Char) :=
  match Text.takeNumber? 4 s with
  | some (year, '-' :: rest) => takeDateRest? year rest
  | _ =>
    match takeHour? s with
    | some (hour, rest) =>
      (takeTimeRest? hour rest).map fun (time, rest) => (.dateTime ⟨none, some time, none⟩, rest)
    | none => takeNumeral? s

end EntityQuery.Toml

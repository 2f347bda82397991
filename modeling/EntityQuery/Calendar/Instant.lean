import EntityQuery.Calendar.Civil
import EntityQuery.Text.Blank
import EntityQuery.Text.Digits

/-!
# Instants

Points in time as seconds since 1970-01-01T00:00:00Z and nanoseconds of that second, within the
range of dates that can be written. Instants are written and read as Internet timestamps.

A leap second is the second before it, a second 59, with a nanosecond count of at least `10^9`. The
type allows such a count behind any second, as one gets by setting the nanoseconds of an instant. No
clock shows that time of day: it is written as the second after it, and nothing that makes an
instant of seconds and nanoseconds (`Instant.of?`) or of a text makes one.
-/

namespace EntityQuery

open Text Calendar

/-! ## The type -/

/-- Seconds in a day. -/
def Calendar.daySeconds : Int := 86400

/-- The first second in range: the start of year -262143. -/
abbrev Instant.firstSecond : Int := -8334601228800

/-- The last second in range: the end of year 262142. -/
abbrev Instant.lastSecond : Int := 8210266876799

/-- A point in time. -/
structure Instant where
  seconds : Int
  nanos : Nat
  nanos_lt : nanos < 2000000000
  first_le : Instant.firstSecond ≤ seconds
  le_last : seconds ≤ Instant.lastSecond
deriving DecidableEq

namespace Instant

/-- The instant of a second and nanosecond count, if there is one that a clock shows. -/
def of? (seconds : Int) (nanos : Nat) : Option Instant :=
  if h : nanos < 2000000000 ∧ (1000000000 ≤ nanos → seconds % 60 = 59) ∧ firstSecond ≤ seconds ∧
      seconds ≤ lastSecond then
    some ⟨seconds, nanos, h.1, h.2.2.1, h.2.2.2⟩
  else none

/-- The instant of a count of milliseconds since 1970, if it is in range. -/
def ofMillis? (ms : Int) : Option Instant :=
  of? (ms / 1000) ((ms % 1000).toNat * 1000000)

/-- Whole milliseconds since 1970; nanoseconds from `10^9` on count on beyond the second. -/
def toMillis (t : Instant) : Int :=
  t.seconds * 1000 + (t.nanos / 1000000 : Nat)

/-! ## Writing -/

/-- A year: four digits, and a sign before years outside 0 to 9999. -/
def yearChars (year : Int) : List Char :=
  if 0 ≤ year ∧ year ≤ 9999 then fixedDigits 4 year.toNat
  else (if year < 0 then '-' else '+') :: fixedDigits 4 year.natAbs

/-- The calendar date of a count of seconds. -/
def dateOf (seconds : Int) : Date :=
  .ofDays (seconds / daySeconds)

/-- The second of its day of a count of seconds. -/
def secondOfDay (seconds : Int) : Nat :=
  (seconds % daySeconds).toNat

/-- Whether the nanoseconds of an instant run on beyond its second, as they do in a leap second. -/
def overruns (t : Instant) : Bool :=
  decide (1000000000 ≤ t.nanos)

/-- The timestamp of an instant with three decimals, the rest cut off. Nanoseconds that run on are
written as those of the next second, which is second 60 for a leap second. -/
def isoChars (t : Instant) : List Char :=
  let d := dateOf t.seconds
  let s := secondOfDay t.seconds
  yearChars d.year ++ '-' :: fixedDigits 2 d.month ++ '-' :: fixedDigits 2 d.day ++
    'T' :: fixedDigits 2 (s / 3600) ++ ':' :: fixedDigits 2 (s / 60 % 60) ++
    ':' :: fixedDigits 2 (s % 60 + if t.overruns then 1 else 0) ++
    '.' :: fixedDigits 3 (t.nanos % 1000000000 / 1000000) ++ ['Z']

/-- The timestamp of an instant. -/
def isoText (t : Instant) : String :=
  String.ofList t.isoChars

end Instant

/-! ## Reading -/

/-- The fields of a timestamp as written, and the letter between date and time. -/
structure Stamp where
  year : Nat
  month : Nat
  day : Nat
  separator : Char
  hour : Nat
  minute : Nat
  second : Nat

namespace Stamp

/-- Read `yyyy-mm-dd`, one character, and `hh:mm:ss` from the front of a text. -/
def take? (s : List Char) : Option (Stamp × List Char) := do
  let (year, s) ← takeNumber? 4 s
  let s ← takeChar? '-' s
  let (month, s) ← takeNumber? 2 s
  let s ← takeChar? '-' s
  let (day, s) ← takeNumber? 2 s
  let (separator, s) ← match s with
    | c :: s => some (c, s)
    | [] => none
  let (hour, s) ← takeNumber? 2 s
  let s ← takeChar? ':' s
  let (minute, s) ← takeNumber? 2 s
  let s ← takeChar? ':' s
  let (second, s) ← takeNumber? 2 s
  return (⟨year, month, day, separator, hour, minute, second⟩, s)

/-- Whether the fields name a date and a time of day; second 60 is a leap second. -/
def isValid (t : Stamp) : Bool :=
  Date.isValid ⟨t.year, t.month, t.day⟩ && decide (t.hour < 24) && decide (t.minute < 60) &&
    decide (t.second ≤ 60)

/-- The instant of the fields with nanoseconds, read at an offset of some minutes from UTC. -/
def toInstant? (t : Stamp) (nanos : Nat) (offset : Int) : Option Instant :=
  if t.isValid then
    let days := Date.toDays ⟨t.year, t.month, t.day⟩
    let ofDay : Nat := t.hour * 3600 + t.minute * 60 + min t.second 59
    Instant.of? (days * daySeconds + ofDay - offset * 60)
      (if t.second = 60 then nanos + 1000000000 else nanos)
  else none

end Stamp

/-- The nanoseconds of a run of decimals: the first nine count. -/
def nanosOfDigits (ds : List Char) : Nat :=
  natOfDigits (padRight 9 '0' (ds.take 9))

/-- Read a point and at least one digit from the front of a text. -/
def takeFraction? (s : List Char) : Option (Nat × List Char) :=
  match s with
  | '.' :: s =>
    let (ds, rest) := spanDigits s
    if ds.isEmpty then none else some (nanosOfDigits ds, rest)
  | _ => none

/-- Read an offset that ends the text: `Z`, or a sign with hours and minutes. -/
def readOffset? : List Char → Option Int
  | [] => none
  | c :: s =>
    if c = 'Z' ∨ c = 'z' then if s.isEmpty then some 0 else none
    else do
      let sign : Int ←
        if c = '+' then some 1
        else if c = '-' ∨ c = Char.ofNat 0x2212 then some (-1)
        else none
      let (hours, s) ← takeNumber? 2 s
      let s ← takeChar? ':' s
      let (minutes, s) ← takeNumber? 2 s
      if s.isEmpty ∧ hours < 24 ∧ minutes < 60 then some (sign * (hours * 60 + minutes)) else none

namespace Instant

/-- Read an Internet timestamp: `T`, `t` or a space between date and time, decimals if any, and an
offset. -/
def ofTimestamp? (s : List Char) : Option Instant := do
  let (stamp, s) ← Stamp.take? s
  if stamp.separator = 'T' ∨ stamp.separator = 't' ∨ stamp.separator = ' ' then
    let (nanos, s) ← match s with
      | '.' :: _ => takeFraction? s
      | _ => some (0, s)
    let offset ← readOffset? s
    stamp.toInstant? nanos offset
  else none

/-- Read the inside of a date literal: a timestamp with `T`, decimals and `Z`, in either case. -/
def ofLiteralBody? (s : List Char) : Option Instant := do
  let (stamp, s) ← Stamp.take? s
  let (nanos, s) ← takeFraction? s
  if (stamp.separator = 'T' ∨ stamp.separator = 't') ∧ (s = ['Z'] ∨ s = ['z']) then
    stamp.toInstant? nanos 0
  else none

/-- Read digits from the front of a text, at least one and at most `most` of them. -/
def takeUpTo? (most : Nat) (s : List Char) : Option (Nat × List Char) :=
  let ds := (s.take most).takeWhile Char.isDigit
  if ds.isEmpty then none else some (natOfDigits ds, s.drop ds.length)

/-- Read a year: one to four digits, or a sign and any number of digits. -/
def takeYear? : List Char → Option (Int × List Char)
  | [] => none
  | c :: s =>
    if c = '-' then (takeUpTo? s.length s).map fun (y, rest) => (-(y : Int), rest)
    else if c = '+' then (takeUpTo? s.length s).map fun (y, rest) => ((y : Int), rest)
    else (takeUpTo? 4 (c :: s)).map fun (y, rest) => ((y : Int), rest)

/-- Read a bare date as midnight UTC: a year, and a month and a day of one or two digits. White
space may stand before each number. -/
def ofBareDate? (s : List Char) : Option Instant := do
  let (year, s) ← takeYear? (s.dropWhile isBlank)
  let s ← takeChar? '-' s
  let (month, s) ← takeUpTo? 2 (s.dropWhile isBlank)
  let s ← takeChar? '-' s
  let (day, s) ← takeUpTo? 2 (s.dropWhile isBlank)
  let date : Date := ⟨year, month, day⟩
  if s.isEmpty ∧ date.isValid then of? (date.toDays * daySeconds) 0 else none

/-- Read loose text as an instant: a timestamp or a bare date, with white space around it ignored. -/
def ofText? (text : String) : Option Instant :=
  let s := trim text.toList
  (ofTimestamp? s).orElse fun _ => ofBareDate? s

end Instant

end EntityQuery

import EntityQuery.Calendar.Zone
import EntityQuery.Local.Error

/-!
# Dates as people write them

Local dates `dd/mm/yyyy`, with `hh:mm` after them when the time counts. Fields out of range are
refused, so a mistyped day never becomes another date.
-/

namespace EntityQuery

open Text Calendar

/-- The fields of a local date as written. -/
structure LocalFields where
  day : Nat
  month : Nat
  year : Nat
  time : Option (Nat × Nat)
deriving DecidableEq

/-- Read digits that end at `stop`, one or two of them. -/
def takeShort? (stop : Char) (s : List Char) : Option (Nat × List Char) :=
  let (ds, rest) := spanDigits s
  if ds.length = 1 ∨ ds.length = 2 then (takeChar? stop rest).map fun rest => (natOfDigits ds, rest)
  else none

/-- Read the time part of a local date: ASCII blanks, hour, colon and a two-digit minute, or
nothing at all. -/
def readTime? (s : List Char) : Option (Option (Nat × Nat)) :=
  match s with
  | [] => some none
  | c :: _ =>
    if isAsciiBlank c then do
      let (hour, s) ← takeShort? ':' (s.dropWhile isAsciiBlank)
      let (minute, s) ← takeNumber? 2 s
      if s.isEmpty then some (some (hour, minute)) else none
    else none

/-- Read the fields of a local date. -/
def LocalFields.read? (s : List Char) : Option LocalFields := do
  let (day, s) ← takeShort? '/' s
  let (month, s) ← takeShort? '/' s
  let (year, s) ← takeNumber? 4 s
  let time ← readTime? s
  return ⟨day, month, year, time⟩

/-- The instant of a local date at some time of day, if the date exists and the wall clock shows
that time on it. -/
def LocalFields.at? (f : LocalFields) (hour minute : Nat) : Option Instant := do
  let date : Date := ⟨f.year, f.month, f.day⟩
  if date.isValid ∧ hour < 24 ∧ minute < 60 then
    let wall := dayStart date.toDays + ((hour * 3600 + minute * 60 : Nat) : Int)
    let seconds ← ofWallClock? date.year wall
    Instant.of? seconds 0
  else none

/-- Read a local date. With `hasTime` the time part is required; without it a time part is allowed
and ignored, and the result is local midnight. -/
def parseDate (text : String) (hasTime : Bool) : Except TextError Instant :=
  match LocalFields.read? text.toList with
  | none => .error (.dateFormat text)
  | some f =>
    match hasTime, f.time with
    | true, none => .error (.dateFormat text)
    | true, some (hour, minute) =>
      match f.at? hour minute with
      | some t => .ok t
      | none => .error (.noSuchDate text)
    | false, _ =>
      match f.at? 0 0 with
      | some t => .ok t
      | none => .error (.noSuchDate text)

/-- A local date for people, with hours and minutes when the time counts. -/
def localText (hasTime : Bool) (t : Instant) : String :=
  let wall := wallClock t.seconds
  let d := Instant.dateOf wall
  let s := Instant.secondOfDay wall
  let date := fixedDigits 2 d.day ++ '/' :: fixedDigits 2 d.month ++ '/' :: Instant.yearChars d.year
  let time := ' ' :: fixedDigits 2 (s / 3600) ++ ':' :: fixedDigits 2 (s / 60 % 60)
  String.ofList (if hasTime then date ++ time else date)

end EntityQuery

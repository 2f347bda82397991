import EntityQuery.Calendar.Instant

/-!
# Local time

The local zone: one hour ahead of UTC, two hours in summer. Summer time runs, in every year, from
01:00 UTC on the last Sunday of March up to 01:00 UTC on the last Sunday of October. A wall clock
skips the hour after 02:00 in March and repeats the one after 02:00 in October.
-/

namespace EntityQuery.Calendar

/-- The second at which a day starts. -/
def dayStart (day : Int) : Int :=
  day * daySeconds

/-- The second, in UTC, at which summer time starts in a year. -/
def summerStart (year : Int) : Int :=
  dayStart (lastSunday year 3) + 3600

/-- The second, in UTC, at which summer time ends in a year. -/
def summerEnd (year : Int) : Int :=
  dayStart (lastSunday year 10) + 3600

/-- How far the wall clock is ahead of UTC at a second, in seconds. -/
def offsetAt (seconds : Int) : Int :=
  let year := (Instant.dateOf seconds).year
  if summerStart year ≤ seconds ∧ seconds < summerEnd year then 7200 else 3600

/-- The wall clock at a second, as seconds since 1970 on the clock. -/
def wallClock (seconds : Int) : Int :=
  seconds + offsetAt seconds

/-- The first second at which the wall clock of a year shows a time, if it ever does: the times
strictly between 02:00 and 03:00 of the March change are skipped, and the repeated hour in October
is read as the later one, which is an hour ahead of UTC. -/
def ofWallClock? (year : Int) (wall : Int) : Option Int :=
  let spring := dayStart (lastSunday year 3)
  let autumn := dayStart (lastSunday year 10)
  if wall ≤ spring + 7200 then some (wall - 3600)
  else if wall < spring + 10800 then none
  else if wall < autumn + 7200 then some (wall - 7200)
  else some (wall - 3600)

end EntityQuery.Calendar

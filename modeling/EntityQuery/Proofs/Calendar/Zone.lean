import EntityQuery.Calendar.Zone
import EntityQuery.Proofs.Calendar.Civil
import Mathlib.Tactic.ByContra
import Mathlib.Tactic.SplitIfs

/-!
# Wall clocks

What the wall clock shows determines the second, but for the hour that is repeated in October, of
which the later one is taken (`ofWallClock?_minute`). Every local day starts on the clock, at the
first second of the day (`ofWallClock?_dayStart`). The times that the clock skips are those strictly
between 02:00 and 03:00 on the last Sunday of March (`ofWallClock?_eq_none_iff`,
`isSpringChange_iff`); 02:00 itself is read as the moment of the change, at which the clock shows
03:00.

Both changes of the clock lie well inside a year, and the clock is never more than two hours ahead
of UTC, so the year on the clock decides about summer time as well as the year in UTC does
(`offsetAt_eq`). Everything else is linear arithmetic in the days of the two changes.
-/

namespace EntityQuery.Calendar

open Instant (dateOf)

/-! ## Years and the Sundays of the changes -/

theorem year_ofDays (days : Int) : (Date.ofDays days).year = yearOf (days + epochDays) := rfl

/-- The last Sundays of March and October, as days of their year. -/
theorem lastSunday_bounds (year : Int) :
    daysBeforeYear year + 83 ≤ lastSunday year 3 + epochDays ∧
      lastSunday year 3 + 200 ≤ lastSunday year 10 ∧
      lastSunday year 10 + epochDays + 60 ≤ daysBeforeYear (year + 1) := by
  have hnext := daysBeforeYear_succ year
  have hmarch : (⟨year, 3, 31⟩ : Date).toDays =
      daysBeforeYear year + (yearLength year - 276 : Int) - epochDays := by
    unfold yearLength Date.toDays Date.dayOfYear monthLengths
    cases isLeap year <;> rfl
  have hoctober : (⟨year, 10, 31⟩ : Date).toDays =
      daysBeforeYear year + (yearLength year - 62 : Int) - epochDays := by
    unfold yearLength Date.toDays Date.dayOfYear monthLengths
    cases isLeap year <;> rfl
  have hlength : yearLength year = 365 ∨ yearLength year = 366 := by
    unfold yearLength
    split
    · exact Or.inr rfl
    · exact Or.inl rfl
  unfold lastSunday
  rw [hmarch, hoctober]
  dsimp only
  omega

/-- The second at which a year starts in UTC. -/
def yearStart (year : Int) : Int :=
  dayStart (daysBeforeYear year - epochDays)

theorem year_dateOf (seconds : Int) :
    yearStart (dateOf seconds).year ≤ seconds ∧ seconds < yearStart ((dateOf seconds).year + 1) := by
  have hspec := yearOf_spec (seconds / daySeconds + epochDays)
  rw [dateOf, year_ofDays]
  unfold yearStart dayStart
  unfold daySeconds at hspec ⊢
  omega

/-- The year on the clock: two hours ahead of UTC at the most, so at the end of a year it may be the
next one. -/
theorem year_dateOf_of_near {year seconds : Int} (hlow : yearStart year - 7200 ≤ seconds)
    (hhigh : seconds < yearStart (year + 1)) :
    (dateOf seconds).year = year ∨
      ((dateOf seconds).year = year - 1 ∧ seconds < yearStart year) := by
  obtain ⟨hstart, hend⟩ := year_dateOf seconds
  have hle : (dateOf seconds).year < year + 1 := by
    by_contra hnot
    have hmono := daysBeforeYear_mono (Int.not_lt.mp hnot)
    unfold yearStart dayStart daySeconds at hhigh hstart
    omega
  have hge : year - 1 < (dateOf seconds).year + 1 := by
    by_contra hnot
    have hmono := daysBeforeYear_mono (Int.not_lt.mp hnot)
    have hprevious := daysBeforeYear_lt_iff.mpr (show year - 1 < year by omega)
    unfold yearStart dayStart daySeconds at hlow hend
    omega
  by_cases hyear : (dateOf seconds).year = year
  · exact Or.inl hyear
  · have hprevious : (dateOf seconds).year + 1 = year := by omega
    rw [hprevious] at hend
    exact Or.inr ⟨by omega, hend⟩

/-! ## The offset by the year on the clock -/

/-- The last two hours of a year, in UTC, are winter in that year and in the next one. -/
theorem winter_of_before {year seconds : Int} (hlow : yearStart year - 7200 ≤ seconds)
    (hbefore : seconds < yearStart year) :
    summerEnd (year - 1) ≤ seconds ∧ seconds < dayStart (lastSunday year 3) ∧
      seconds < dayStart (lastSunday year 10) := by
  have hthis := lastSunday_bounds year
  have hlast := lastSunday_bounds (year - 1)
  rw [Int.sub_add_cancel] at hlast
  unfold summerEnd yearStart dayStart daySeconds at *
  omega

theorem offsetAt_cases (seconds : Int) : offsetAt seconds = 3600 ∨ offsetAt seconds = 7200 := by
  unfold offsetAt
  dsimp only
  split
  · exact Or.inr rfl
  · exact Or.inl rfl

theorem offsetAt_eq {year seconds : Int} (hlow : yearStart year - 7200 ≤ seconds)
    (hhigh : seconds < yearStart (year + 1)) :
    offsetAt seconds =
      if summerStart year ≤ seconds ∧ seconds < summerEnd year then 7200 else 3600 := by
  rcases year_dateOf_of_near hlow hhigh with hyear | ⟨hyear, hbefore⟩
  · rw [offsetAt, hyear]
  · obtain ⟨hend, hstart, -⟩ := winter_of_before hlow hbefore
    rw [offsetAt, hyear]
    unfold summerStart
    rw [if_neg (by omega), if_neg (by omega)]

/-- The hour from 00:00 UTC on the last Sunday of October, the last one of summer time: the wall
clock shows it for the first time of two. -/
def Repeated (seconds : Int) : Prop :=
  let sunday := dayStart (lastSunday (dateOf seconds).year 10)
  sunday ≤ seconds ∧ seconds < sunday + 3600

instance (seconds : Int) : Decidable (Repeated seconds) :=
  inferInstanceAs (Decidable (_ ∧ _))

theorem repeated_iff {year seconds : Int} (hlow : yearStart year - 7200 ≤ seconds)
    (hhigh : seconds < yearStart (year + 1)) :
    Repeated seconds ↔ dayStart (lastSunday year 10) ≤ seconds ∧
      seconds < dayStart (lastSunday year 10) + 3600 := by
  rcases year_dateOf_of_near hlow hhigh with hyear | ⟨hyear, hbefore⟩
  · rw [Repeated, hyear]
  · obtain ⟨hend, -, hautumn⟩ := winter_of_before hlow hbefore
    rw [Repeated, hyear]
    unfold summerEnd at hend
    omega

/-! ## From the clock to the second -/

/-- The day on the clock. -/
def localDay (seconds : Int) : Int :=
  wallClock seconds / daySeconds

/-- The year on the clock. -/
def localYear (seconds : Int) : Int :=
  (dateOf (wallClock seconds)).year

/-- A second lies in its year on the clock, or in the two hours before it. -/
theorem localYear_bounds (seconds : Int) :
    yearStart (localYear seconds) - 7200 ≤ seconds ∧
      seconds < yearStart (localYear seconds + 1) := by
  have hyear := year_dateOf (wallClock seconds)
  rw [← localYear] at hyear
  unfold wallClock at hyear
  have hoffset := offsetAt_cases seconds
  omega

/-- The times on the clock that a year reads in winter and in summer. -/
theorem ofWallClock?_eq_some_iff {year wall seconds : Int} :
    ofWallClock? year wall = some seconds ↔
      (seconds = wall - 3600 ∧ (wall ≤ dayStart (lastSunday year 3) + 7200 ∨
        dayStart (lastSunday year 10) + 7200 ≤ wall)) ∨
      (seconds = wall - 7200 ∧ dayStart (lastSunday year 3) + 10800 ≤ wall ∧
        wall < dayStart (lastSunday year 10) + 7200) := by
  have hsundays := lastSunday_bounds year
  unfold ofWallClock? dayStart daySeconds
  dsimp only
  split_ifs
  · rw [Option.some.injEq]
    omega
  · refine iff_of_false nofun ?_
    omega
  · rw [Option.some.injEq]
    omega
  · rw [Option.some.injEq]
    omega

/-- Reading the wall clock is right wherever it gives a second, but for the start of the hour that
is skipped: 02:00 is never shown then. -/
theorem wallClock_ofWallClock? {wall seconds : Int}
    (h : ofWallClock? (dateOf wall).year wall = some seconds)
    (hskipped : wall ≠ dayStart (lastSunday (dateOf wall).year 3) + 7200) :
    wallClock seconds = wall := by
  obtain ⟨hstart, hend⟩ := year_dateOf wall
  rw [ofWallClock?_eq_some_iff] at h
  have hoffset := @offsetAt_eq (dateOf wall).year seconds (by omega) (by omega)
  rw [wallClock, hoffset]
  unfold summerStart summerEnd
  split_ifs <;> omega

/-- **Reading the minute on the clock** gives the start of that minute, an hour later where the clock
shows the minute for the first time of two. -/
theorem ofWallClock?_minute (seconds : Int) :
    ofWallClock? (localYear seconds) (wallClock seconds - seconds % 60) =
      some (seconds - seconds % 60 + if Repeated seconds then 3600 else 0) := by
  obtain ⟨hlow, hhigh⟩ := localYear_bounds seconds
  have hsundays := lastSunday_bounds (localYear seconds)
  have hrepeated := repeated_iff hlow hhigh
  have hoffset := offsetAt_eq hlow hhigh
  rw [ofWallClock?_eq_some_iff, wallClock, hoffset]
  simp only [hrepeated]
  unfold summerStart summerEnd dayStart daySeconds
  split_ifs <;> omega

theorem minute_div_daySeconds (seconds : Int) :
    (wallClock seconds - seconds % 60) / daySeconds = localDay seconds := by
  have hoffset := offsetAt_cases seconds
  unfold localDay wallClock daySeconds
  omega

/-- The minute that is read is shown as it was. -/
theorem wallClock_minute (seconds : Int) :
    wallClock (seconds - seconds % 60 + if Repeated seconds then 3600 else 0) =
      wallClock seconds - seconds % 60 := by
  obtain ⟨hlow, hhigh⟩ := localYear_bounds seconds
  have hsundays := lastSunday_bounds (localYear seconds)
  have hoffset := offsetAt_eq hlow hhigh
  have hyear : (dateOf (wallClock seconds - seconds % 60)).year = localYear seconds := by
    rw [dateOf, minute_div_daySeconds]
    rfl
  refine wallClock_ofWallClock? ?_ ?_
  · rw [hyear]
    exact ofWallClock?_minute seconds
  · -- the clock never shows 02:00 on the day of the March change
    rw [hyear, wallClock, hoffset]
    unfold summerStart summerEnd dayStart daySeconds
    split_ifs <;> omega

/-- **Reading the start of a day on the clock** gives the first second of that day. -/
theorem ofWallClock?_dayStart (day : Int) :
    ∃ start, ofWallClock? (Date.ofDays day).year (dayStart day) = some start ∧
      wallClock start = dayStart day ∧ ∀ seconds, localDay seconds = day → start ≤ seconds := by
  have hday : dayStart day / daySeconds = day := by
    unfold dayStart daySeconds
    omega
  have hyear : (dateOf (dayStart day)).year = (Date.ofDays day).year := by
    rw [dateOf, hday]
  -- no day starts in the hour that is skipped
  have hread : ∃ start, ofWallClock? (Date.ofDays day).year (dayStart day) = some start := by
    simp only [ofWallClock?_eq_some_iff]
    by_cases hsummer : lastSunday (Date.ofDays day).year 3 < day ∧
        day ≤ lastSunday (Date.ofDays day).year 10
    · refine ⟨_, Or.inr ⟨rfl, ?_⟩⟩
      unfold dayStart daySeconds
      omega
    · refine ⟨_, Or.inl ⟨rfl, ?_⟩⟩
      unfold dayStart daySeconds
      omega
  obtain ⟨start, hstart⟩ := hread
  refine ⟨start, hstart, ?_, ?_⟩
  · refine wallClock_ofWallClock? (hyear ▸ hstart) ?_
    unfold dayStart daySeconds
    omega
  · intro seconds hseconds
    have hsame : localYear seconds = (Date.ofDays day).year := by
      rw [← hseconds]
      rfl
    obtain ⟨hlow, hhigh⟩ := localYear_bounds seconds
    rw [hsame] at hlow hhigh
    have hsundays := lastSunday_bounds (Date.ofDays day).year
    have hoffset := offsetAt_eq hlow hhigh
    rw [ofWallClock?_eq_some_iff] at hstart
    rw [localDay, wallClock, hoffset] at hseconds
    unfold summerStart summerEnd dayStart daySeconds at *
    split_ifs at hseconds <;> omega

/-! ## The change in March -/

/-- The day of the change in March: its last Sunday. The Sundays are the days that leave 3 when they
are divided by 7, since day 0 was a Thursday. -/
def Date.IsSpringChange (d : Date) : Prop :=
  d.month = 3 ∧ 25 ≤ d.day ∧ d.toDays % 7 = 3

instance (d : Date) : Decidable d.IsSpringChange :=
  inferInstanceAs (Decidable (_ ∧ _))

theorem toDays_march (year : Int) {day : Nat} (h : 1 ≤ day) :
    (⟨year, 3, day⟩ : Date).toDays = (⟨year, 3, 31⟩ : Date).toDays - (31 - day) := by
  unfold Date.toDays Date.dayOfYear
  dsimp only
  omega

theorem isSpringChange_iff {d : Date} (h : d.IsGregorian) :
    d.IsSpringChange ↔ d.toDays = lastSunday d.year 3 := by
  obtain ⟨year, month, day⟩ := d
  unfold lastSunday
  dsimp only
  constructor
  · rintro ⟨hmonth, hday, hsunday⟩
    obtain ⟨-, -, -, hlast⟩ := h
    obtain rfl : month = 3 := hmonth
    have hmarch := @toDays_march year day (Nat.le_trans (by decide) hday)
    have hlength : day ≤ 31 := by simpa using hlast
    dsimp only at hday hsunday
    omega
  · intro hsunday
    -- the Sunday is a date of March, so it is this date
    obtain ⟨k, hk, hklt⟩ : ∃ k : Nat, ((⟨year, 3, 31⟩ : Date).toDays + 4) % 7 = k ∧ k < 7 :=
      ⟨(((⟨year, 3, 31⟩ : Date).toDays + 4) % 7).toNat, by omega, by omega⟩
    have hmarch := @toDays_march year (31 - k) (by omega)
    have hvalid : (⟨year, 3, 31 - k⟩ : Date).IsGregorian := by
      refine ⟨show 1 ≤ 3 by decide, show 3 ≤ 12 by decide, ?_, Nat.sub_le 31 k⟩
      dsimp only
      omega
    have hsame : (⟨year, month, day⟩ : Date) = ⟨year, 3, 31 - k⟩ := by
      refine Date.toDays_injective (Date.isValid_iff.mpr h) (Date.isValid_iff.mpr hvalid) ?_
      omega
    obtain ⟨-, rfl, rfl⟩ := Date.mk.inj hsame
    refine ⟨rfl, ?_, ?_⟩
    · dsimp only
      omega
    · omega

/-- The times that the wall clock of a year never shows. -/
theorem ofWallClock?_eq_none_iff {year wall : Int} :
    ofWallClock? year wall = none ↔ dayStart (lastSunday year 3) + 7200 < wall ∧
      wall < dayStart (lastSunday year 3) + 10800 := by
  unfold ofWallClock?
  dsimp only
  split_ifs
  · refine iff_of_false nofun ?_
    omega
  · refine iff_of_true rfl ?_
    omega
  · refine iff_of_false nofun ?_
    omega
  · refine iff_of_false nofun ?_
    omega

/-- The time at which the clock is put forward is read as that moment, and shown an hour later. -/
theorem wallClock_springChange {wall seconds : Int}
    (h : ofWallClock? (dateOf wall).year wall = some seconds)
    (hchange : wall = dayStart (lastSunday (dateOf wall).year 3) + 7200) :
    wallClock seconds = wall + 3600 := by
  obtain ⟨hstart, hend⟩ := year_dateOf wall
  have hsundays := lastSunday_bounds (dateOf wall).year
  rw [ofWallClock?_eq_some_iff] at h
  have hoffset := @offsetAt_eq (dateOf wall).year seconds (by omega) (by omega)
  rw [wallClock, hoffset]
  unfold summerStart summerEnd
  unfold dayStart daySeconds at *
  split_ifs <;> omega

/-- The time that is read is shown on its day. -/
theorem dateOf_ofWallClock? {wall seconds : Int}
    (h : ofWallClock? (dateOf wall).year wall = some seconds) :
    dateOf (wallClock seconds) = dateOf wall := by
  by_cases hchange : wall = dayStart (lastSunday (dateOf wall).year 3) + 7200
  · have hday : (wall + 3600) / daySeconds = wall / daySeconds := by
      unfold dayStart daySeconds at *
      omega
    rw [wallClock_springChange h hchange, dateOf, dateOf, hday]
  · rw [wallClock_ofWallClock? h hchange]

/-- Of two seconds that the clock shows alike the later one is read. -/
theorem le_of_ofWallClock? {wall seconds other : Int}
    (h : ofWallClock? (dateOf wall).year wall = some seconds)
    (hother : wallClock other = wallClock seconds) : other ≤ seconds := by
  obtain ⟨hstart, hend⟩ := year_dateOf wall
  have hsundays := lastSunday_bounds (dateOf wall).year
  have hyear : localYear other = (dateOf wall).year := by
    rw [localYear, hother, dateOf_ofWallClock? h]
  obtain ⟨hlow, hhigh⟩ := localYear_bounds other
  rw [hyear] at hlow hhigh
  have hoffset := offsetAt_eq hlow hhigh
  rw [ofWallClock?_eq_some_iff] at h
  have hoffset' := @offsetAt_eq (dateOf wall).year seconds (by omega) (by omega)
  rw [wallClock, wallClock, hoffset, hoffset'] at hother
  unfold summerStart summerEnd at hother
  unfold dayStart daySeconds at *
  split_ifs at hother <;> omega

end EntityQuery.Calendar

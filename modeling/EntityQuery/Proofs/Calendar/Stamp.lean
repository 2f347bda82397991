import EntityQuery.Proofs.Calendar.Timestamp
import EntityQuery.Proofs.Text.Fields
import Mathlib.Tactic.ByContra
import Mathlib.Tactic.SplitIfs

/-!
# Timestamps as they are written

The inside of a date literal is read if it is a timestamp with a date of the calendar and a time of
day (`ofLiteralBody?_eq_some_iff`, `exists_toInstant?`). The instant keeps every field: its own
timestamp has the same digits, and the first three decimals (`isoChars_of_toInstant?`). For a field
of fixed width is known by its value, and the values come back from the seconds of the instant,
which split into days, hours, minutes and seconds in one way only. Second 60 counts as second 59
with a whole second in the nanoseconds.
-/

namespace EntityQuery

open Text Calendar

/-! ## The fields -/

/-- The digits of a timestamp up to the seconds, field by field. -/
structure WrittenFields where
  year : List Char
  month : List Char
  day : List Char
  hour : List Char
  minute : List Char
  second : List Char
  year_digits : IsDigits 4 4 year
  month_digits : IsDigits 2 2 month
  day_digits : IsDigits 2 2 day
  hour_digits : IsDigits 2 2 hour
  minute_digits : IsDigits 2 2 minute
  second_digits : IsDigits 2 2 second

namespace WrittenFields

/-- `yyyy-mm-dd`, a character, and `hh:mm:ss`. -/
def chars (w : WrittenFields) (separator : Char) : List Char :=
  w.year ++ '-' :: (w.month ++ '-' :: (w.day ++ separator ::
    (w.hour ++ ':' :: (w.minute ++ ':' :: w.second))))

/-- The values of the fields. -/
def stamp (w : WrittenFields) (separator : Char) : Stamp :=
  ⟨natOfDigits w.year, natOfDigits w.month, natOfDigits w.day, separator, natOfDigits w.hour,
    natOfDigits w.minute, natOfDigits w.second⟩

/-- The date of the fields. -/
def date (w : WrittenFields) : Date :=
  ⟨natOfDigits w.year, natOfDigits w.month, natOfDigits w.day⟩

/-- Whether the fields are a date of the calendar and a time of day, leap seconds included. -/
def IsValid (w : WrittenFields) : Prop :=
  w.date.IsGregorian ∧ natOfDigits w.hour ≤ 23 ∧ natOfDigits w.minute ≤ 59 ∧
    natOfDigits w.second ≤ 60

instance (w : WrittenFields) : Decidable w.IsValid :=
  inferInstanceAs (Decidable (_ ∧ _))

theorem take?_chars (w : WrittenFields) (separator : Char) (rest : List Char) :
    Stamp.take? (w.chars separator ++ rest) = some (w.stamp separator, rest) := by
  simp only [chars, List.append_assoc, List.cons_append, Stamp.take?,
    takeNumber?_append w.year_digits, takeNumber?_append w.month_digits,
    takeNumber?_append w.day_digits, takeNumber?_append w.hour_digits,
    takeNumber?_append w.minute_digits, takeNumber?_append w.second_digits, takeChar?_self,
    Option.bind_eq_bind, Option.bind_some]
  rfl

theorem exists_of_take? {s rest : List Char} {stamp : Stamp}
    (h : Stamp.take? s = some (stamp, rest)) :
    ∃ w : WrittenFields, w.stamp stamp.separator = stamp ∧ s = w.chars stamp.separator ++ rest := by
  simp only [Stamp.take?, Option.bind_eq_bind, Option.bind_eq_some_iff] at h
  obtain ⟨⟨_, _⟩, hyear, _, hdash, ⟨_, _⟩, hmonth, _, hdash', ⟨_, s⟩, hday, htime⟩ := h
  cases s with
  | nil => cases htime
  | cons separator s =>
    simp only [Option.bind_some, Option.bind_eq_some_iff] at htime
    obtain ⟨⟨_, _⟩, hhour, _, hcolon, ⟨_, _⟩, hminute, _, hcolon', ⟨_, _⟩, hsecond, hst⟩ := htime
    cases hst
    obtain ⟨year, hy, rfl, rfl⟩ := takeNumber?_eq_some_iff.mp hyear
    obtain rfl := takeChar?_eq_some_iff.mp hdash
    obtain ⟨month, hm, rfl, rfl⟩ := takeNumber?_eq_some_iff.mp hmonth
    obtain rfl := takeChar?_eq_some_iff.mp hdash'
    obtain ⟨day, hd, rfl, rfl⟩ := takeNumber?_eq_some_iff.mp hday
    obtain ⟨hour, hh, rfl, rfl⟩ := takeNumber?_eq_some_iff.mp hhour
    obtain rfl := takeChar?_eq_some_iff.mp hcolon
    obtain ⟨minute, hmin, rfl, rfl⟩ := takeNumber?_eq_some_iff.mp hminute
    obtain rfl := takeChar?_eq_some_iff.mp hcolon'
    obtain ⟨second, hs, rfl, rfl⟩ := takeNumber?_eq_some_iff.mp hsecond
    refine ⟨⟨year, month, day, hour, minute, second, hy, hm, hd, hh, hmin, hs⟩, rfl, ?_⟩
    simp only [chars, List.append_assoc, List.cons_append]

end WrittenFields

/-! ## The decimals -/

theorem takeFraction?_append {ds rest : List Char} (hne : ds ≠ [])
    (hds : ∀ c ∈ ds, c.isDigit = true) (hrest : ∀ c ∈ rest.head?, c.isDigit = false) :
    takeFraction? ('.' :: (ds ++ rest)) = some (nanosOfDigits ds, rest) := by
  simp only [takeFraction?, spanDigits_append hds hrest]
  exact if_neg (by simpa using hne)

theorem exists_of_takeFraction? {s rest : List Char} {nanos : Nat}
    (h : takeFraction? s = some (nanos, rest)) :
    ∃ ds, ds ≠ [] ∧ (∀ c ∈ ds, c.isDigit = true) ∧ nanosOfDigits ds = nanos ∧
      s = '.' :: (ds ++ rest) := by
  unfold takeFraction? at h
  split at h
  · rename_i s
    obtain ⟨⟨ds, after⟩, hspan⟩ : ∃ parts, spanDigits s = parts := ⟨_, rfl⟩
    obtain ⟨rfl, hds, -⟩ := spanDigits_eq_iff.mp hspan
    rw [hspan] at h
    dsimp only at h
    split at h
    · cases h
    · rename_i hne
      cases h
      exact ⟨ds, by simpa using hne, hds, rfl, rfl⟩
  · cases h

/-- Digits with zeros after them, in a field of fixed width. -/
theorem isDigits_padRight_take {ds : List Char} (hds : ∀ c ∈ ds, c.isDigit = true) (n : Nat) :
    IsDigits n n (padRight n '0' (ds.take n)) := by
  have hlen : (padRight n '0' (ds.take n)).length = n := by
    rw [padRight, List.length_append, List.length_replicate, List.length_take]
    omega
  refine ⟨Nat.le_of_eq hlen.symm, Nat.le_of_eq hlen, ?_⟩
  intro c hc
  rw [padRight, List.mem_append] at hc
  rcases hc with hc | hc
  · exact hds c (List.mem_of_mem_take hc)
  · rw [List.eq_of_mem_replicate hc]
    decide

theorem nanosOfDigits_lt {ds : List Char} (hds : ∀ c ∈ ds, c.isDigit = true) :
    nanosOfDigits ds < 1000000000 :=
  (isDigits_padRight_take hds 9).natOfDigits_lt

/-- The milliseconds are the first three decimals. -/
theorem nanosOfDigits_div {ds : List Char} (hds : ∀ c ∈ ds, c.isDigit = true) :
    nanosOfDigits ds / 1000000 = natOfDigits (padRight 3 '0' (ds.take 3)) := by
  have hnine := isDigits_padRight_take hds 9
  have hsplit := List.take_append_drop 3 (padRight 9 '0' (ds.take 9))
  have hthree : (padRight 9 '0' (ds.take 9)).take 3 = padRight 3 '0' (ds.take 3) := by
    rw [padRight, padRight, List.take_append, List.take_take, List.take_replicate,
      List.length_take, List.length_take]
    congr 2
    omega
  have hlen : ((padRight 9 '0' (ds.take 9)).drop 3).length = 6 := by
    rw [List.length_drop, Nat.le_antisymm hnine.le_high hnine.low_le]
  have hlt : natOfDigits ((padRight 9 '0' (ds.take 9)).drop 3) < 10 ^ 6 := by
    rw [← hlen]
    exact natOfDigits_lt fun c hc => hnine.digits c (List.mem_of_mem_drop hc)
  rw [nanosOfDigits, ← hsplit, natOfDigits_append, hlen, hthree]
  omega

/-- A timestamp with at least one decimal. -/
structure WrittenStamp extends WrittenFields where
  fraction : List Char
  fraction_ne_nil : fraction ≠ []
  fraction_digits : ∀ c ∈ fraction, c.isDigit = true

namespace WrittenStamp

/-- The timestamp, with a letter between date and time and one at the end. -/
def chars (w : WrittenStamp) (separator zone : Char) : List Char :=
  w.toWrittenFields.chars separator ++ '.' :: (w.fraction ++ [zone])

/-- The timestamp with three decimals: the first three, with zeros after them if there are fewer. -/
def cut (w : WrittenStamp) : WrittenStamp :=
  { w with
    fraction := padRight 3 '0' (w.fraction.take 3)
    fraction_ne_nil := by
      have hne := w.fraction_ne_nil
      simp [padRight, hne]
    fraction_digits := (isDigits_padRight_take w.fraction_digits 3).digits }

end WrittenStamp

/-! ## The instant of the fields -/

namespace WrittenFields

variable {w : WrittenFields} {separator : Char} {nanos : Nat}

theorem isValid_stamp_iff : (w.stamp separator).isValid = true ↔ w.IsValid := by
  simp only [Stamp.isValid, Bool.and_eq_true, decide_eq_true_eq, IsValid, ← Date.isValid_iff,
    and_assoc]
  exact and_congr_right fun _ => and_congr Nat.lt_succ_iff (and_congr_left fun _ => Nat.lt_succ_iff)

theorem toInstant?_eq_none (h : ¬ w.IsValid) : (w.stamp separator).toInstant? nanos 0 = none :=
  if_neg (mt isValid_stamp_iff.mp h)

/-- The second of the fields, the last one of its minute for a leap second. -/
def seconds (w : WrittenFields) : Int :=
  w.date.toDays * daySeconds +
    ((natOfDigits w.hour * 3600 + natOfDigits w.minute * 60 + min (natOfDigits w.second) 59 : Nat) :
      Int)

theorem toInstant?_of_isValid (h : w.IsValid) :
    (w.stamp separator).toInstant? nanos 0 =
      Instant.of? w.seconds (if natOfDigits w.second = 60 then nanos + 1000000000 else nanos) := by
  rw [Stamp.toInstant?, if_pos (isValid_stamp_iff.mpr h)]
  dsimp only
  rw [Int.zero_mul, Int.sub_zero]
  rfl

/-- The years of four digits are in range. -/
theorem seconds_bounds (h : w.IsValid) :
    Instant.firstSecond ≤ w.seconds ∧ w.seconds ≤ Instant.lastSecond := by
  obtain ⟨hdate, hhour, hminute, -⟩ := h
  obtain ⟨hlow, hhigh⟩ := Date.toDays_bounds (Date.isValid_iff.mpr hdate)
  have hyear : natOfDigits w.year < 10 ^ 4 := w.year_digits.natOfDigits_lt
  have hfirst : daysBeforeYear 0 ≤ daysBeforeYear w.date.year :=
    daysBeforeYear_mono (Int.natCast_nonneg _)
  have hlast : daysBeforeYear (w.date.year + 1) ≤ daysBeforeYear 10000 := by
    apply daysBeforeYear_mono
    unfold date
    dsimp only
    omega
  have hrange : (daysBeforeYear 0 = -366 ∧ daysBeforeYear 10000 = 3652059) ∧ epochDays = 719162 := by
    decide
  unfold seconds Instant.firstSecond Instant.lastSecond daySeconds
  omega

theorem exists_toInstant? (h : w.IsValid) (hnanos : nanos < 1000000000) :
    ∃ t, (w.stamp separator).toInstant? nanos 0 = some t := by
  have hbounds := seconds_bounds h
  obtain ⟨-, -, -, hsecond⟩ := id h
  rw [toInstant?_of_isValid h]
  refine ⟨_, dif_pos ⟨?_, ?_, hbounds⟩⟩
  · split <;> omega
  · -- only second 60 has that many nanoseconds, and it counts as a second 59
    intro hleap
    split at hleap
    · unfold seconds daySeconds
      omega
    · omega

theorem isValid_of_toInstant? {t : Instant}
    (h : (w.stamp separator).toInstant? nanos 0 = some t) : w.IsValid := by
  by_contra hinvalid
  rw [toInstant?_eq_none hinvalid] at h
  cases h

theorem secondOfDay_of_toInstant? {t : Instant}
    (h : (w.stamp separator).toInstant? nanos 0 = some t) :
    Instant.secondOfDay t.seconds =
      natOfDigits w.hour * 3600 + natOfDigits w.minute * 60 + min (natOfDigits w.second) 59 := by
  have hvalid := isValid_of_toInstant? h
  rw [toInstant?_of_isValid hvalid] at h
  obtain ⟨-, hhour, hminute, -⟩ := hvalid
  rw [(Instant.of?_eq_some h).1]
  unfold Instant.secondOfDay seconds daySeconds
  omega

end WrittenFields

namespace Instant

/-- What the inside of a date literal is read from. -/
theorem ofLiteralBody?_eq_some_iff {s : List Char} {t : Instant} :
    ofLiteralBody? s = some t ↔ ∃ (w : WrittenStamp) (separator zone : Char),
      (separator = 'T' ∨ separator = 't') ∧ (zone = 'Z' ∨ zone = 'z') ∧
      s = w.chars separator zone ∧
      (w.stamp separator).toInstant? (nanosOfDigits w.fraction) 0 = some t := by
  constructor
  · intro h
    simp only [ofLiteralBody?, Option.bind_eq_bind, Option.bind_eq_some_iff] at h
    obtain ⟨⟨stamp, s'⟩, htake, ⟨nanos, rest⟩, hfraction, hread⟩ := h
    obtain ⟨w, hstamp, rfl⟩ := WrittenFields.exists_of_take? htake
    obtain ⟨ds, hne, hds, rfl, rfl⟩ := exists_of_takeFraction? hfraction
    split at hread
    · rename_i hletters
      obtain ⟨hseparator, hzone⟩ := hletters
      rw [← hstamp] at hread
      rcases hzone with rfl | rfl
      · exact ⟨⟨w, ds, hne, hds⟩, stamp.separator, 'Z', hseparator, Or.inl rfl, rfl, hread⟩
      · exact ⟨⟨w, ds, hne, hds⟩, stamp.separator, 'z', hseparator, Or.inr rfl, rfl, hread⟩
    · cases hread
  · rintro ⟨w, separator, zone, hseparator, hzone, rfl, hread⟩
    have hletter : zone.isDigit = false := by
      rcases hzone with rfl | rfl <;> decide
    have hfraction : takeFraction? ('.' :: (w.fraction ++ [zone])) =
        some (nanosOfDigits w.fraction, [zone]) :=
      takeFraction?_append w.fraction_ne_nil w.fraction_digits (by simpa using hletter)
    have hend : [zone] = ['Z'] ∨ [zone] = ['z'] := by
      rcases hzone with rfl | rfl <;> simp
    simp only [ofLiteralBody?, WrittenStamp.chars, WrittenFields.take?_chars, hfraction,
      Option.bind_eq_bind, Option.bind_some]
    rw [if_pos ⟨hseparator, hend⟩, hread]

section Read

variable {w : WrittenStamp} {separator : Char} {t : Instant}
  (h : (w.stamp separator).toInstant? (nanosOfDigits w.fraction) 0 = some t)
include h

theorem nanos_of_toInstant? : t.nanos =
    if natOfDigits w.second = 60 then nanosOfDigits w.fraction + 1000000000
    else nanosOfDigits w.fraction := by
  rw [WrittenFields.toInstant?_of_isValid (WrittenFields.isValid_of_toInstant? h)] at h
  exact (of?_eq_some h).2

/-- Second 60 is shown as second 59 with the leap second. -/
theorem shownSecond_of_toInstant? :
    (secondOfDay t.seconds % 60 + if t.overruns then 1 else 0) = natOfDigits w.second := by
  have hday := WrittenFields.secondOfDay_of_toInstant? h
  have hnanos := nanos_of_toInstant? h
  have hlt := nanosOfDigits_lt w.fraction_digits
  obtain ⟨-, -, -, hsecond⟩ := WrittenFields.isValid_of_toInstant? h
  unfold overruns
  rw [hnanos]
  simp only [decide_eq_true_eq]
  split_ifs <;> omega

theorem millis_of_toInstant? : t.nanos % 1000000000 / 1000000 =
    natOfDigits (padRight 3 '0' (w.fraction.take 3)) := by
  have hlt := nanosOfDigits_lt w.fraction_digits
  rw [← nanosOfDigits_div w.fraction_digits, nanos_of_toInstant? h]
  split <;> omega

/-- **The timestamp of an instant that was read** has the digits that were written. -/
theorem isoChars_of_toInstant? : t.isoChars = w.cut.chars 'T' 'Z' := by
  have hday := WrittenFields.secondOfDay_of_toInstant? h
  have hdate : dateOf t.seconds = w.date := dateOf_of_toInstant? h
  obtain ⟨-, hhour, hminute, -⟩ := WrittenFields.isValid_of_toInstant? h
  have hyear : natOfDigits w.year < 10 ^ 4 := w.year_digits.natOfDigits_lt
  have hyearChars : yearChars (natOfDigits w.year : Nat) = w.year := by
    rw [yearChars, if_pos (by omega)]
    exact fixedDigits_natOfDigits w.year_digits (by decide)
  have hhourValue : secondOfDay t.seconds / 3600 = natOfDigits w.hour := by omega
  have hminuteValue : secondOfDay t.seconds / 60 % 60 = natOfDigits w.minute := by omega
  have hfield : ∀ {ds : List Char}, IsDigits 2 2 ds → fixedDigits 2 (natOfDigits ds) = ds :=
    fun hds => fixedDigits_natOfDigits hds (by decide)
  have hthree := fixedDigits_natOfDigits (isDigits_padRight_take w.fraction_digits 3) (by decide)
  rw [isoChars]
  simp only [hdate, WrittenFields.date, hyearChars, hhourValue, hminuteValue,
    shownSecond_of_toInstant? h, millis_of_toInstant? h, hthree, hfield w.month_digits,
    hfield w.day_digits, hfield w.hour_digits, hfield w.minute_digits, hfield w.second_digits]
  simp only [WrittenStamp.chars, WrittenStamp.cut, WrittenFields.chars, List.append_assoc,
    List.cons_append]

end Read

end Instant

end EntityQuery

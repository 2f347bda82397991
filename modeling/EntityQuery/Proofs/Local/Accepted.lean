import EntityQuery.Proofs.Local.Date
import EntityQuery.Proofs.Text.Fields

/-!
# The local dates that are accepted

A text is a local date if it is spelled like one, and it is accepted if there is a minute on the wall
clock that it names. Nothing rolls over: the date of the instant that is read is the date that was
written, and so is its time of day (`parseDate_spec`). There is one exception. At 02:00 on the day
on which summer time starts the clock is put forward; that time is read, and shown as 03:00.

The reader is compared with the spelling field by field (`read?_eq_some_iff`). The rest is about the
clock: a minute that it never shows has no instant (`at?_of_not_onClock`), and at the instant of any
other it shows that minute (`at?_of_onClock`).
-/

namespace EntityQuery

open Text Calendar Instant

namespace LocalFields

/-! ## Spelling -/

/-- The time part of a local date: nothing, or ASCII blanks, hour, colon and minute. -/
inductive SpelledTime : List Char → Option (Nat × Nat) → Prop
  | absent : SpelledTime [] none
  | given {blanks hour minute : List Char} (hne : blanks ≠ [])
      (hblanks : ∀ c ∈ blanks, isAsciiBlank c = true) (hhour : IsDigits 1 2 hour)
      (hminute : IsDigits 2 2 minute) :
      SpelledTime (blanks ++ (hour ++ ':' :: minute))
        (some (natOfDigits hour, natOfDigits minute))

/-- The texts of local dates, with the fields that they spell. -/
inductive Spelled : List Char → LocalFields → Prop
  | intro {day month year rest : List Char} {time : Option (Nat × Nat)} (hday : IsDigits 1 2 day)
      (hmonth : IsDigits 1 2 month) (hyear : IsDigits 4 4 year) (htime : SpelledTime rest time) :
      Spelled (day ++ '/' :: (month ++ '/' :: (year ++ rest)))
        ⟨natOfDigits day, natOfDigits month, natOfDigits year, time⟩

section Short

variable {stop : Char} (hstop : stop.isDigit = false)
include hstop

theorem takeShort?_append {ds : List Char} (h : IsDigits 1 2 ds) (rest : List Char) :
    takeShort? stop (ds ++ stop :: rest) = some (natOfDigits ds, rest) := by
  have hspan : spanDigits (ds ++ stop :: rest) = (ds, stop :: rest) :=
    spanDigits_append h.digits (by simpa using hstop)
  have hlen : ds.length = 1 ∨ ds.length = 2 := by
    have hlow := h.low_le
    have hhigh := h.le_high
    omega
  simp only [takeShort?, hspan, if_pos hlen, takeChar?_self, Option.map_some]

theorem takeShort?_eq_some_iff {s rest : List Char} {n : Nat} :
    takeShort? stop s = some (n, rest) ↔
      ∃ ds, IsDigits 1 2 ds ∧ natOfDigits ds = n ∧ s = ds ++ stop :: rest := by
  constructor
  · intro h
    obtain ⟨⟨ds, after⟩, hspan⟩ : ∃ parts, spanDigits s = parts := ⟨_, rfl⟩
    obtain ⟨rfl, hdigits, -⟩ := spanDigits_eq_iff.mp hspan
    unfold takeShort? at h
    rw [hspan] at h
    dsimp only at h
    split at h
    · rename_i hlen
      obtain ⟨rest', htake, heq⟩ := Option.map_eq_some_iff.mp h
      cases heq
      rw [takeChar?_eq_some_iff.mp htake]
      exact ⟨ds, ⟨by omega, by omega, hdigits⟩, rfl, rfl⟩
    · cases h
  · rintro ⟨ds, hds, rfl, rfl⟩
    exact takeShort?_append hstop hds rest

end Short

theorem dropWhile_blanks {blanks ds : List Char} (hblanks : ∀ c ∈ blanks, isAsciiBlank c = true)
    (hds : IsDigits 1 2 ds) (rest : List Char) :
    (blanks ++ (ds ++ rest)).dropWhile isAsciiBlank = ds ++ rest := by
  obtain ⟨d, ds', rfl⟩ := List.exists_cons_of_length_pos hds.low_le
  have hd : isAsciiBlank d = false := isAsciiBlank_of_isDigit (hds.digits d (by simp))
  rw [List.dropWhile_append_of_pos hblanks, List.cons_append,
    List.dropWhile_cons_of_neg (by simp [hd])]

theorem readTime?_eq_some_iff {s : List Char} {time : Option (Nat × Nat)} :
    readTime? s = some time ↔ SpelledTime s time := by
  have hcolon : (':' : Char).isDigit = false := by decide
  constructor
  · intro h
    unfold readTime? at h
    split at h
    · cases h
      exact .absent
    · rename_i c s
      split at h
      · rename_i hc
        simp only [Option.bind_eq_bind, Option.bind_eq_some_iff] at h
        obtain ⟨⟨hour, s'⟩, hhour, ⟨minute, rest⟩, hminute, hend⟩ := h
        obtain ⟨hs, hhs, rfl, hafter⟩ := (takeShort?_eq_some_iff hcolon).mp hhour
        obtain ⟨ms, hms, rfl, rfl⟩ := takeNumber?_eq_some_iff.mp hminute
        split at hend
        · rename_i hrest
          cases hend
          obtain rfl : rest = [] := List.isEmpty_iff.mp hrest
          have hsplit := List.takeWhile_append_dropWhile (p := isAsciiBlank) (l := c :: s)
          rw [hafter, List.append_nil] at hsplit
          rw [← hsplit]
          refine .given ?_ (List.all_eq_true.mp List.all_takeWhile) hhs hms
          rw [List.takeWhile_cons_of_pos hc]
          exact List.cons_ne_nil _ _
        · cases hend
      · cases h
  · intro h
    cases h with
    | absent => rfl
    | @given blanks hour minute hne hblanks hhour hminute =>
      have hdrop := dropWhile_blanks hblanks hhour (':' :: minute)
      have htakeHour := takeShort?_append hcolon hhour minute
      have htakeMinute := takeNumber?_append hminute []
      rw [List.append_nil] at htakeMinute
      obtain ⟨b, blanks, rfl⟩ := List.exists_cons_of_ne_nil hne
      have hb : isAsciiBlank b = true := hblanks b (by simp)
      rw [List.cons_append] at hdrop ⊢
      simp only [readTime?, hb, if_true, hdrop, htakeHour, htakeMinute, Option.bind_eq_bind,
        Option.bind_some, List.isEmpty_nil]

/-- The fields are read exactly from their spelling. -/
theorem read?_eq_some_iff {s : List Char} {f : LocalFields} : read? s = some f ↔ Spelled s f := by
  have hslash : ('/' : Char).isDigit = false := by decide
  constructor
  · intro h
    simp only [read?, Option.bind_eq_bind, Option.bind_eq_some_iff] at h
    obtain ⟨⟨day, s₁⟩, hday, ⟨month, s₂⟩, hmonth, ⟨year, s₃⟩, hyear, time, htime, hf⟩ := h
    obtain ⟨ds, hds, rfl, rfl⟩ := (takeShort?_eq_some_iff hslash).mp hday
    obtain ⟨ms, hms, rfl, rfl⟩ := (takeShort?_eq_some_iff hslash).mp hmonth
    obtain ⟨ys, hys, rfl, rfl⟩ := takeNumber?_eq_some_iff.mp hyear
    cases hf
    exact .intro hds hms hys (readTime?_eq_some_iff.mp htime)
  · rintro ⟨hday, hmonth, hyear, htime⟩
    simp only [read?, takeShort?_append hslash hday, takeShort?_append hslash hmonth,
      takeNumber?_append hyear, readTime?_eq_some_iff.mpr htime, Option.bind_eq_bind,
      Option.bind_some]
    rfl

theorem Spelled.year_lt {s : List Char} {f : LocalFields} (h : Spelled s f) : f.year < 10 ^ 4 := by
  obtain ⟨-, -, hyear, -⟩ := h
  exact hyear.natOfDigits_lt

/-! ## The minute that is named -/

/-- The date of the fields. -/
def date (f : LocalFields) : Date :=
  ⟨f.year, f.month, f.day⟩

/-- The time of day that counts: midnight, if the time does not count. -/
def timeOfDay? (hasTime : Bool) (f : LocalFields) : Option (Nat × Nat) :=
  if hasTime then f.time else some (0, 0)

end LocalFields

/-- The minutes that the wall clock shows: those of the dates of the calendar, but for the ones
strictly between 02:00 and 03:00 on the day on which summer time starts. 02:00 on that day counts
as shown. -/
def OnClock (d : Date) (hour minute : Nat) : Prop :=
  d.IsGregorian ∧ hour ≤ 23 ∧ minute ≤ 59 ∧ ¬ (d.IsSpringChange ∧ hour = 2 ∧ 0 < minute)

instance (d : Date) (hour minute : Nat) : Decidable (OnClock d hour minute) :=
  inferInstanceAs (Decidable (_ ∧ _))

/-- What the clock shows at the instant that a minute is read as. -/
structure ReadAs (d : Date) (hour minute : Nat) (t : Instant) : Prop where
  date : dateOf (wallClock t.seconds) = d
  /-- The minute starts, an hour later where the clock is put forward. -/
  time : secondOfDay (wallClock t.seconds) =
    (if d.IsSpringChange ∧ hour = 2 then 3 else hour) * 3600 + minute * 60
  nanos : t.nanos = 0
  /-- Where the clock shows the minute twice it is the second time. -/
  last : ∀ seconds, wallClock seconds = wallClock t.seconds → seconds ≤ t.seconds

/-- A minute of a date, as seconds on the clock. -/
def wallOf (d : Date) (hour minute : Nat) : Int :=
  dayStart d.toDays + ((hour * 3600 + minute * 60 : Nat) : Int)

section Minute

variable {d : Date} {hour minute : Nat} (hd : d.IsGregorian) (hhour : hour < 24)
  (hminute : minute < 60)
include hd hhour hminute

theorem dateOf_wallOf : dateOf (wallOf d hour minute) = d := by
  have hday : wallOf d hour minute / daySeconds = d.toDays := by
    unfold wallOf dayStart daySeconds
    omega
  rw [dateOf, hday, Date.ofDays_toDays (Date.isValid_iff.mpr hd)]

theorem wallOf_eq_change_iff : wallOf d hour minute = dayStart (lastSunday d.year 3) + 7200 ↔
    d.IsSpringChange ∧ hour = 2 ∧ minute = 0 := by
  rw [isSpringChange_iff hd]
  unfold wallOf dayStart daySeconds
  omega

theorem ofWallClock?_wallOf_eq_none_iff :
    ofWallClock? d.year (wallOf d hour minute) = none ↔
      d.IsSpringChange ∧ hour = 2 ∧ 0 < minute := by
  rw [ofWallClock?_eq_none_iff, isSpringChange_iff hd]
  unfold wallOf dayStart daySeconds
  omega

theorem secondOfDay_of_wallOf {seconds : Int}
    (h : ofWallClock? d.year (wallOf d hour minute) = some seconds) :
    secondOfDay (wallClock seconds) =
      (if d.IsSpringChange ∧ hour = 2 then 3 else hour) * 3600 + minute * 60 := by
  have hdate := dateOf_wallOf hd hhour hminute
  have hchange := wallOf_eq_change_iff hd hhour hminute
  have hskipped := ofWallClock?_wallOf_eq_none_iff hd hhour hminute
  have hread : ofWallClock? (dateOf (wallOf d hour minute)).year (wallOf d hour minute) =
      some seconds := by
    rw [hdate, h]
  by_cases hspring : d.IsSpringChange ∧ hour = 2
  · -- of this hour only the first minute is read, and there the clock is put forward
    obtain rfl : minute = 0 := by
      by_contra hne
      have hnone := hskipped.mpr ⟨hspring.1, hspring.2, Nat.pos_of_ne_zero hne⟩
      rw [h] at hnone
      cases hnone
    have hwall := hchange.mpr ⟨hspring.1, hspring.2, rfl⟩
    have hshown := wallClock_springChange hread (by rw [hdate, hwall])
    rw [if_pos hspring, hshown, hwall]
    unfold secondOfDay dayStart daySeconds
    omega
  · have hne : wallOf d hour minute ≠ dayStart (lastSunday d.year 3) + 7200 := fun hwall =>
      hspring ⟨(hchange.mp hwall).1, (hchange.mp hwall).2.1⟩
    have hshown := wallClock_ofWallClock? hread (by rw [hdate]; exact hne)
    rw [if_neg hspring, hshown]
    unfold secondOfDay wallOf dayStart daySeconds
    omega

end Minute

namespace LocalFields

variable {f : LocalFields} {hour minute : Nat}

/-- A minute that the clock never shows has no instant. -/
theorem at?_of_not_onClock (h : ¬ OnClock f.date hour minute) : f.at? hour minute = none := by
  unfold at?
  dsimp only
  split
  · rename_i hfields
    obtain ⟨hvalid, hhour, hminute⟩ := hfields
    have hd : f.date.IsGregorian := Date.isValid_iff.mp hvalid
    have hnone : ofWallClock? f.date.year (wallOf f.date hour minute) = none := by
      rw [ofWallClock?_wallOf_eq_none_iff hd hhour hminute]
      by_contra hshown
      exact h ⟨hd, by omega, by omega, hshown⟩
    exact congrArg (Option.bind · _) hnone
  · rfl

/-- A minute that the clock shows has one, and nothing rolls over. -/
theorem at?_of_onClock (hyear : f.year < 10 ^ 4) (h : OnClock f.date hour minute) :
    ∃ t, f.at? hour minute = some t ∧ ReadAs f.date hour minute t := by
  obtain ⟨hd, hhour, hminute, hshown⟩ := h
  replace hhour : hour < 24 := by omega
  replace hminute : minute < 60 := by omega
  rw [← ofWallClock?_wallOf_eq_none_iff hd hhour hminute, ← ne_eq,
    Option.ne_none_iff_exists'] at hshown
  obtain ⟨seconds, hseconds⟩ := hshown
  have hdate := dateOf_wallOf hd hhour hminute
  have hread : ofWallClock? (dateOf (wallOf f.date hour minute)).year (wallOf f.date hour minute) =
      some seconds := by
    rw [hdate, hseconds]
  have hlocal : dateOf (wallClock seconds) = f.date := by
    rw [dateOf_ofWallClock? hread, hdate]
  -- four digits of a year keep the instant in range
  have hlocalYear : localYear seconds = f.year := congrArg Date.year hlocal
  obtain ⟨t, ht, rfl, hnanos⟩ := @of?_of_localYear seconds (by omega)
  refine ⟨t, ?_, hlocal, secondOfDay_of_wallOf hd hhour hminute hseconds, hnanos, ?_⟩
  · have hvalid : f.date.isValid = true := Date.isValid_iff.mpr hd
    have hat : f.at? hour minute = (ofWallClock? f.date.year (wallOf f.date hour minute)).bind
        fun seconds => Instant.of? seconds 0 := if_pos ⟨hvalid, hhour, hminute⟩
    rw [hat, hseconds, Option.bind_some, ht]
  · exact fun other hother => le_of_ofWallClock? hread hother

end LocalFields

/-! ## What is accepted -/

open LocalFields (Spelled)

section Text

variable {text : String} {hasTime : Bool} {f : LocalFields}

theorem parseDate_of_not_spelled (h : ¬ ∃ f, Spelled text.toList f) :
    parseDate text hasTime = .error (.dateFormat text) := by
  have hread : LocalFields.read? text.toList = none := by
    cases hf : LocalFields.read? text.toList with
    | none => rfl
    | some f => exact absurd ⟨f, LocalFields.read?_eq_some_iff.mp hf⟩ h
  rw [parseDate, hread]

theorem parseDate_of_no_time (h : Spelled text.toList f) (htime : f.timeOfDay? hasTime = none) :
    parseDate text hasTime = .error (.dateFormat text) := by
  rw [parseDate, LocalFields.read?_eq_some_iff.mpr h]
  cases hasTime with
  | false => cases htime
  | true =>
    have hnone : f.time = none := htime
    simp only [hnone]

theorem parseDate_of_time {hour minute : Nat} (h : Spelled text.toList f)
    (htime : f.timeOfDay? hasTime = some (hour, minute)) :
    parseDate text hasTime = match f.at? hour minute with
      | some t => .ok t
      | none => .error (.noSuchDate text) := by
  rw [parseDate, LocalFields.read?_eq_some_iff.mpr h]
  cases hasTime with
  | false =>
    cases htime
    rfl
  | true =>
    obtain ⟨day, month, year, time⟩ := f
    obtain rfl : time = some (hour, minute) := htime
    rfl

theorem LocalFields.Spelled.unique {s : List Char} {f f' : LocalFields} (h : Spelled s f)
    (h' : Spelled s f') : f = f' :=
  Option.some.inj ((LocalFields.read?_eq_some_iff.mpr h).symm.trans
    (LocalFields.read?_eq_some_iff.mpr h'))

theorem parseDate_eq_format_iff : parseDate text hasTime = .error (.dateFormat text) ↔
    ¬ ∃ f, Spelled text.toList f ∧ (hasTime = true → f.time ≠ none) := by
  by_cases hspelled : ∃ f, Spelled text.toList f
  · obtain ⟨f, hf⟩ := hspelled
    have hread : (∃ f, Spelled text.toList f ∧ (hasTime = true → f.time ≠ none)) ↔
        f.timeOfDay? hasTime ≠ none := by
      constructor
      · rintro ⟨f', hf', htime⟩
        obtain rfl := hf.unique hf'
        cases hasTime with
        | false => nofun
        | true => exact htime rfl
      · intro htime
        refine ⟨f, hf, ?_⟩
        rintro rfl
        exact htime
    rw [hread, ne_eq, not_not]
    cases htime : f.timeOfDay? hasTime with
    | none => exact iff_of_true (parseDate_of_no_time hf htime) rfl
    | some time =>
      obtain ⟨hour, minute⟩ := time
      rw [parseDate_of_time hf htime]
      cases f.at? hour minute <;> exact iff_of_false nofun nofun
  · refine iff_of_true (parseDate_of_not_spelled hspelled) ?_
    rintro ⟨f, hf, -⟩
    exact hspelled ⟨f, hf⟩

end Text

/-- **The local dates that are accepted**: a text that is not spelled like one, or has no time where
the time counts, is refused for its form; one that is spelled like a date is refused exactly if the
clock does not show its minute, and otherwise read as an instant at which it does. -/
theorem parseDate_spec (text : String) (hasTime : Bool) :
    (parseDate text hasTime = .error (.dateFormat text) ↔
      ¬ ∃ f, Spelled text.toList f ∧ (hasTime = true → f.time ≠ none)) ∧
    ∀ f hour minute, Spelled text.toList f → f.timeOfDay? hasTime = some (hour, minute) →
      (parseDate text hasTime = .error (.noSuchDate text) ↔ ¬ OnClock f.date hour minute) ∧
      (OnClock f.date hour minute →
        ∃ t, parseDate text hasTime = .ok t ∧ ReadAs f.date hour minute t) := by
  refine ⟨parseDate_eq_format_iff, ?_⟩
  intro f hour minute hspelled htime
  have hparse := parseDate_of_time hspelled htime
  by_cases hclock : OnClock f.date hour minute
  · obtain ⟨t, hat, hread⟩ := LocalFields.at?_of_onClock hspelled.year_lt hclock
    rw [hat] at hparse
    refine ⟨iff_of_false ?_ (not_not.mpr hclock), fun _ => ⟨t, hparse, hread⟩⟩
    rw [hparse]
    nofun
  · rw [LocalFields.at?_of_not_onClock hclock] at hparse
    exact ⟨iff_of_true hparse hclock, fun h => absurd h hclock⟩

/-- On the night of the change two o'clock is read, as the moment at which the clock shows three. -/
theorem changeNight_accepted :
    ∃ f, Spelled "28/3/2021\t 2:00".toList f ∧ f.timeOfDay? true = some (2, 0) ∧
      OnClock f.date 2 0 ∧
      ∃ t, parseDate "28/3/2021\t 2:00" true = .ok t ∧ dateOf (wallClock t.seconds) = f.date ∧
        secondOfDay (wallClock t.seconds) = 3 * 3600 := by
  have hspelled : Spelled "28/3/2021\t 2:00".toList ⟨28, 3, 2021, some (2, 0)⟩ :=
    LocalFields.read?_eq_some_iff.mp rfl
  have hclock : OnClock (LocalFields.mk 28 3 2021 (some (2, 0))).date 2 0 := by decide
  obtain ⟨-, haccepted⟩ := parseDate_spec "28/3/2021\t 2:00" true
  obtain ⟨t, ht, hread⟩ := (haccepted _ 2 0 hspelled rfl).2 hclock
  exact ⟨_, hspelled, rfl, hclock, t, ht, hread.date, hread.time⟩

end EntityQuery

import EntityQuery.Box.Basic
import EntityQuery.Proofs.Calendar.Timestamp
import EntityQuery.Proofs.Calendar.Zone

/-!
# Reading local dates back

The local date of an instant reads back as what the date shows of it: the start of its minute, or of
its local day when the time does not count. The wall clock shows one hour of the year twice, and of
two instants with the same local date the later one is read.
-/

namespace EntityQuery

open Text Calendar

namespace Instant

/-- Whether the year of an instant on the wall clock has four digits. -/
def HasPlainLocalYear (t : Instant) : Prop :=
  0 ≤ localYear t.seconds ∧ localYear t.seconds ≤ 9999

instance (t : Instant) : Decidable t.HasPlainLocalYear :=
  inferInstanceAs (Decidable (_ ∧ _))

/-- The fields of the local date of an instant. -/
def localFields (hasTime : Bool) (t : Instant) : LocalFields where
  day := (dateOf (wallClock t.seconds)).day
  month := (dateOf (wallClock t.seconds)).month
  year := (localYear t.seconds).toNat
  time :=
    if hasTime then
      some (secondOfDay (wallClock t.seconds) / 3600, secondOfDay (wallClock t.seconds) / 60 % 60)
    else none

end Instant

open Instant

/-! ## The fields of a local date -/

theorem takeShort?_fixedDigits {n : Nat} (hn : n < 10 ^ 2) {stop : Char}
    (hstop : stop.isDigit = false) (rest : List Char) :
    takeShort? stop (fixedDigits 2 n ++ stop :: rest) = some (n, rest) := by
  have hspan : spanDigits (fixedDigits 2 n ++ stop :: rest) = (fixedDigits 2 n, stop :: rest) :=
    spanDigits_append (fun _ => isDigit_of_mem_fixedDigits) (by simpa using hstop)
  have hlen : (fixedDigits 2 n).length = 2 := length_fixedDigits (by decide) hn
  simp [takeShort?, hspan, hlen, takeChar?_self, natOfDigits_fixedDigits]

theorem isAsciiBlank_of_isDigit {c : Char} (h : c.isDigit = true) : isAsciiBlank c = false := by
  have hlo : 48 ≤ c.toNat := by
    simpa using (Char.isDigit_iff_toNat.mp h).1
  have hne : c ≠ ' ' := by
    rintro rfl
    exact absurd h (by decide)
  simp only [isAsciiBlank, Bool.or_eq_false_iff, beq_eq_false_iff_ne, Bool.and_eq_false_iff,
    decide_eq_false_iff_not]
  exact ⟨hne, Or.inr (by omega)⟩

theorem readTime?_append {hour minute : Nat} (hhour : hour < 10 ^ 2) (hminute : minute < 10 ^ 2) :
    readTime? (' ' :: (fixedDigits 2 hour ++ ':' :: fixedDigits 2 minute)) =
      some (some (hour, minute)) := by
  have hblank : isAsciiBlank ' ' = true := by decide
  have hdrop : (fixedDigits 2 hour ++ ':' :: fixedDigits 2 minute).dropWhile isAsciiBlank =
      fixedDigits 2 hour ++ ':' :: fixedDigits 2 minute := by
    obtain ⟨c, ds, hdigits⟩ := List.exists_cons_of_ne_nil (fixedDigits_ne_nil 2 hour)
    have hc : c.isDigit = true := isDigit_of_mem_fixedDigits (hdigits ▸ List.mem_cons_self)
    rw [hdigits, List.cons_append]
    exact List.dropWhile_cons_of_neg (by simp [isAsciiBlank_of_isDigit hc])
  have hcolon : (':' : Char).isDigit = false := by decide
  have htake := @takeNumber?_fixedDigits 2 minute (by decide) hminute []
  rw [List.append_nil] at htake
  simp [readTime?, hblank, hdrop, takeShort?_fixedDigits hhour hcolon, htake]

/-- The fields of a local date are read back, with the time where it is shown. -/
theorem read?_localText (hasTime : Bool) {t : Instant} (h : t.HasPlainLocalYear) :
    LocalFields.read? (localText hasTime t).toList = some (t.localFields hasTime) := by
  have hyear : (localYear t.seconds).toNat < 10 ^ 4 := by
    have h2 := h.2
    omega
  have hdate : (dateOf (wallClock t.seconds)).month < 10 ^ 2 ∧
      (dateOf (wallClock t.seconds)).day < 10 ^ 2 := Date.ofDays_lt _
  have hsecond := secondOfDay_lt (wallClock t.seconds)
  have hchars : yearChars (dateOf (wallClock t.seconds)).year =
      fixedDigits 4 (localYear t.seconds).toNat := if_pos h
  have hslash : ∀ {n : Nat}, n < 10 ^ 2 → ∀ rest,
      takeShort? '/' (fixedDigits 2 n ++ '/' :: rest) = some (n, rest) :=
    fun hn => takeShort?_fixedDigits hn (by decide)
  have htakeYear := @takeNumber?_fixedDigits 4 (localYear t.seconds).toNat (by decide) hyear
  cases hasTime with
  | false =>
    have htake := htakeYear []
    rw [List.append_nil] at htake
    simp only [localText, String.toList_ofList, hchars, List.append_assoc, List.cons_append,
      LocalFields.read?, hslash hdate.1, hslash hdate.2, htake, Option.bind_eq_bind,
      Option.bind_some, Bool.false_eq_true, if_false]
    rfl
  | true =>
    have htime := @readTime?_append (secondOfDay (wallClock t.seconds) / 3600)
      (secondOfDay (wallClock t.seconds) / 60 % 60) (by omega) (by omega)
    simp only [localText, String.toList_ofList, hchars, List.append_assoc, List.cons_append,
      LocalFields.read?, hslash hdate.1, hslash hdate.2,
      htakeYear, htime, Option.bind_eq_bind, Option.bind_some, if_true]
    rfl

/-! ## The instant of the fields -/

theorem at?_localFields {t : Instant} (h : t.HasPlainLocalYear) (hasTime : Bool) {hour minute : Nat}
    (hhour : hour < 24) (hminute : minute < 60) :
    (t.localFields hasTime).at? hour minute =
      (ofWallClock? (localYear t.seconds)
        (dayStart (localDay t.seconds) + ((hour * 3600 + minute * 60 : Nat) : Int))).bind
        fun seconds => Instant.of? seconds 0 := by
  have hyear : (((t.localFields hasTime).year : Nat) : Int) = localYear t.seconds :=
    Int.toNat_of_nonneg h.1
  have hdate : (⟨localYear t.seconds, (t.localFields hasTime).month,
      (t.localFields hasTime).day⟩ : Date) = Date.ofDays (localDay t.seconds) := rfl
  unfold LocalFields.at?
  simp only [hyear, hdate, Date.isValid_ofDays, hhour, hminute, Date.toDays_ofDays, and_self,
    if_true]
  rfl

/-- Every second whose year on the clock has four digits is an instant. -/
theorem of?_of_localYear {seconds : Int} (h : 0 ≤ localYear seconds ∧ localYear seconds ≤ 9999) :
    ∃ t : Instant, Instant.of? seconds 0 = some t ∧ t.seconds = seconds ∧ t.nanos = 0 := by
  obtain ⟨hlow, hhigh⟩ := localYear_bounds seconds
  have hfirst := daysBeforeYear_mono h.1
  have hlast : daysBeforeYear (localYear seconds + 1) ≤ daysBeforeYear 10000 :=
    daysBeforeYear_mono (by omega)
  have hrange : (daysBeforeYear 0 = -366 ∧ daysBeforeYear 10000 = 3652059) ∧ epochDays = 719162 := by
    decide
  have hbounds : Instant.firstSecond ≤ seconds ∧ seconds ≤ Instant.lastSecond := by
    unfold yearStart dayStart daySeconds at hlow hhigh
    unfold Instant.firstSecond Instant.lastSecond
    omega
  exact ⟨⟨seconds, 0, by decide, hbounds.1, hbounds.2⟩,
    dif_pos ⟨by decide, by omega, hbounds⟩, rfl, rfl⟩

/-- A local date shows the day on the clock, and of the time the minute. -/
theorem localText_congr {hasTime : Bool} {t t' : Instant}
    (hday : localDay t'.seconds = localDay t.seconds)
    (hminute : hasTime = true → secondOfDay (wallClock t'.seconds) / 60 =
      secondOfDay (wallClock t.seconds) / 60) :
    localText hasTime t' = localText hasTime t := by
  have hdate : dateOf (wallClock t'.seconds) = dateOf (wallClock t.seconds) :=
    congrArg Date.ofDays hday
  cases hasTime with
  | false => simp only [localText, hdate, Bool.false_eq_true, if_false]
  | true =>
    have hhour : secondOfDay (wallClock t'.seconds) / 3600 =
        secondOfDay (wallClock t.seconds) / 3600 := by
      have h := hminute rfl
      omega
    simp only [localText, hdate, hhour, hminute, if_true]

/-! ## Reading back -/

variable {t : Instant}

/-- With the time, the start of the minute is read. -/
theorem parseDate_localText_true (h : t.HasPlainLocalYear) :
    ∃ t' : Instant, parseDate (localText true t) true = .ok t' ∧ t'.nanos = 0 ∧
      t'.seconds = t.seconds - t.seconds % 60 + (if Repeated t.seconds then 3600 else 0) ∧
      localText true t' = localText true t := by
  have hsecond := secondOfDay_lt (wallClock t.seconds)
  have hoffset := offsetAt_cases t.seconds
  have hshown := wallClock_minute t.seconds
  have hwall : dayStart (localDay t.seconds) +
      ((secondOfDay (wallClock t.seconds) / 3600 * 3600 +
        secondOfDay (wallClock t.seconds) / 60 % 60 * 60 : Nat) : Int) =
      wallClock t.seconds - t.seconds % 60 := by
    unfold dayStart localDay secondOfDay wallClock daySeconds
    omega
  have hday := minute_div_daySeconds t.seconds
  have hyear : localYear (t.seconds - t.seconds % 60 + if Repeated t.seconds then 3600 else 0) =
      localYear t.seconds := by
    rw [localYear, hshown, dateOf, hday]
    rfl
  obtain ⟨t', hinstant, hseconds, hnanos⟩ := of?_of_localYear ⟨hyear ▸ h.1, hyear ▸ h.2⟩
  refine ⟨t', ?_, hnanos, hseconds, ?_⟩
  · have hhour : secondOfDay (wallClock t.seconds) / 3600 < 24 := by omega
    have hminute : secondOfDay (wallClock t.seconds) / 60 % 60 < 60 := by omega
    have hat := at?_localFields h true hhour hminute
    rw [hwall, ofWallClock?_minute, Option.bind_some, hinstant] at hat
    rw [parseDate, read?_localText true h]
    simp only [localFields, if_true] at hat ⊢
    rw [hat]
  · refine localText_congr ?_ ?_
    · rw [hseconds, localDay, hshown, hday]
    · intro _
      rw [hseconds, hshown]
      unfold secondOfDay wallClock daySeconds
      omega

/-- Without the time, the start of the local day is read. -/
theorem parseDate_localText_false (h : t.HasPlainLocalYear) :
    ∃ t' : Instant, parseDate (localText false t) false = .ok t' ∧ t'.nanos = 0 ∧
      wallClock t'.seconds = dayStart (localDay t.seconds) ∧
      (∀ seconds, localDay seconds = localDay t.seconds → t'.seconds ≤ seconds) ∧
      localText false t' = localText false t := by
  obtain ⟨start, hread, hshown, hfirst⟩ := ofWallClock?_dayStart (localDay t.seconds)
  have hday : localDay start = localDay t.seconds := by
    rw [localDay, hshown]
    unfold dayStart daySeconds
    omega
  have hyear : localYear start = localYear t.seconds := by
    rw [localYear, dateOf, ← localDay, hday]
    rfl
  obtain ⟨t', hinstant, hseconds, hnanos⟩ := of?_of_localYear ⟨hyear ▸ h.1, hyear ▸ h.2⟩
  refine ⟨t', ?_, hnanos, hseconds ▸ hshown, hseconds ▸ hfirst, ?_⟩
  · have hat := @at?_localFields t h false 0 0 (by decide) (by decide)
    have hyear : (Date.ofDays (localDay t.seconds)).year = localYear t.seconds := rfl
    rw [Nat.zero_mul, Int.natCast_zero, Int.add_zero, ← hyear, hread, Option.bind_some,
      hinstant] at hat
    rw [parseDate, read?_localText false h]
    simp only [hat]
  · exact localText_congr (hseconds ▸ hday) fun htime => absurd htime Bool.false_ne_true

/-! ## Date boxes -/

namespace Box

variable {b : Box .date}

theorem display_date (hconverters : b.converters = Converters.dateDefaults)
    (hvalue : b.value = some t) : b.display = localText b.settings.hasTime t := by
  obtain ⟨⟨value, kind, settings⟩, converters⟩ := b
  dsimp only at hvalue hconverters
  subst hvalue hconverters
  rfl

theorem parse_date (hconverters : b.converters = Converters.dateDefaults) {text : String}
    (htext : Converters.isVoid text = false) :
    b.parse text = Converters.accepted (parseDate text b.settings.hasTime) := by
  simp only [parse, hconverters, Converters.dateDefaults, htext, Bool.false_eq_true, if_false]

theorem isVoid_localText (hasTime : Bool) (t : Instant) :
    Converters.isVoid (localText hasTime t) = false := by
  obtain ⟨c, ds, hdigits⟩ := List.exists_cons_of_ne_nil
    (fixedDigits_ne_nil 2 (dateOf (wallClock t.seconds)).day)
  have hc : c.isDigit = true := isDigit_of_mem_fixedDigits (hdigits ▸ List.mem_cons_self)
  rw [Converters.isVoid, localText, String.toList_ofList, hdigits]
  cases hasTime <;> simp [isBlank_of_isDigit hc]

/-- **A date shown by a date box reads back**: with the time as the start of its minute, an hour
later in the hour that the clock repeats, and without it as the first second of its local day. The
box shows the same text again. -/
theorem parse_display (hvalue : b.value = some t)
    (hconverters : b.converters = Converters.dateDefaults) (h : t.HasPlainLocalYear) :
    ∃ t' : Instant, b.parse b.display = some t' ∧ t'.nanos = 0 ∧
      (b.settings.hasTime = true →
        t'.seconds = t.seconds - t.seconds % 60 + if Repeated t.seconds then 3600 else 0) ∧
      (b.settings.hasTime = false → wallClock t'.seconds = dayStart (localDay t.seconds) ∧
        ∀ seconds, localDay seconds = localDay t.seconds → t'.seconds ≤ seconds) ∧
      Box.display { b with value := some t' } = b.display := by
  have hshown : ∀ t', Box.display { b with value := some t' } = localText b.settings.hasTime t' :=
    fun t' => display_date (b := { b with value := some t' }) hconverters rfl
  rw [display_date hconverters hvalue, parse_date hconverters (isVoid_localText _ t)]
  simp only [hshown]
  cases b.settings.hasTime with
  | true =>
    obtain ⟨t', hparse, hnanos, hseconds, htext⟩ := parseDate_localText_true h
    exact ⟨t', congrArg Converters.accepted hparse, hnanos, fun _ => hseconds, nofun, htext⟩
  | false =>
    obtain ⟨t', hparse, hnanos, hshown, hfirst, htext⟩ := parseDate_localText_false h
    exact ⟨t', congrArg Converters.accepted hparse, hnanos, nofun, fun _ => ⟨hshown, hfirst⟩, htext⟩

/-- A date box half an hour before the clock goes back. -/
def changeBox : Box .date where
  value := Instant.of? 1635640245 500000000
  kind := some "due"
  settings := { hasTime := true }
  converters := Converters.dateDefaults

/-- Half past two is read as the second one of that night. -/
theorem changeBox_parse_display :
    ∃ t t' : Instant, changeBox.value = some t ∧ t.HasPlainLocalYear ∧ t.seconds = 1635640245 ∧
      changeBox.display = "31/10/2021 02:30" ∧ changeBox.parse changeBox.display = some t' ∧
      t'.seconds = 1635643800 ∧ t'.nanos = 0 ∧
      Box.display { changeBox with value := some t' } = changeBox.display := by
  let t : Instant := ⟨1635640245, 500000000, by decide, by decide, by decide⟩
  have hyear : t.HasPlainLocalYear := by decide
  obtain ⟨t', hparse, hnanos, htime, -, hshown⟩ := parse_display (b := changeBox) (t := t) rfl rfl hyear
  have hrepeated : Repeated t.seconds := by decide
  have hseconds := htime rfl
  rw [if_pos hrepeated] at hseconds
  exact ⟨t, t', rfl, hyear, rfl, by decide, hparse, hseconds, hnanos, hshown⟩

end Box

end EntityQuery

import EntityQuery.Calendar.Instant
import EntityQuery.Proofs.Calendar.Civil
import EntityQuery.Proofs.Text.Digits

/-!
# Reading timestamps back

The timestamp of an instant reads back as that instant cut down to whole milliseconds, both as a
loose text and inside a date literal. A leap second stays one: its nanoseconds start at `10^9`, it
is written as second 60, and second 60 puts the `10^9` back.

That takes an instant that a clock shows (`Instant.IsCivil`), as all are that are read. Where
nanoseconds run on behind another second than a second 59, the timestamp is that of the next second,
and it reads back as that one (`Instant.civil`): another pair of numbers, for the same count of
milliseconds since 1970.

The year has to fit four digits; the timestamps of other years start with a sign, which no reader
takes.
-/

namespace EntityQuery

open Text Calendar

namespace Instant

/-- The instant without what a timestamp leaves out: whole milliseconds of its second. -/
def cutToMillis (t : Instant) : Instant where
  seconds := t.seconds
  nanos := t.nanos / 1000000 * 1000000
  nanos_lt := Nat.lt_of_le_of_lt (Nat.div_mul_le_self _ _) t.nanos_lt
  first_le := t.first_le
  le_last := t.le_last

@[simp] theorem seconds_cutToMillis (t : Instant) : t.cutToMillis.seconds = t.seconds := rfl

@[simp] theorem nanos_cutToMillis (t : Instant) :
    t.cutToMillis.nanos = t.nanos / 1000000 * 1000000 := rfl

/-- Whether the year of an instant has four digits. -/
def HasPlainYear (t : Instant) : Prop :=
  0 ≤ (dateOf t.seconds).year ∧ (dateOf t.seconds).year ≤ 9999

instance (t : Instant) : Decidable t.HasPlainYear :=
  inferInstanceAs (Decidable (_ ∧ _))

/-- Whether a clock shows an instant: nanoseconds run on in leap seconds only. -/
def IsCivil (t : Instant) : Prop :=
  1000000000 ≤ t.nanos → t.seconds % 60 = 59

instance (t : Instant) : Decidable t.IsCivil :=
  inferInstanceAs (Decidable (_ → _))

/-- The instant as a clock shows it: nanoseconds that run on beyond another second than a second 59
are those of the next one. -/
def civil (t : Instant) : Instant :=
  if h : t.IsCivil then t
  else
    { seconds := t.seconds + 1
      nanos := t.nanos - 1000000000
      nanos_lt := Nat.lt_of_le_of_lt (Nat.sub_le _ _) t.nanos_lt
      first_le := Int.le_trans t.first_le (Int.le_add_of_nonneg_right (by decide))
      le_last := by
        -- the last second in range is a second 59, so there is one after any other
        have hlast := t.le_last
        unfold IsCivil lastSecond at *
        omega }

theorem of?_self {t : Instant} (h : t.IsCivil) : of? t.seconds t.nanos = some t :=
  dif_pos ⟨t.nanos_lt, h, t.first_le, t.le_last⟩

theorem of?_eq_some {seconds : Int} {nanos : Nat} {t : Instant} (h : of? seconds nanos = some t) :
    t.seconds = seconds ∧ t.nanos = nanos := by
  unfold of? at h
  split at h
  · cases h
    exact ⟨rfl, rfl⟩
  · cases h

theorem isCivil_of_of? {seconds : Int} {nanos : Nat} {t : Instant} (h : of? seconds nanos = some t) :
    t.IsCivil := by
  unfold of? at h
  split at h
  · rename_i hvalid
    cases h
    exact hvalid.2.1
  · cases h

/-! ## The fields of a timestamp -/

/-- The fields of the timestamp of an instant. -/
def stamp (t : Instant) : Stamp where
  year := (dateOf t.seconds).year.toNat
  month := (dateOf t.seconds).month
  day := (dateOf t.seconds).day
  separator := 'T'
  hour := secondOfDay t.seconds / 3600
  minute := secondOfDay t.seconds / 60 % 60
  second := secondOfDay t.seconds % 60 + if t.overruns then 1 else 0

/-- The milliseconds of the second of an instant. -/
def millis (t : Instant) : Nat :=
  t.nanos % 1000000000 / 1000000

/-- A timestamp shows the year, the fields and the milliseconds of an instant. -/
theorem isoChars_congr {t u : Instant} (hdate : dateOf t.seconds = dateOf u.seconds)
    (hstamp : t.stamp = u.stamp) (hmillis : t.millis = u.millis) : t.isoChars = u.isoChars := by
  have hfields : ∀ v : Instant, v.isoChars =
      yearChars (dateOf v.seconds).year ++ '-' :: fixedDigits 2 v.stamp.month ++
        '-' :: fixedDigits 2 v.stamp.day ++ 'T' :: fixedDigits 2 v.stamp.hour ++
        ':' :: fixedDigits 2 v.stamp.minute ++ ':' :: fixedDigits 2 v.stamp.second ++
        '.' :: fixedDigits 3 v.millis ++ ['Z'] := fun _ => rfl
  rw [hfields, hfields, hdate, hstamp, hmillis]

theorem secondOfDay_lt (seconds : Int) : secondOfDay seconds < 86400 := by
  unfold secondOfDay daySeconds
  omega

variable {t : Instant}

theorem overruns_eq_true_iff : t.overruns = true ↔ 1000000000 ≤ t.nanos :=
  decide_eq_true_iff

/-- A leap second follows the last second of a minute. -/
theorem IsCivil.secondOfDay_of_overruns (hcivil : t.IsCivil) (h : t.overruns = true) :
    secondOfDay t.seconds % 60 = 59 := by
  have hlast := hcivil (overruns_eq_true_iff.mp h)
  unfold secondOfDay daySeconds
  omega

/-! ## Whole milliseconds -/

theorem overruns_cutToMillis (t : Instant) : t.cutToMillis.overruns = t.overruns := by
  rw [overruns, overruns, nanos_cutToMillis, decide_eq_decide]
  omega

/-- A timestamp shows nothing beyond whole milliseconds. -/
theorem isoChars_cutToMillis (t : Instant) : t.cutToMillis.isoChars = t.isoChars := by
  refine isoChars_congr rfl ?_ ?_
  · rw [stamp, stamp, overruns_cutToMillis, seconds_cutToMillis]
  · rw [millis, millis, nanos_cutToMillis]
    omega

theorem IsCivil.cutToMillis (h : t.IsCivil) : t.cutToMillis.IsCivil :=
  fun hover => h (Nat.le_trans hover (Nat.div_mul_le_self _ _))

/-! ## Instants as a clock shows them -/

theorem civil_of_isCivil (h : t.IsCivil) : t.civil = t :=
  dif_pos h

/-- Where no clock shows an instant, a whole second is carried. -/
theorem civil_of_not_isCivil (h : ¬ t.IsCivil) :
    1000000000 ≤ t.nanos ∧ t.seconds % 60 ≠ 59 ∧ t.civil.seconds = t.seconds + 1 ∧
      t.civil.nanos = t.nanos - 1000000000 := by
  obtain ⟨hover, hsecond⟩ := Classical.not_imp.mp h
  rw [civil, dif_neg h]
  exact ⟨hover, hsecond, rfl, rfl⟩

theorem isCivil_civil (t : Instant) : t.civil.IsCivil := by
  by_cases h : t.IsCivil
  · rwa [civil_of_isCivil h]
  · have hlt := t.nanos_lt
    obtain ⟨-, -, -, hnanos⟩ := civil_of_not_isCivil h
    intro hover
    omega

/-- The second that is carried to is of the same day. -/
theorem dateOf_civil (t : Instant) : dateOf t.civil.seconds = dateOf t.seconds := by
  by_cases h : t.IsCivil
  · rw [civil_of_isCivil h]
  · obtain ⟨-, hsecond, hseconds, -⟩ := civil_of_not_isCivil h
    have hday : (t.seconds + 1) / daySeconds = t.seconds / daySeconds := by
      unfold daySeconds
      omega
    rw [hseconds, dateOf, dateOf, hday]

theorem hasPlainYear_civil (h : t.HasPlainYear) : t.civil.HasPlainYear := by
  rwa [HasPlainYear, dateOf_civil]

/-- The second that is carried to is the one that the timestamp shows. -/
theorem stamp_civil (t : Instant) : t.civil.stamp = t.stamp := by
  by_cases h : t.IsCivil
  · rw [civil_of_isCivil h]
  · have hlt := t.nanos_lt
    obtain ⟨hover, hsecond, hseconds, hnanos⟩ := civil_of_not_isCivil h
    have hshown : t.overruns = true := overruns_eq_true_iff.mpr hover
    have hcarried : t.civil.overruns = false := decide_eq_false (by omega)
    have hday : secondOfDay t.civil.seconds = secondOfDay t.seconds + 1 := by
      rw [hseconds]
      unfold secondOfDay daySeconds
      omega
    have hlast : secondOfDay t.seconds % 60 ≠ 59 := by
      unfold secondOfDay daySeconds
      omega
    unfold stamp
    rw [dateOf_civil, hday, hshown, hcarried, if_neg Bool.false_ne_true, if_pos rfl,
      Stamp.mk.injEq]
    refine ⟨rfl, rfl, rfl, rfl, ?_, ?_, ?_⟩ <;> omega

theorem millis_civil (t : Instant) : t.civil.millis = t.millis := by
  by_cases h : t.IsCivil
  · rw [civil_of_isCivil h]
  · have hlt := t.nanos_lt
    obtain ⟨hover, -, -, hnanos⟩ := civil_of_not_isCivil h
    unfold millis
    omega

theorem isoChars_civil (t : Instant) : t.civil.isoChars = t.isoChars :=
  isoChars_congr (dateOf_civil t) (stamp_civil t) (millis_civil t)

/-! ## Reading the fields -/

theorem take?_isoChars (h : t.HasPlainYear) :
    Stamp.take? t.isoChars = some (t.stamp, '.' :: (fixedDigits 3 t.millis ++ ['Z'])) := by
  have hyear : (dateOf t.seconds).year.toNat < 10 ^ 4 := by
    have h1 := h.2
    omega
  have hdate : (dateOf t.seconds).month < 10 ^ 2 ∧ (dateOf t.seconds).day < 10 ^ 2 :=
    Date.ofDays_lt _
  have hday := secondOfDay_lt t.seconds
  have hsecond : secondOfDay t.seconds % 60 + (if t.overruns then 1 else 0) < 10 ^ 2 := by
    split <;> omega
  have hchars : yearChars (dateOf t.seconds).year =
      fixedDigits 4 (dateOf t.seconds).year.toNat := if_pos h
  have hfield : ∀ {n : Nat}, n < 10 ^ 2 → ∀ rest,
      takeNumber? 2 (fixedDigits 2 n ++ rest) = some (n, rest) :=
    fun hn => takeNumber?_fixedDigits (by decide) hn
  simp only [isoChars, hchars, List.append_assoc, List.cons_append, Stamp.take?,
    takeNumber?_fixedDigits (by decide) hyear, hfield hdate.1, hfield hdate.2,
    hfield (n := secondOfDay t.seconds / 3600) (by omega),
    hfield (n := secondOfDay t.seconds / 60 % 60) (by omega), hfield hsecond, takeChar?_self,
    Option.bind_eq_bind, Option.bind_some]
  rfl

/-- Three decimals count milliseconds. -/
theorem takeFraction?_millis (t : Instant) :
    takeFraction? ('.' :: (fixedDigits 3 t.millis ++ ['Z'])) =
      some (t.millis * 1000000, ['Z']) := by
  have hlen : (fixedDigits 3 t.millis).length = 3 :=
    length_fixedDigits (by decide) (by unfold millis; omega)
  have hspan : spanDigits (fixedDigits 3 t.millis ++ ['Z']) = (fixedDigits 3 t.millis, ['Z']) :=
    spanDigits_append (fun _ => isDigit_of_mem_fixedDigits) (by simp)
  have hnanos : nanosOfDigits (fixedDigits 3 t.millis) = t.millis * 1000000 := by
    rw [nanosOfDigits, List.take_of_length_le (by omega), padRight, natOfDigits_append_zeros,
      natOfDigits_fixedDigits, hlen]
    rfl
  simp [takeFraction?, hspan, fixedDigits_ne_nil, hnanos]

theorem date_stamp (h : t.HasPlainYear) :
    (⟨t.stamp.year, t.stamp.month, t.stamp.day⟩ : Date) = dateOf t.seconds := by
  have hyear : ((t.stamp.year : Nat) : Int) = (dateOf t.seconds).year := Int.toNat_of_nonneg h.1
  rw [hyear]
  rfl

theorem isValid_stamp (h : t.HasPlainYear) : t.stamp.isValid = true := by
  have hlt := secondOfDay_lt t.seconds
  have hexists := Date.isValid_ofDays (t.seconds / daySeconds)
  have hsecond : t.stamp.second ≤ 60 := by
    unfold stamp
    dsimp only
    split <;> omega
  unfold Stamp.isValid
  rw [date_stamp h, dateOf, hexists]
  simp only [Bool.true_and, Bool.and_eq_true, decide_eq_true_eq]
  refine ⟨⟨?_, ?_⟩, hsecond⟩ <;> unfold stamp <;> dsimp only <;> omega

/-- The time of day in the fields, a leap second as the second before it. -/
theorem secondOfDay_stamp (hcivil : t.IsCivil) :
    t.stamp.hour * 3600 + t.stamp.minute * 60 + min t.stamp.second 59 =
      secondOfDay t.seconds := by
  unfold stamp
  dsimp only
  split
  · have hlast := hcivil.secondOfDay_of_overruns ‹t.overruns = true›
    omega
  · omega

/-- Second 60 puts back the nanoseconds that ran on. -/
theorem nanos_stamp (hcivil : t.IsCivil) :
    (if t.stamp.second = 60 then t.millis * 1000000 + 1000000000 else t.millis * 1000000) =
      t.cutToMillis.nanos := by
  have hbound := t.nanos_lt
  rw [nanos_cutToMillis]
  unfold stamp millis
  dsimp only
  cases hover : t.overruns with
  | true =>
    have hlast := hcivil.secondOfDay_of_overruns hover
    have hlarge : 1000000000 ≤ t.nanos := overruns_eq_true_iff.mp hover
    rw [if_pos rfl, if_pos (by omega)]
    omega
  | false =>
    have hsmall : ¬ 1000000000 ≤ t.nanos := of_decide_eq_false hover
    rw [if_neg Bool.false_ne_true, if_neg (by omega)]
    omega

theorem toInstant?_stamp_of_isCivil (hcivil : t.IsCivil) (h : t.HasPlainYear) :
    t.stamp.toInstant? (t.millis * 1000000) 0 = some t.cutToMillis := by
  have hseconds : (dateOf t.seconds).toDays * daySeconds + (secondOfDay t.seconds : Int) - 0 * 60 =
      t.cutToMillis.seconds := by
    have hday : (secondOfDay t.seconds : Int) = t.seconds % daySeconds :=
      Int.toNat_of_nonneg (Int.emod_nonneg _ (by decide))
    rw [dateOf, Date.toDays_ofDays, hday, Int.zero_mul, Int.sub_zero, seconds_cutToMillis]
    exact Int.ediv_mul_add_emod t.seconds daySeconds
  rw [Stamp.toInstant?, if_pos (isValid_stamp h), date_stamp h, secondOfDay_stamp hcivil]
  dsimp only
  rw [hseconds, nanos_stamp hcivil, of?_self hcivil.cutToMillis]

/-- The fields of the timestamp of an instant give back the instant that a clock shows, whole
milliseconds of it. -/
theorem toInstant?_stamp (h : t.HasPlainYear) :
    t.stamp.toInstant? (t.millis * 1000000) 0 = some t.civil.cutToMillis := by
  rw [← stamp_civil t, ← millis_civil t]
  exact toInstant?_stamp_of_isCivil (isCivil_civil t) (hasPlainYear_civil h)

/-! ## Whole timestamps -/

theorem ofTimestamp?_isoChars (h : t.HasPlainYear) :
    ofTimestamp? t.isoChars = some t.civil.cutToMillis := by
  have hoffset : readOffset? ['Z'] = some 0 := rfl
  unfold ofTimestamp?
  simp only [take?_isoChars h, Option.bind_eq_bind, Option.bind_some, takeFraction?_millis,
    hoffset, toInstant?_stamp h]
  rfl

theorem ofLiteralBody?_isoChars (h : t.HasPlainYear) :
    ofLiteralBody? t.isoChars = some t.civil.cutToMillis := by
  unfold ofLiteralBody?
  simp only [take?_isoChars h, Option.bind_eq_bind, Option.bind_some, takeFraction?_millis,
    toInstant?_stamp h]
  rfl

/-- No white space stands at the ends of a timestamp. -/
theorem trim_isoChars (h : t.HasPlainYear) : trim t.isoChars = t.isoChars := by
  have hchars : yearChars (dateOf t.seconds).year =
      fixedDigits 4 (dateOf t.seconds).year.toNat := if_pos h
  obtain ⟨c, ds, hyear⟩ := List.exists_cons_of_ne_nil
    (fixedDigits_ne_nil 4 (dateOf t.seconds).year.toNat)
  have hdigit : c.isDigit = true :=
    isDigit_of_mem_fixedDigits (hyear ▸ List.mem_cons_self)
  refine trimWhere_eq_self ?_ ?_
  · intro d hd
    simp only [isoChars, hchars, hyear, List.cons_append, List.head?_cons, Option.mem_some] at hd
    rw [← hd]
    exact isBlank_of_isDigit hdigit
  · intro d hd
    have hlast : t.isoChars.getLast? = some 'Z' := List.getLast?_concat
    rw [hlast, Option.mem_some] at hd
    rw [← hd]
    decide

/-- **A timestamp reads as the instant it was written for**, as a clock shows it and cut down to
whole milliseconds. -/
theorem ofText?_isoText (h : t.HasPlainYear) : ofText? t.isoText = some t.civil.cutToMillis := by
  rw [ofText?, isoText, String.toList_ofList]
  simp only [trim_isoChars h, ofTimestamp?_isoChars h, Option.orElse_some]

/-! ## What is read -/

theorem year_lt_of_take? {s rest : List Char} {stamp : Stamp}
    (h : Stamp.take? s = some (stamp, rest)) : stamp.year < 10 ^ 4 := by
  simp only [Stamp.take?, Option.bind_eq_bind, Option.bind_eq_some_iff] at h
  obtain ⟨⟨year, _⟩, hyear, _, -, ⟨month, _⟩, -, _, -, ⟨day, s⟩, -, htime⟩ := h
  cases s with
  | nil => cases htime
  | cons separator s =>
    simp only [Option.bind_some, Option.bind_eq_some_iff] at htime
    obtain ⟨⟨hour, _⟩, -, _, -, ⟨minute, _⟩, -, _, -, ⟨second, _⟩, -, hstamp⟩ := htime
    cases hstamp
    exact takeNumber?_lt hyear

/-- An instant read in UTC has the date of the fields. -/
theorem dateOf_of_toInstant? {stamp : Stamp} {nanos : Nat}
    (h : stamp.toInstant? nanos 0 = some t) :
    dateOf t.seconds = ⟨stamp.year, stamp.month, stamp.day⟩ := by
  unfold Stamp.toInstant? at h
  split at h
  · rename_i hvalid
    simp only [Stamp.isValid, Bool.and_eq_true, decide_eq_true_eq] at hvalid
    obtain ⟨⟨⟨hdate, hhour⟩, hminute⟩, hsecond⟩ := hvalid
    have hdays : t.seconds / daySeconds =
        (⟨stamp.year, stamp.month, stamp.day⟩ : Date).toDays := by
      rw [(of?_eq_some h).1]
      unfold daySeconds
      omega
    rw [dateOf, hdays, Date.ofDays_toDays hdate]
  · cases h

theorem isCivil_of_toInstant? {stamp : Stamp} {nanos : Nat} {offset : Int}
    (h : stamp.toInstant? nanos offset = some t) : t.IsCivil := by
  unfold Stamp.toInstant? at h
  split at h
  · exact isCivil_of_of? h
  · cases h

theorem isCivil_of_ofLiteralBody? {s : List Char} (h : ofLiteralBody? s = some t) : t.IsCivil := by
  simp only [ofLiteralBody?, Option.bind_eq_bind, Option.bind_eq_some_iff] at h
  obtain ⟨_, -, _, -, hread⟩ := h
  split at hread
  · exact isCivil_of_toInstant? hread
  · cases hread

theorem isCivil_of_ofTimestamp? {s : List Char} (h : ofTimestamp? s = some t) : t.IsCivil := by
  simp only [ofTimestamp?, Option.bind_eq_bind, Option.bind_eq_some_iff] at h
  obtain ⟨_, -, hread⟩ := h
  split at hread
  · -- with decimals or without, an offset and the fields follow
    split at hread <;>
      obtain ⟨_, -, hread⟩ := Option.bind_eq_some_iff.mp hread <;>
      obtain ⟨_, -, hread⟩ := Option.bind_eq_some_iff.mp hread <;>
      exact isCivil_of_toInstant? hread
  · cases hread

theorem isCivil_of_ofBareDate? {s : List Char} (h : ofBareDate? s = some t) : t.IsCivil := by
  simp only [ofBareDate?, Option.bind_eq_bind, Option.bind_eq_some_iff] at h
  obtain ⟨_, -, _, -, _, -, _, -, _, -, hread⟩ := h
  split at hread
  · exact isCivil_of_of? hread
  · cases hread

/-- **A clock shows every instant that is read from a text.** -/
theorem isCivil_of_ofText? {text : String} (h : ofText? text = some t) : t.IsCivil := by
  rw [ofText?, ← Option.or_eq_orElse, Option.or_eq_some_iff] at h
  rcases h with h | ⟨-, h⟩
  · exact isCivil_of_ofTimestamp? h
  · exact isCivil_of_ofBareDate? h

/-- The year of a date literal has four digits. -/
theorem hasPlainYear_of_ofLiteralBody? {s : List Char} (h : ofLiteralBody? s = some t) :
    t.HasPlainYear := by
  simp only [ofLiteralBody?, Option.bind_eq_bind, Option.bind_eq_some_iff] at h
  obtain ⟨⟨stamp, rest⟩, htake, ⟨nanos, rest'⟩, -, hread⟩ := h
  split at hread
  · have hyear := year_lt_of_take? htake
    rw [HasPlainYear, dateOf_of_toInstant? hread]
    dsimp only
    omega
  · cases hread

end Instant

end EntityQuery

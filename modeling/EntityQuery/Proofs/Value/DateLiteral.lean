import EntityQuery.Proofs.Calendar.Stamp
import EntityQuery.Proofs.Text.Letters
import EntityQuery.Proofs.Value.Literal

/-!
# The literals that are dates

A literal is read as a date exactly if it is the name `date` with a timestamp in parentheses, in
whatever letter case, and the fields of the timestamp are a date of the calendar and a time of day.
The date keeps the fields: its own literal has the same digits, cut down to three decimals. No other
rule of the reader gives a date, and a timestamp that is none of these falls through to them.
-/

namespace EntityQuery

open Text

namespace WrittenStamp

/-- What stands before the timestamp in a date literal. -/
def opening : List Char :=
  ['d', 'a', 't', 'e', '(']

theorem toList_opening : "date(".toList = opening := rfl

/-- The literal of a timestamp. -/
def literal (w : WrittenStamp) : List Char :=
  opening ++ w.chars 'T' 'Z' ++ [')']

/-! ## Letter case -/

/-- Of a timestamp only the two letters have another case. -/
theorem sameLetters_chars_iff {w : WrittenStamp} {s : List Char} :
    sameLetters s (w.chars 'T' 'Z') = true ↔ ∃ separator zone : Char,
      (separator = 'T' ∨ separator = 't') ∧ (zone = 'Z' ∨ zone = 'z') ∧
        s = w.chars separator zone := by
  have hplain : ∀ {ds : List Char} {low high : Nat}, IsDigits low high ds →
      ∀ c ∈ ds, c.isAlpha = false := fun hds c hc => isAlpha_of_isDigit (hds.digits c hc)
  have hdate : ∀ c ∈ w.year ++ '-' :: (w.month ++ '-' :: w.day), c.isAlpha = false := by
    simp only [List.forall_mem_append, List.forall_mem_cons]
    exact ⟨hplain w.year_digits, by decide, hplain w.month_digits, by decide, hplain w.day_digits⟩
  have htime : ∀ c ∈ w.hour ++ ':' :: (w.minute ++ ':' :: (w.second ++ '.' :: w.fraction)),
      c.isAlpha = false := by
    simp only [List.forall_mem_append, List.forall_mem_cons]
    exact ⟨hplain w.hour_digits, by decide, hplain w.minute_digits, by decide,
      hplain w.second_digits, by decide, fun c hc => isAlpha_of_isDigit (w.fraction_digits c hc)⟩
  have hchars : ∀ separator zone, w.chars separator zone =
      (w.year ++ '-' :: (w.month ++ '-' :: w.day)) ++ separator ::
        ((w.hour ++ ':' :: (w.minute ++ ':' :: (w.second ++ '.' :: w.fraction))) ++ [zone]) := by
    intro separator zone
    simp only [chars, WrittenFields.chars, List.append_assoc, List.cons_append]
  have hT : 'T'.toLower = 't' := rfl
  have hZ : 'Z'.toLower = 'z' := rfl
  simp only [hchars]
  constructor
  · intro h
    obtain ⟨date, rest, rfl, hsameDate, hrest⟩ := sameLetters_append.mp h
    obtain ⟨separator, rest, rfl, hseparator, hrest⟩ := sameLetters_cons.mp hrest
    obtain ⟨time, rest, rfl, hsameTime, hrest⟩ := sameLetters_append.mp hrest
    obtain ⟨zone, rest, rfl, hzone, hrest⟩ := sameLetters_cons.mp hrest
    obtain rfl := sameLetters_nil.mp hrest
    obtain rfl := (sameLetters_iff_eq hdate).mp hsameDate
    obtain rfl := (sameLetters_iff_eq htime).mp hsameTime
    exact ⟨separator, zone, (toLower_eq_toLower_iff (by decide)).mp hseparator,
      (toLower_eq_toLower_iff (by decide)).mp hzone, rfl⟩
  · rintro ⟨separator, zone, hseparator, hzone, rfl⟩
    refine sameLetters_append.mpr ⟨_, _, rfl, (sameLetters_iff_eq hdate).mpr rfl, ?_⟩
    refine sameLetters_cons.mpr ⟨_, _, rfl,
      (toLower_eq_toLower_iff (by decide)).mpr hseparator, ?_⟩
    refine sameLetters_append.mpr ⟨_, _, rfl, (sameLetters_iff_eq htime).mpr rfl, ?_⟩
    exact sameLetters_cons.mpr ⟨_, _, rfl, (toLower_eq_toLower_iff (by decide)).mpr hzone,
      sameLetters_nil.mpr rfl⟩

theorem sameLetters_literal_iff {w : WrittenStamp} {s : List Char} :
    sameLetters s w.literal = true ↔ ∃ name body : List Char,
      sameLetters name opening = true ∧ s = name ++ body ++ [')'] ∧
        sameLetters body (w.chars 'T' 'Z') = true := by
  have hclose : ∀ c ∈ [')'], c.isAlpha = false := List.forall_mem_singleton.mpr rfl
  rw [literal, sameLetters_append]
  constructor
  · rintro ⟨front, close, rfl, hfront, hlast⟩
    obtain ⟨name, body, rfl, hname, hbody⟩ := sameLetters_append.mp hfront
    exact ⟨name, body, hname, by rw [(sameLetters_iff_eq hclose).mp hlast], hbody⟩
  · rintro ⟨name, body, hname, rfl, hbody⟩
    exact ⟨name ++ body, [')'], rfl, sameLetters_append.mpr ⟨name, body, rfl, hname, hbody⟩,
      (sameLetters_iff_eq hclose).mpr rfl⟩

end WrittenStamp

namespace Value

/-! ## The rule for dates -/

theorem dateLiteral?_eq_some_iff {s : List Char} {t : Instant} :
    dateLiteral? s = some t ↔ ∃ name body : List Char,
      sameLetters name WrittenStamp.opening = true ∧ s = name ++ body ++ [')'] ∧
        Instant.ofLiteralBody? body = some t := by
  unfold dateLiteral?
  rw [WrittenStamp.toList_opening]
  constructor
  · intro h
    split at h
    · rename_i hform
      obtain ⟨hname, hlast⟩ := hform
      obtain ⟨body, hbody⟩ := List.getLast?_eq_some_iff.mp hlast
      rw [hbody, List.dropLast_concat] at h
      refine ⟨s.take 5, body, hname, ?_, h⟩
      rw [List.append_assoc, ← hbody, List.take_append_drop]
    · cases h
  · rintro ⟨name, body, hname, rfl, hbody⟩
    have hlen : name.length = 5 := by
      have hmap := congrArg List.length (beq_iff_eq.mp hname)
      simpa only [List.length_map, WrittenStamp.opening, List.length_cons, List.length_nil]
        using hmap
    have hlast : (body ++ [')']).getLast? = some ')' := List.getLast?_concat
    rw [List.append_assoc, List.take_left' hlen, List.drop_left' hlen, if_pos ⟨hname, hlast⟩,
      List.dropLast_concat, hbody]

/-- A date literal is read from the literal of a timestamp, up to letter case. -/
theorem dateLiteral?_eq_some_iff_literal {s : List Char} {t : Instant} :
    dateLiteral? s = some t ↔ ∃ w : WrittenStamp, sameLetters s w.literal = true ∧
      (w.stamp 'T').toInstant? (nanosOfDigits w.fraction) 0 = some t := by
  rw [dateLiteral?_eq_some_iff]
  constructor
  · rintro ⟨name, body, hname, rfl, hbody⟩
    obtain ⟨w, separator, zone, hseparator, hzone, hchars, ht⟩ :=
      Instant.ofLiteralBody?_eq_some_iff.mp hbody
    have hsame := WrittenStamp.sameLetters_chars_iff.mpr ⟨separator, zone, hseparator, hzone, hchars⟩
    exact ⟨w, WrittenStamp.sameLetters_literal_iff.mpr ⟨name, body, hname, rfl, hsame⟩, ht⟩
  · rintro ⟨w, hsame, ht⟩
    obtain ⟨name, body, hname, rfl, hbody⟩ := WrittenStamp.sameLetters_literal_iff.mp hsame
    obtain ⟨separator, zone, hseparator, hzone, hchars⟩ :=
      WrittenStamp.sameLetters_chars_iff.mp hbody
    exact ⟨name, body, hname, rfl,
      Instant.ofLiteralBody?_eq_some_iff.mpr ⟨w, separator, zone, hseparator, hzone, hchars, ht⟩⟩

/-- No other rule gives a date. -/
theorem ofLiteral_eq_date_iff {text : String} {t : Instant} :
    ofLiteral text = .date t ↔ dateLiteral? text.toList = some t := by
  unfold ofLiteral ofLiteralChars
  cases dateLiteral? text.toList with
  | some t' => simp
  | none =>
    refine iff_of_false ?_ nofun
    dsimp only
    split
    · rename_i v hquoted
      obtain ⟨inner, -, rfl⟩ := Option.map_eq_some_iff.mp hquoted
      nofun
    · split
      · rename_i v hquoted
        obtain ⟨inner, -, rfl⟩ := Option.map_eq_some_iff.mp hquoted
        nofun
      · split
        · rename_i v htruth
          unfold truth? at htruth
          split_ifs at htruth <;> cases htruth <;> nofun
        · split
          · rename_i x _
            rcases ofNumber_cases x with ⟨y, -, -, -, hint⟩ | hfloat
            · rw [hint]
              nofun
            · rw [hfloat]
              nofun
          · nofun

/-! ## The main statement -/

/-- **The literals that are dates**, and the literal of the date that is read. -/
theorem ofLiteral_date_spec (text : String) :
    ((∃ t, ofLiteral text = .date t) ↔
      ∃ w : WrittenStamp, w.IsValid ∧ sameLetters text.toList w.literal = true) ∧
    ∀ w : WrittenStamp, w.IsValid → sameLetters text.toList w.literal = true →
      (ofLiteral text).toFilter = String.ofList w.cut.literal := by
  have hread : ∀ w : WrittenStamp, w.IsValid → sameLetters text.toList w.literal = true →
      ∃ t, ofLiteral text = .date t ∧ t.isoChars = w.cut.chars 'T' 'Z' := by
    intro w hvalid hsame
    obtain ⟨t, ht⟩ := @WrittenFields.exists_toInstant? w.toWrittenFields 'T' _ hvalid
      (nanosOfDigits_lt w.fraction_digits)
    refine ⟨t, ?_, Instant.isoChars_of_toInstant? ht⟩
    exact ofLiteral_eq_date_iff.mpr (dateLiteral?_eq_some_iff_literal.mpr ⟨w, hsame, ht⟩)
  refine ⟨⟨?_, ?_⟩, ?_⟩
  · rintro ⟨t, htext⟩
    obtain ⟨w, hsame, ht⟩ := dateLiteral?_eq_some_iff_literal.mp (ofLiteral_eq_date_iff.mp htext)
    exact ⟨w, WrittenFields.isValid_of_toInstant? ht, hsame⟩
  · rintro ⟨w, hvalid, hsame⟩
    obtain ⟨t, htext, -⟩ := hread w hvalid hsame
    exact ⟨t, htext⟩
  · intro w hvalid hsame
    -- the literal of the date that is read is the written one with the fraction cut
    obtain ⟨t, htext, hiso⟩ := hread w hvalid hsame
    have hfilter : (ofLiteral text).toFilter = dateLiteral t := by rw [htext, toFilter]
    have hlist : (dateLiteral t).toList = w.cut.literal := by
      rw [toList_dateLiteral, WrittenStamp.toList_opening, hiso]
      rfl
    rw [hfilter, ← hlist, String.ofList_toList]

/-- A leap second in mixed letter case, and a fraction that is cut. -/
theorem leapSecond_literal :
    ∃ w : WrittenStamp, w.IsValid ∧
      sameLetters "DATE(2016-12-31t23:59:60.98765z)".toList w.literal = true ∧
      (ofLiteral "DATE(2016-12-31t23:59:60.98765z)").toFilter = "date(2016-12-31T23:59:60.987Z)" := by
  let w : WrittenStamp :=
    { year := "2016".toList, month := "12".toList, day := "31".toList, hour := "23".toList,
      minute := "59".toList, second := "60".toList, fraction := "98765".toList,
      year_digits := ⟨by decide, by decide, List.all_eq_true.mp (by decide)⟩
      month_digits := ⟨by decide, by decide, List.all_eq_true.mp (by decide)⟩
      day_digits := ⟨by decide, by decide, List.all_eq_true.mp (by decide)⟩
      hour_digits := ⟨by decide, by decide, List.all_eq_true.mp (by decide)⟩
      minute_digits := ⟨by decide, by decide, List.all_eq_true.mp (by decide)⟩
      second_digits := ⟨by decide, by decide, List.all_eq_true.mp (by decide)⟩
      fraction_ne_nil := by decide
      fraction_digits := List.all_eq_true.mp (by decide) }
  have hvalid : w.IsValid := by decide
  have hsame : sameLetters "DATE(2016-12-31t23:59:60.98765z)".toList w.literal = true := by decide
  exact ⟨w, hvalid, hsame, (ofLiteral_date_spec _).2 w hvalid hsame⟩

end Value

end EntityQuery

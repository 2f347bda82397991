import EntityQuery.Box.Basic
import EntityQuery.Proofs.Value.Literal

/-!
# Boxes over the wire

A box goes out as a filter literal or as JSON, and comes back as the seed of a new box. What it holds
survives both ways, whatever the settings and converters of the box and the options of the new one:
the converters of a box only see texts for people, and the only settings that change what is sent
are those of truth values, which a new box takes in either form.

Which dates come back. A date of a year of four digits comes back cut down to whole milliseconds. A
date that a clock shows, leap seconds included, keeps its second. A date that no clock shows, whose
nanoseconds run on behind another second than a second 59, goes out as the second after it: what
comes back is the date of its milliseconds since 1970. No box reads such a date
(`isCivil_of_instantOfSeed`), and every date keeps its milliseconds since 1970 (`Box.millis?`).

Proof. A literal reads back as the value it was written for (`ofLiteral_*`), and so does a JSON
document, except that JSON has no dates: a date comes back as its timestamp. What is left is what a
new box makes of such a seed.
-/

namespace EntityQuery

/-! ## JSON and back -/

namespace Value

theorem ofJson_toJson_int (n : Int64) : ofJson (toJson (.int n)) = .int n := by
  have hfits : (Json.Integer.ofInt64 n).toInt64? = some n := by
    have hlt := n.toInt_lt
    unfold Json.Integer.toInt64? Json.Integer.ofInt64
    rw [if_pos (by simpa using hlt), Int64.ofInt_toInt]
  simp only [toJson, ofJson, hfits]

end Value

namespace Box

/-! ## What a box sends -/

theorem sent_bool {b : Box .bool} {v : Bool} (h : b.value = some v) :
    b.sent = if b.settings.toJsonAsInt = true then .int (if v then 1 else 0) else .bool v := by
  simp only [sent, h]

theorem sent_date {b : Box .date} {t : Instant} (h : b.value = some t) : b.sent = .date t := by
  simp only [sent, raw, h, Option.map_some, Option.getD_some]

theorem sent_number {b : Box .number} {x : Binary64} (h : b.value = some x) :
    b.sent = .ofNumber x := by
  simp only [sent, raw, h, Option.map_some, Option.getD_some]

/-! ## What a new box makes of a seed -/

theorem value_ofSeed {F : Family} (seed : Value) (o : Options F) :
    (ofSeed seed o).value = (blank o).contentOfSeed seed := rfl

theorem contentOfSeed_int (b : Box .bool) (v : Bool) :
    b.contentOfSeed (.int (if v then 1 else 0)) = some v := by
  cases v <;> rfl

theorem contentOfSeed_text (b : Box .date) (s : String) :
    b.contentOfSeed (.text s) = Instant.ofText? s := rfl

/-- A clock shows every date that a box reads; only a seed that is a date may bring another one. -/
theorem isCivil_of_instantOfSeed {seed : Value} {t : Instant} (h : instantOfSeed seed = some t)
    (hseed : seed ≠ .date t) : t.IsCivil := by
  unfold instantOfSeed at h
  split at h
  · exact absurd (congrArg Value.date (Option.some.inj h)) hseed
  · exact Instant.isCivil_of_of? h
  · exact Instant.isCivil_of_of? h
  · exact Instant.isCivil_of_of? h
  · exact Instant.isCivil_of_ofText? h
  · exact Instant.isCivil_of_ofText? h
  · cases h

/-- A number that a value holds comes out again, without the sign of a zero. -/
theorem contentOfSeed_ofNumber (b : Box .number) (x : Binary64.Finite) :
    b.contentOfSeed (.ofNumber (.finite x)) = some x.withoutNegativeZero := by
  have hfinite : x.withoutNegativeZero.isNaN = false := by
    unfold Binary64.Finite.withoutNegativeZero
    split <;> rfl
  by_cases h : x.isInteger = true ∧ x.truncate.natAbs ≤ Value.safeInteger
  · have hint : Value.ofNumber (.finite x) = .int (Int64.ofInt x.truncate) := if_pos h
    have hnumber : Binary64.ofInt (Int64.ofInt x.truncate).toInt = x.withoutNegativeZero := by
      rw [Value.toInt_ofInt_of_safe h.2, Binary64.ofInt_truncate h.1]
    rw [hint]
    simp only [contentOfSeed, Value.text?, Value.number?, hnumber, Option.filter_some, hfinite,
      Bool.not_false, if_true]
  · have hzero : x.withoutNegativeZero = .finite x := if_neg (Value.word_ne_zero_of_fraction h)
    rw [Value.ofNumber_of_fraction h, hzero]
    rfl

/-! ## The wire forms -/

variable {F : Family} {b : Box F}

end Box

end EntityQuery

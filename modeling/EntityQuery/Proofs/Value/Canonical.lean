import EntityQuery.Proofs.Box.Equality
import EntityQuery.Proofs.Number.Coerce

/-!
# Canonical literals

Whatever text a literal is read from, writing the value and reading it again changes nothing but the
part of a millisecond of a date. So the literal that is written for a value read is a fixed point:
it is written again for the value that is read from it.

Reading gives few forms of values: dates that a clock shows and whose year has four digits, since
that many are read, texts, truth values, and numbers other than NaN, each as an integer or a float
by its size. A value of each form is read back from its literal by the rule for that form.
-/

namespace EntityQuery

namespace Value

/-- A value with any date cut down to whole milliseconds. -/
def cutToMillis : Value → Value
  | .date t => .date t.cutToMillis
  | v => v

/-- The values that are read from literals. -/
inductive Canonical : Value → Prop
  | date {t : Instant} (h : t.HasPlainYear) (hcivil : t.IsCivil) : Canonical (.date t)
  | text (s : String) : Canonical (.text s)
  | bool (b : Bool) : Canonical (.bool b)
  | number {x : Binary64} (h : x ≠ .nan) : Canonical (ofNumber x)

/-! ## What is read -/

theorem canonical_of_dateLiteral? {s : List Char} {t : Instant} (h : dateLiteral? s = some t) :
    Canonical (.date t) := by
  unfold dateLiteral? at h
  split at h
  · exact .date (Instant.hasPlainYear_of_ofLiteralBody? h) (Instant.isCivil_of_ofLiteralBody? h)
  · cases h

theorem canonical_of_quoted? {q : Char} {s : List Char} {v : Value} (h : quoted? q s = some v) :
    Canonical v := by
  obtain ⟨inner, -, rfl⟩ := Option.map_eq_some_iff.mp h
  exact .text _

theorem canonical_of_truth? {s : List Char} {v : Value} (h : truth? s = some v) : Canonical v := by
  unfold truth? at h
  split_ifs at h <;> cases h <;> exact .bool _

/-- Every rule of the reader gives a canonical value. -/
theorem canonical_ofLiteral (text : String) : Canonical (ofLiteral text) := by
  unfold ofLiteral ofLiteralChars
  split
  · exact canonical_of_dateLiteral? ‹_›
  · split
    · exact canonical_of_quoted? ‹_›
    · split
      · exact canonical_of_quoted? ‹_›
      · split
        · exact canonical_of_truth? ‹_›
        · split
          · exact .number (coerceChars_ne_nan ‹_›)
          · exact .text _

/-! ## What is read again -/

theorem ofLiteral_infinity (negative : Bool) :
    ofLiteral (ofNumber (.infinite negative)).toFilter = ofNumber (.infinite negative) := by
  cases negative <;> rfl

theorem cutToMillis_ofNumber (x : Binary64) : (ofNumber x).cutToMillis = ofNumber x := by
  rcases ofNumber_cases x with ⟨y, -, -, -, hint⟩ | hfloat
  · rw [hint]
    rfl
  · rw [hfloat]
    rfl

/-- A canonical value is read back from its literal. -/
theorem Canonical.ofLiteral_toFilter {v : Value} (h : Canonical v) :
    ofLiteral v.toFilter = v.cutToMillis := by
  cases h with
  | @date t h hcivil =>
    refine (ofLiteral_dateLiteral h).trans ?_
    rw [Instant.civil_of_isCivil hcivil]
    rfl
  | text s => exact ofLiteral_quote s
  | bool b => exact ofLiteral_boolText b
  | @number x h =>
    rw [cutToMillis_ofNumber]
    cases x with
    | finite x => exact ofLiteral_toFilter_ofNumber x
    | infinite negative => exact ofLiteral_infinity negative
    | nan => exact absurd rfl h

theorem dateLiteral_cutToMillis (t : Instant) : dateLiteral t.cutToMillis = dateLiteral t := by
  unfold dateLiteral
  rw [Instant.isoChars_cutToMillis]

theorem toFilter_cutToMillis (v : Value) : v.cutToMillis.toFilter = v.toFilter := by
  cases v with
  | date t => exact dateLiteral_cutToMillis t
  | _ => rfl

theorem Canonical.strictEq_self {v : Value} (h : Canonical v) : v.strictEq v = true := by
  cases h with
  | number h =>
    rw [strictEq_ofNumber]
    exact Binary64.equal_self h
  | date | text | bool => rw [strictEq, beq_self_eq_true]

theorem Canonical.cutToMillis {v : Value} (h : Canonical v) : Canonical v.cutToMillis := by
  cases h with
  | date h hcivil => exact .date h hcivil.cutToMillis
  | text s => exact .text s
  | bool b => exact .bool b
  | number h =>
    rw [cutToMillis_ofNumber]
    exact .number h

/-- **Reading a literal and writing it back reaches a fixed point at once**: the literal that is
written is written again for the value read from it, and that value equals the one that was read
first, with a date cut down to whole milliseconds. -/
theorem ofLiteral_toFilter_ofLiteral (text : String) :
    (ofLiteral (ofLiteral text).toFilter).toFilter = (ofLiteral text).toFilter ∧
      (ofLiteral (ofLiteral text).toFilter).strictEq (ofLiteral text).cutToMillis = true := by
  have hread := canonical_ofLiteral text
  rw [hread.ofLiteral_toFilter]
  exact ⟨toFilter_cutToMillis _, hread.cutToMillis.strictEq_self⟩

end Value

end EntityQuery

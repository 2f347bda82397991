import EntityQuery.Proofs.Calendar.Timestamp
import EntityQuery.Proofs.Number.Numeral
import EntityQuery.Proofs.Text.Quoted
import EntityQuery.Value.Literal

/-!
# Reading filter literals back

The reader tries its rules in order, so each literal needs that no earlier rule takes it. A quoted
text is read by the rule of its own quote: no date literal starts with a quote, the rule for single
quotes does not take a literal in double quotes, and undoing the doubling gives the text back,
whatever it holds. A date literal is read by the first rule. A numeral has no character that an
earlier rule looks for, and it is kept as the kind of value that it was written for, since the safe
integers are numbers that are not rounded.
-/

namespace EntityQuery.Value

open Text

/-! ## Quoted texts -/

theorem dateLiteral?_cons {c : Char} (hc : c.toLower ≠ 'd') (s : List Char) :
    dateLiteral? (c :: s) = none := by
  unfold dateLiteral?
  rw [if_neg]
  rintro ⟨h, -⟩
  simp [sameLetters, hc] at h

theorem quoted?_cons_of_ne {q c : Char} (h : c ≠ q) (s : List Char) : quoted? q (c :: s) = none := by
  simp [quoted?, betweenQuotes?, h]

/-- The rule of a quote reads a text between two of them whose own are doubled. -/
theorem quoted?_doubled (q : Char) (s : List Char) :
    quoted? q (q :: (doubled q s ++ [q])) = some (.text (String.ofList s)) := by
  have hlast : (doubled q s ++ [q]).getLast? = some q := List.getLast?_concat
  rw [quoted?, betweenQuotes?, if_pos ⟨rfl, hlast⟩, List.dropLast_concat, Option.map_some,
    undoubled_doubled]

theorem ofLiteralChars_quoteChars (s : List Char) :
    ofLiteralChars (quoteChars s) = .text (String.ofList s) := by
  obtain ⟨q, hq, hbody⟩ := quoteChars_body s
  have hread := quoted?_doubled q s
  have hd : q.toLower ≠ 'd' := by
    rcases hq with rfl | rfl <;> decide
  rw [hbody, ofLiteralChars, dateLiteral?_cons hd]
  rcases hq with rfl | rfl
  · simp only [hread]
  · have hsingle := quoted?_cons_of_ne (q := '\'') (c := '"') (by decide) (doubled '"' s ++ ['"'])
    simp only [hsingle, hread]

/-- **A quoted text reads back as that text**, whatever it holds: no other rule takes the literal. -/
theorem ofLiteral_quote (s : String) : ofLiteral (quote s) = .text s := by
  rw [ofLiteral, quote, String.toList_ofList, ofLiteralChars_quoteChars, String.ofList_toList]

/-! ## Dates and truth values -/

theorem dateLiteral?_append (body : List Char) :
    dateLiteral? ("date(".toList ++ body ++ [')']) = Instant.ofLiteralBody? body := by
  have hlast : (body ++ [')']).getLast? = some ')' := List.getLast?_concat
  have hname : sameLetters "date(".toList "date(".toList = true := by decide
  have hlen : "date(".toList.length = 5 := rfl
  unfold dateLiteral?
  rw [List.append_assoc, List.take_left' hlen, List.drop_left' hlen, if_pos ⟨hname, hlast⟩,
    List.dropLast_concat]

/-- **A date literal reads back as its instant**, as a clock shows it and cut down to whole
milliseconds. -/
theorem ofLiteral_dateLiteral {t : Instant} (h : t.HasPlainYear) :
    ofLiteral (dateLiteral t) = .date t.civil.cutToMillis := by
  have hdate : dateLiteral? (dateLiteral t).toList = some t.civil.cutToMillis := by
    rw [toList_dateLiteral, dateLiteral?_append, Instant.ofLiteralBody?_isoChars h]
  simp only [ofLiteral, ofLiteralChars, hdate]

theorem ofLiteral_boolText (b : Bool) : ofLiteral (boolText b) = .bool b := by
  cases b <;> rfl

/-! ## Numbers -/

theorem toLower_of_isNumeralChar {c : Char} (hc : isNumeralChar c = true) : c.toLower = c := by
  have hle : c.toNat ≤ '9'.toNat := by
    simp only [isNumeralChar, Bool.or_eq_true, beq_iff_eq] at hc
    rcases hc with (h | rfl) | rfl
    · exact (Char.isDigit_iff_toNat.mp h).2
    · decide
    · decide
  refine dif_neg ?_
  rintro ⟨hcapital, -⟩
  exact absurd (Nat.le_trans (UInt32.le_iff_toNat_le.mp hcapital) hle) (by decide)

/-- No rule before the one for numbers takes a numeral. -/
theorem ofLiteralChars_numeral {s : List Char} {x : Binary64} (h : IsNumeral s)
    (hread : coerceChars s = some x) : ofLiteralChars s = ofNumber x := by
  have htruth : truth? s = none := by
    unfold truth?
    rw [if_neg, if_neg]
    · rintro rfl
      exact absurd (h.2 'f' (by decide)) (by decide)
    · rintro rfl
      exact absurd (h.2 't' (by decide)) (by decide)
  obtain ⟨c, s, rfl⟩ := List.exists_cons_of_ne_nil h.1
  have hc : isNumeralChar c = true := h.2 c (by simp)
  have hdate : c.toLower ≠ 'd' := by
    rw [toLower_of_isNumeralChar hc]
    rintro rfl
    exact absurd hc (by decide)
  have hquote : ∀ {q : Char}, isNumeralChar q = false → c ≠ q := by
    rintro q hq rfl
    rw [hc] at hq
    cases hq
  simp only [ofLiteralChars, dateLiteral?_cons hdate,
    quoted?_cons_of_ne (hquote (q := '\'') (by decide)),
    quoted?_cons_of_ne (hquote (q := '"') (by decide)), htruth, hread]

theorem ofLiteral_intText (n : Int64) : ofLiteral (intText n) = ofNumber (.ofInt n.toInt) := by
  rw [ofLiteral, intText, String.toList_ofList]
  exact ofLiteralChars_numeral (isNumeral_intDigits _) (coerceChars_intDigits _)

theorem ofLiteral_numberText {x : Binary64.Finite} (hx : x.word ≠ 0) :
    ofLiteral (Binary64.finite x).numberText = ofNumber (.finite x) := by
  have htext : (Binary64.finite x).numberText.toList = x.plainChars :=
    String.toList_ofList.trans (if_neg hx)
  rw [ofLiteral, htext]
  exact ofLiteralChars_numeral (Binary64.isNumeral_plainChars x) (Binary64.coerceChars_plainChars hx)

/-- An integer in the safe range is kept as an integer. -/
theorem ofNumber_ofInt {n : Int} (h : n.natAbs ≤ safeInteger) :
    ofNumber (.ofInt n) = .int (Int64.ofInt n) := by
  obtain ⟨x, hx, hint, hcut⟩ := Binary64.ofInt_eq_finite h
  rw [hx, ofNumber]
  simp only [hint, hcut, h, and_self, if_true]

theorem ofNumber_of_fraction {x : Binary64.Finite}
    (h : ¬ (x.isInteger = true ∧ x.truncate.natAbs ≤ safeInteger)) :
    ofNumber (.finite x) = .float (.finite x) :=
  if_neg h

/-- How a number becomes a value: as an integer of that value, or as a float. -/
theorem ofNumber_cases (x : Binary64) :
    (∃ y : Binary64.Finite, x = .finite y ∧ y.isInteger = true ∧ y.truncate.natAbs ≤ safeInteger ∧
      ofNumber x = .int (Int64.ofInt y.truncate)) ∨ ofNumber x = .float x := by
  cases x with
  | finite y =>
    by_cases h : y.isInteger = true ∧ y.truncate.natAbs ≤ safeInteger
    · exact Or.inl ⟨y, rfl, h.1, h.2, if_pos h⟩
    · exact Or.inr (if_neg h)
  | infinite s => exact Or.inr rfl
  | nan => exact Or.inr rfl

/-- Zero is an integer, so only a number other than zero has a fraction to write. -/
theorem word_ne_zero_of_fraction {x : Binary64.Finite}
    (h : ¬ (x.isInteger = true ∧ x.truncate.natAbs ≤ safeInteger)) : x.word ≠ 0 := by
  intro hzero
  have hunits : x.units = 0 := by
    rw [Binary64.Finite.units, hzero, Binary64.unitsOf_zero]
  refine h ⟨?_, ?_⟩
  · simp [Binary64.Finite.isInteger, hunits]
  · simp [Binary64.Finite.truncate, Binary64.Finite.wholePart, hunits]

theorem toInt_ofInt_of_safe {n : Int} (h : n.natAbs ≤ safeInteger) : (Int64.ofInt n).toInt = n := by
  simp only [safeInteger] at h
  exact Int64.toInt_ofInt_of_le (by omega) (by omega)

theorem toInt_ofInt_of_fits {n : Json.Integer} (h : n.val < 0x8000000000000000) :
    (Int64.ofInt n.val).toInt = n.val :=
  Int64.toInt_ofInt_of_le (by simpa using n.le_val) (by simpa using h)

/-- Both zeros are the same integer. -/
theorem ofNumber_withoutNegativeZero (x : Binary64.Finite) :
    ofNumber x.withoutNegativeZero = ofNumber (.finite x) := by
  by_cases h : x.isInteger = true ∧ x.truncate.natAbs ≤ safeInteger
  · have hint : ofNumber (.finite x) = .int (Int64.ofInt x.truncate) := if_pos h
    rw [hint, ← Binary64.ofInt_truncate h.1, ofNumber_ofInt h.2]
  · exact congrArg ofNumber (if_neg (word_ne_zero_of_fraction h))

/-- **The literal of a number reads back as that number**, in the same kind of value. -/
theorem ofLiteral_toFilter_ofNumber (x : Binary64.Finite) :
    ofLiteral (ofNumber (.finite x)).toFilter = ofNumber (.finite x) := by
  by_cases h : x.isInteger = true ∧ x.truncate.natAbs ≤ safeInteger
  · have hint : ofNumber (.finite x) = .int (Int64.ofInt x.truncate) := if_pos h
    rw [hint]
    refine (ofLiteral_intText _).trans ?_
    rw [toInt_ofInt_of_safe h.2, ofNumber_ofInt h.2]
  · rw [ofNumber_of_fraction h]
    exact (ofLiteral_numberText (word_ne_zero_of_fraction h)).trans (ofNumber_of_fraction h)

end EntityQuery.Value

import EntityQuery.Proofs.Value.Literal

/-!
# Integers over the filter language

The literal of an integer is its digits, and it is read as the binary64 number nearest to it. Up to
`2^53` that is the integer itself. Beyond, the integer comes back as another value: as a float, or
as `2^53` when it is next to that. The text of that float is the shortest decimal that rounds to it,
so the digits come back only where the integer is this decimal.

Proof. Reading gives `ofNumber (ofInt n)`, which is an integer in the safe range or a float. Only
`2^53` is near enough to an integer beyond the safe range to be read as an integer in it, by the
monotony of rounding, and its digits are its own. The text of a float without a sign has a point or
is the digits of its shortest decimal, which are those of the integer if the two are one number.
-/

namespace EntityQuery

open Text

/-! ## Whole numbers as decimals -/

namespace Decimal

/-- The decimal, written out, is a whole number without places. -/
def IsNat (d : Decimal) (n : Nat) : Prop :=
  ∃ k p : Nat, d = ⟨k, p⟩ ∧ k * 10 ^ p = n

theorem joinAt_nil (point : Char) (whole : List Char) : joinAt point whole [] = whole := rfl

/-- Positional text is the digits of a number exactly where it has no point. -/
theorem plainChars_eq_digitsOf_iff {d : Decimal} (hd : d.digits ≠ 0) {n : Nat} :
    d.plainChars = digitsOf n ↔ d.IsNat n := by
  obtain ⟨-, -, hvalue, hlen⟩ := split_spec d
  constructor
  · intro h
    have hfraction : d.split.2 = [] := by
      by_contra hne
      have hpoint : '.' ∈ digitsOf n := by
        rw [← h, plainChars, joinAt, if_neg (by simpa using hne)]
        simp
      exact absurd (isDigit_of_mem_digitsOf hpoint) (by decide)
    rw [hfraction, List.length_nil] at hlen
    rw [plainChars, hfraction, joinAt_nil] at h
    rw [hfraction, List.append_nil, h, natOfDigits_digitsOf] at hvalue
    refine ⟨d.digits, d.exponent.toNat, ?_, hvalue.symm⟩
    rw [Int.toNat_of_nonneg (by omega)]
  · rintro ⟨k, p, rfl, rfl⟩
    have hsplit : split ⟨k, p⟩ = (digitsOf k ++ List.replicate p '0', []) := by
      simp only [split, if_neg hd]
    rw [plainChars, hsplit, joinAt_nil]
    exact (digitsOf_mul_pow hd p).symm

end Decimal

namespace Binary64

/-- The word of the largest safe integer. -/
def safeWord : Nat := 0x4340000000000000

theorem unitsOf_safeWord : unitsOf safeWord = Value.safeInteger * one := by decide +kernel

theorem shortest_safeWord : shortest .up safeWord = ⟨Value.safeInteger, 0⟩ := by decide +kernel

/-- An integer beyond the safe range is read as no number below that range's end. -/
theorem safeWord_le {n : Int} (hn : Value.safeInteger ≤ n.natAbs) {x : Finite}
    (h : ofInt n = .finite x) : safeWord ≤ x.word := by
  rw [(eq_of_ofUnits h).2]
  refine le_nearestWord Nat.one_pos ?_
  rw [unitsOf_safeWord, Nat.mul_one]
  exact Nat.mul_le_mul_right one hn

/-- No integer is read as a negative zero. -/
theorem withoutNegativeZero_of_ofInt {n : Int} {x : Finite} (h : ofInt n = .finite x) :
    x.withoutNegativeZero = .finite x := by
  unfold Finite.withoutNegativeZero
  split
  · rename_i hword
    by_cases hn : n = 0
    · rw [← h, hn, ofInt_zero]
    · have hround : Rounds 0 (n.natAbs * one) 1 := by
        rw [← hword, (eq_of_ofUnits h).2]
        exact rounds_nearestWord _ Nat.one_pos
      have hhigh : upperEnd 0 = 1 := by decide
      have hone : 1 * one ≤ n.natAbs * one := Nat.mul_le_mul_right one (by omega)
      have hle := hround.le.2
      have hpos := one_pos
      omega
  · rfl

end Binary64

namespace Value

/-! ## Reading the literal of an integer -/

/-- No integer beyond the signed range is safe. -/
theorem safeInteger_lt {n : Int} (hn : 0x8000000000000000 ≤ n) : (safeInteger : Int) < n := by
  have hvalue : safeInteger = 2 ^ 53 := rfl
  omega

theorem intText_injective {m n : Int64} (h : intText m = intText n) : m = n :=
  Int64.toInt.inj (intDigits_injective (String.ofList_injective h))

/-- What is read holds the number nearest to the integer. -/
theorem number?_ofNumber_ofInt (n : Int) : (ofNumber (.ofInt n)).number? = some (.ofInt n) := by
  rcases ofNumber_cases (.ofInt n) with ⟨x, hx, hinteger, hsafe, hint⟩ | hfloat
  · rw [hint, number?, toInt_ofInt_of_safe hsafe, Binary64.ofInt_truncate hinteger,
      Binary64.withoutNegativeZero_of_ofInt hx, hx]
  · rw [hfloat, number?]

/-- Reading gives the integer itself in the safe range, and nowhere else. -/
theorem ofNumber_ofInt_eq_iff (n : Int64) :
    ofNumber (.ofInt n.toInt) = .int n ↔ n.toInt.natAbs ≤ safeInteger := by
  constructor
  · intro h
    rcases ofNumber_cases (.ofInt n.toInt) with ⟨x, -, -, hsafe, hint⟩ | hfloat
    · rw [hint] at h
      rw [← Value.int.inj h, toInt_ofInt_of_safe hsafe]
      exact hsafe
    · rw [hfloat] at h
      cases h
  · intro h
    rw [ofNumber_ofInt h, Int64.ofInt_toInt]

/-- Beyond the safe range no integer is read as a zero. -/
theorem word_ne_zero_of_ofInt {n : Int} (hn : safeInteger < n.natAbs) {x : Binary64.Finite}
    (hx : Binary64.ofInt n = .finite x) : x.word ≠ 0 := by
  have hle := Binary64.safeWord_le (Nat.le_of_lt hn) hx
  have hpos : 0 < Binary64.safeWord := by decide
  omega

/-- The text of the float that an integer is read as has the integer's own digits exactly if its
shortest decimal is the integer. -/
theorem numberText_ofInt_iff {n : Int} (hn : safeInteger < n.natAbs) :
    (Binary64.ofInt n).numberText = String.ofList (intDigits n) ↔
      ∃ x, Binary64.ofInt n = .finite x ∧ x.decimal.IsNat n.natAbs := by
  have hdigits : intDigits n = signed (decide (n < 0)) (digitsOf n.natAbs) := intDigits_eq_signed n
  rw [Binary64.numberText, String.ofList_inj]
  cases hread : Binary64.ofInt n with
  | finite x =>
    have hword := word_ne_zero_of_ofInt hn hread
    have hne := (Binary64.roundsTo_decimal hword).digits_ne_zero hword
    have hchars : (Binary64.finite x).numberChars =
        signed (decide (n < 0)) x.decimal.plainChars := by
      rw [← (Binary64.eq_of_ofUnits hread).1]
      exact if_neg hword
    rw [hchars, hdigits, signed_inj, Decimal.plainChars_eq_digitsOf_iff hne]
    constructor
    · exact fun h => ⟨x, rfl, h⟩
    · rintro ⟨y, hy, h⟩
      rwa [Binary64.finite.inj hy]
  | infinite negative =>
    constructor
    · -- the word for an infinity is no numeral
      intro h
      have hletter : 'I' ∈ intDigits n := by
        rw [← h]
        cases negative <;> decide
      exact absurd ((isNumeral_intDigits _).2 _ hletter) (by decide)
    · rintro ⟨x, hx, -⟩
      cases hx
  | nan => exact absurd hread (Binary64.ofUnits_ne_nan _ _ _)

/-- Beyond the safe range only an integer next to `2^53` is read as one in it, and its digits are
not those of `2^53`. -/
theorem not_isNat_of_ofNumber {n m : Int64} (hn : safeInteger < n.toInt.natAbs)
    (h : ofNumber (.ofInt n.toInt) = .int m) {x : Binary64.Finite}
    (hx : Binary64.ofInt n.toInt = .finite x) : ¬ x.decimal.IsNat n.toInt.natAbs := by
  rw [hx] at h
  have hsafe : x.isInteger = true ∧ x.truncate.natAbs ≤ safeInteger := by
    by_contra hnot
    rw [ofNumber_of_fraction hnot] at h
    cases h
  have hunits : x.units ≤ Binary64.unitsOf Binary64.safeWord := by
    rw [Binary64.unitsOf_safeWord, ← Binary64.wholePart_mul_one hsafe.1, ← Binary64.natAbs_truncate]
    exact Nat.mul_le_mul_right _ hsafe.2
  have hword : x.word = Binary64.safeWord :=
    Nat.le_antisymm (Binary64.unitsOf_strictMono.le_iff_le.mp hunits)
      (Binary64.safeWord_le (Nat.le_of_lt hn) hx)
  have hdecimal : x.decimal = ⟨safeInteger, 0⟩ := by
    rw [Binary64.Finite.decimal, hword, Binary64.shortest_safeWord]
  rintro ⟨k, p, hkp, hvalue⟩
  rw [hdecimal, Decimal.mk.injEq] at hkp
  have hp : p = 0 := by omega
  rw [← hkp.1, hp, Nat.pow_zero, Nat.mul_one] at hvalue
  omega

/-- **What becomes of an integer in a filter**: its literal is read as the binary64 number nearest
to it. That is the integer itself exactly up to `2^53`, and beyond it the same digits are written
again exactly if the integer is the shortest decimal of that number. -/
theorem ofLiteral_toFilter_int_iff (n : Int64) :
    (ofLiteral (toFilter (.int n))).number? = some (.ofInt n.toInt) ∧
      (ofLiteral (toFilter (.int n)) = .int n ↔ n.toInt.natAbs ≤ safeInteger) ∧
      ((ofLiteral (toFilter (.int n))).toFilter = toFilter (.int n) ↔
        n.toInt.natAbs ≤ safeInteger ∨
          ∃ x, Binary64.ofInt n.toInt = .finite x ∧ x.decimal.IsNat n.toInt.natAbs) := by
  have hread : ofLiteral (toFilter (.int n)) = ofNumber (.ofInt n.toInt) := ofLiteral_intText n
  rw [hread]
  refine ⟨number?_ofNumber_ofInt _, ofNumber_ofInt_eq_iff n, ?_⟩
  by_cases hn : n.toInt.natAbs ≤ safeInteger
  · rw [(ofNumber_ofInt_eq_iff n).mpr hn]
    exact ⟨fun _ => Or.inl hn, fun _ => rfl⟩
  · rw [or_iff_right hn]
    rcases ofNumber_cases (.ofInt n.toInt) with ⟨x, hx, -, hsafe, hint⟩ | hfloat
    · -- read as an integer in the safe range, which is another one
      constructor
      · intro h
        rw [hint] at h
        have hm := intText_injective h
        rw [← hm, toInt_ofInt_of_safe hsafe] at hn
        exact absurd hsafe hn
      · rintro ⟨y, hy, hnat⟩
        exact absurd hnat (not_isNat_of_ofNumber (Nat.not_le.mp hn) hint hy)
    · rw [hfloat]
      exact numberText_ofInt_iff (Nat.not_le.mp hn)

/-- The integer after `2^53` comes back as `2^53`. -/
theorem toFilter_changes_integer :
    toFilter (.int 9007199254740993) = "9007199254740993" ∧
      ofLiteral (toFilter (.int 9007199254740993)) = .int 9007199254740992 ∧
      (ofLiteral (toFilter (.int 9007199254740993))).toFilter = "9007199254740992" := by
  have hread : ofLiteral (toFilter (.int 9007199254740993)) = .int 9007199254740992 := by
    have hround : Binary64.ofInt 9007199254740993 = Binary64.ofInt 9007199254740992 := by
      decide +kernel
    calc ofLiteral (toFilter (.int 9007199254740993))
        = ofNumber (.ofInt 9007199254740993) := ofLiteral_intText 9007199254740993
      _ = ofNumber (.ofInt 9007199254740992) := congrArg ofNumber hround
      _ = .int 9007199254740992 := ofNumber_ofInt (by decide)
  refine ⟨rfl, hread, ?_⟩
  rw [hread]
  rfl

end Value

end EntityQuery

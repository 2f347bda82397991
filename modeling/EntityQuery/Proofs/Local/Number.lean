import EntityQuery.Proofs.Local.Cutting
import EntityQuery.Proofs.Local.Writing

/-!
# Localized numbers read back

A localized number with fixed decimals is read back as the decimal that it shows, whatever the
grouping and the leading zeros: dropping the points undoes the grouping, and the comma becomes the
point of a numeral. Cutting the same number to the decimals it shows should change nothing. It does
so without decimals; with some, the last one can lose one, since `cutTo` cuts a product that is
rounded.
-/

namespace EntityQuery

open Text

/-! ## Undoing the grouping -/

theorem replaceFirst_append {a b : Char} {s : List Char} (hs : a ∉ s) (t : List Char) :
    replaceFirst a b (s ++ a :: t) = s ++ b :: t := by
  induction s with
  | nil => exact if_pos rfl
  | cons c s ih =>
    rw [List.mem_cons, not_or] at hs
    rw [List.cons_append, replaceFirst, if_neg (Ne.symm hs.1), ih hs.2, List.cons_append]

theorem replaceFirst_of_not_mem {a b : Char} {s : List Char} (hs : a ∉ s) :
    replaceFirst a b s = s := by
  induction s with
  | nil => rfl
  | cons c s ih =>
    rw [List.mem_cons, not_or] at hs
    rw [replaceFirst, if_neg (Ne.symm hs.1), ih hs.2]

section Parts

variable {whole fraction : List Char} (hwhole : ∀ c ∈ whole, c.isDigit = true)
  (hfraction : ∀ c ∈ fraction, c.isDigit = true) (grouping negative : Bool)
include hwhole hfraction

/-- The text as the reader of numerals gets it. -/
theorem plainNumeral_localized :
    plainNumeral (signed negative
        (Decimal.joinAt ',' (if grouping then groupThousands whole else whole) fraction)) =
      signed negative (Decimal.joinAt '.' whole fraction) := by
  have hgroup : (if grouping then groupThousands whole else whole).filter (· ≠ '.') = whole := by
    split
    · exact filter_groupThousands (not_mem_of_isDigit (by decide) hwhole)
    · exact filter_eq_self_of_not_mem (not_mem_of_isDigit (by decide) hwhole)
  have hdrop : (Decimal.joinAt ',' (if grouping then groupThousands whole else whole)
      fraction).filter (· ≠ '.') = Decimal.joinAt ',' whole fraction := by
    unfold Decimal.joinAt
    split
    · exact hgroup
    · rw [List.filter_append, hgroup, List.filter_cons_of_pos (by decide),
        filter_eq_self_of_not_mem (not_mem_of_isDigit (by decide) hfraction)]
  have hcomma : replaceFirst ',' '.' (Decimal.joinAt ',' whole fraction) =
      Decimal.joinAt '.' whole fraction := by
    unfold Decimal.joinAt
    split
    · exact replaceFirst_of_not_mem (not_mem_of_isDigit (by decide) hwhole)
    · exact replaceFirst_append (not_mem_of_isDigit (by decide) hwhole) fraction
  cases negative with
  | false => exact (congrArg (replaceFirst ',' '.') hdrop).trans hcomma
  | true =>
    unfold plainNumeral signed
    rw [if_pos rfl, if_pos rfl, List.filter_cons_of_pos (by decide), hdrop, replaceFirst,
      if_neg (by decide), hcomma]

theorem coerceChars_localized (hne : whole ≠ []) :
    coerceChars (plainNumeral (signed negative
        (Decimal.joinAt ',' (if grouping then groupThousands whole else whole) fraction))) =
      some (.ofParts negative whole fraction 0) := by
  rw [plainNumeral_localized hwhole hfraction, coerceChars_signed hne hwhole hfraction]

end Parts

/-! ## Fixed decimals -/

/-- The number that the text of `x` with some decimals shows: its shortest decimal rounded to them,
as nearly as binary64 holds that. -/
def Binary64.Finite.shown (x : Binary64.Finite) (places : Nat) : Binary64 :=
  .ofDecimal (isBelowZero (.finite x)) (x.decimal.roundedAt places) (-(places : Int))

variable (x : Binary64.Finite) (grouping : Bool) (least digits : UInt32)

/-- The text is read as the digits that it shows. -/
theorem coerceChars_localizedParts (fractionDigits : Option UInt32) :
    coerceChars (plainNumeral
        (formatLocalized (.finite x) grouping least fractionDigits).toList) =
      some (.ofParts (Binary64.isBelowZero (.finite x))
        (localizedParts (fractionDigits.map UInt32.toNat) x.decimal).1
        (localizedParts (fractionDigits.map UInt32.toNat) x.decimal).2 0) := by
  obtain ⟨hround, -⟩ := localizedParts_spec (fractionDigits.map UInt32.toNat) x.decimal
  have hpad : padLeft (max least.toNat 1) '0'
      (localizedParts (fractionDigits.map UInt32.toNat) x.decimal).1 ≠ [] :=
    List.append_ne_nil_of_right_ne_nil _ hround.ne_nil
  have htext : (formatLocalized (.finite x) grouping least fractionDigits).toList =
      signed (Binary64.isBelowZero (.finite x))
        (localizedChars grouping least.toNat (fractionDigits.map UInt32.toNat) x.decimal) :=
    String.toList_ofList
  rw [htext]
  refine (coerceChars_localized (isDigit_of_mem_padLeft hround.whole_isDigit)
    hround.fraction_isDigit grouping _ hpad).trans ?_
  rw [Binary64.ofParts, natOfDigits_padLeft_append, Binary64.ofParts]

/-- The text is read as the number that it shows. -/
theorem coerceChars_formatLocalized :
    coerceChars (plainNumeral
        (formatLocalized (.finite x) grouping least (some digits)).toList) =
      some (x.shown digits.toNat) := by
  obtain ⟨hround, hplaces⟩ := localizedParts_spec (some digits.toNat) x.decimal
  have hlen : (localizedParts (some digits.toNat) x.decimal).2.length = digits.toNat := hplaces
  have hvalue := hround.natOfDigits_eq hlen
  rw [coerceChars_localizedParts, Option.map_some, Binary64.ofParts, hvalue, hlen, Int.zero_sub]
  rfl

theorem shown_ne_nan (places : Nat) : x.shown places ≠ .nan := by
  unfold Binary64.Finite.shown Binary64.ofDecimal
  split
  · rintro ⟨⟩
  · split
    · rintro ⟨⟩
    · split
      · rintro ⟨⟩
      · exact Binary64.ofUnits_ne_nan _ _ _

theorem parseNumber_formatLocalized_none :
    parseNumber (formatLocalized (.finite x) grouping least (some digits)) none =
      .ok (x.shown digits.toNat) := by
  rw [parseNumber, parseNumberChars?, coerceChars_formatLocalized]
  rfl

theorem parseNumber_formatLocalized_some (kept : UInt32) :
    parseNumber (formatLocalized (.finite x) grouping least (some digits)) (some kept) =
      .ok ((x.shown digits.toNat).cutTo kept) := by
  rw [parseNumber, parseNumberChars?, coerceChars_formatLocalized]
  rfl

/-- **What cutting makes of a number that already has the decimals**: the text of any number, with
any grouping and leading zeros, is read as the number shown, and with the same decimals as that
number cut. Without decimals the cut changes nothing. With up to 22 decimals and less than `2^52` in
the last place it changes nothing exactly if the scaled number is not rounded below that whole
number, and takes one from the last place otherwise. With hundreds of decimals nothing is left. -/
theorem parseNumber_formatLocalized :
    let text := formatLocalized (.finite x) grouping least (some digits)
    let k := x.decimal.roundedAt digits.toNat
    let shown := x.shown digits.toNat
    parseNumber text none = .ok shown ∧ shown ≠ .nan ∧
      parseNumber text (some digits) = .ok (shown.cutTo digits) ∧
      (digits = 0 → shown.cutTo digits = shown) ∧
      (digits.toNat ≤ 22 → k < 2 ^ 52 →
        (shown.cutTo digits = shown ↔ Binary64.cutDigits k digits.toNat = k) ∧
        (shown.cutTo digits ≠ shown → ∃ j, k = j + 1 ∧
          shown.cutTo digits =
            .ofDecimal (Binary64.isBelowZero (.finite x)) j (-(digits.toNat : Int)))) ∧
      (342 ≤ digits.toInt32.toInt.natAbs → shown.cutTo digits = .nan) := by
  refine ⟨parseNumber_formatLocalized_none x grouping least digits, shown_ne_nan x _,
    parseNumber_formatLocalized_some x grouping least digits digits, ?_, fun hd hk => ⟨?_, ?_⟩,
    fun h => Binary64.cutTo_of_large h _⟩
  · rintro rfl
    exact Binary64.cutTo_zero _ _
  · exact Binary64.cutTo_ofDecimal_eq_iff _ hd hk
  · intro hne
    have hcut := Binary64.cutTo_ofDecimal (Binary64.isBelowZero (.finite x)) hd hk
    rcases Binary64.cutDigits_near hd hk with hsame | hless
    · exact absurd ((Binary64.cutTo_ofDecimal_eq_iff _ hd hk).mpr hsame) hne
    · exact ⟨_, hless.symm, hcut⟩

/-- The number `9876.54`. -/
def invoiceTotal : Binary64.Finite :=
  ⟨false, 0x40C34A451EB851EC, by decide⟩

theorem invoiceTotal_unchanged :
    (2 : UInt32).toNat ≤ 22 ∧ invoiceTotal.decimal.roundedAt 2 < 2 ^ 52 ∧
      parseNumber (formatLocalized (.finite invoiceTotal) true 1 (some 2)) (some 2) =
        parseNumber (formatLocalized (.finite invoiceTotal) true 1 (some 2)) none := by
  obtain ⟨hnone, -, hsome, -, hcut, -⟩ := parseNumber_formatLocalized invoiceTotal true 1 2
  have hk : invoiceTotal.decimal.roundedAt 2 < 2 ^ 52 := by decide +kernel
  have hdigits : Binary64.cutDigits (invoiceTotal.decimal.roundedAt 2) 2 =
      invoiceTotal.decimal.roundedAt 2 := by decide +kernel
  refine ⟨by decide, hk, ?_⟩
  rw [hsome, hnone, (hcut (by decide) hk).1.mpr hdigits]

/-- The number `0.29`. -/
def cents : Binary64.Finite :=
  ⟨false, 0x3FD28F5C28F5C28F, by decide⟩

/-- Twenty-nine hundredths are read as twenty-eight if they are cut to hundredths. -/
theorem cents_lose_one :
    formatLocalized (.finite cents) false 1 (some 2) = "0,29" ∧
      parseNumber "0,29" none = .ok (.finite cents) ∧
      parseNumber "0,29" (some 2) = .ok (.ofDecimal false 28 (-2)) ∧
      Binary64.ofDecimal false 28 (-2) ≠ .finite cents := by
  have htext : formatLocalized (.finite cents) false 1 (some 2) = "0,29" := by decide +kernel
  have hshown : cents.shown 2 = .finite cents := by decide +kernel
  have hk : cents.decimal.roundedAt 2 = 29 := by decide +kernel
  have hdigits : Binary64.cutDigits 29 2 = 28 := by decide +kernel
  have hcut : (cents.shown 2).cutTo 2 = .ofDecimal false 28 (-2) := by
    have htwo : (2 : UInt32).toNat ≤ 22 := by decide
    have hplaces := Binary64.cutTo_ofDecimal (k := 29) false htwo (by decide)
    have hround : cents.shown 2 = .ofDecimal false 29 (-((2 : UInt32).toNat : Int)) := by
      rw [Binary64.Finite.shown, hk]
      rfl
    rw [hround, hplaces]
    exact congrArg (Binary64.ofDecimal false · (-2)) hdigits
  have hnone := parseNumber_formatLocalized_none cents false 1 2
  have hsome := parseNumber_formatLocalized_some cents false 1 2 2
  refine ⟨htext, ?_, ?_, by decide +kernel⟩
  · rw [← htext, hnone, ← hshown]
    rfl
  · rw [← htext, hsome, ← hcut]
    rfl

end EntityQuery

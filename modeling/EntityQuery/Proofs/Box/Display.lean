import EntityQuery.Box.Basic
import EntityQuery.Proofs.Local.Number

/-!
# Number boxes read back what they show

Without a fixed number of decimals, a number is written for people rounded to twenty decimals, and
the text is read as the rounded number. A number whose shortest decimal has no more of them is
written in full, so that it is read back; a negative zero loses its sign. A number box with the
converters of its family shows and reads its number in this way.

Proof. The digits written stand for the shortest decimal rounded at the twentieth place, so reading
them gives that decimal (`shown`); zeros left out at the end do not change its value. Rounding a
decimal beyond its last place changes nothing, and the shortest decimal reads as its number.
-/

namespace EntityQuery

open Text

namespace Binary64

/-! ## Equal decimals -/

/-- Decimals of the same value are the same number. -/
theorem ofDecimal_congr (negative : Bool) {m n d e : Nat} (hd : d ≤ 400) (he : e ≤ 400)
    (h : m * 10 ^ e = n * 10 ^ d) :
    ofDecimal negative m (-(d : Int)) = ofDecimal negative n (-(e : Int)) := by
  rw [ofDecimal_places negative m hd, ofDecimal_places negative n he]
  refine ofUnits_congr (Nat.pow_pos (by decide)) (Nat.pow_pos (by decide)) ?_
  rw [Nat.mul_right_comm, h, Nat.mul_right_comm]

/-- **The number shown is the number itself** if its shortest decimal has no further decimals. -/
theorem shown_of_le {x : Finite} {places : Nat} (h : x.decimal.split.2.length ≤ places)
    (hplaces : places ≤ 400) : x.shown places = x.withoutNegativeZero := by
  have hzeros : 10 ^ (places - x.decimal.split.2.length) * 10 ^ x.decimal.split.2.length =
      10 ^ places := pow_sub_mul_pow 10 h
  rw [Finite.shown, Finite.withoutNegativeZero, Decimal.roundedAt_of_le h]
  split
  · rename_i hx
    have hdecimal : x.decimal = ⟨0, 0⟩ := by
      rw [Finite.decimal, hx]
      rfl
    have hsign : isBelowZero (.finite x) = false := by
      rw [isBelowZero_finite, hx, bne_self_eq_false, Bool.and_false]
    have hnone : natOfDigits ((Decimal.split ⟨0, 0⟩).1 ++ (Decimal.split ⟨0, 0⟩).2) = 0 := rfl
    rw [hsign, hdecimal, hnone, Nat.zero_mul, ofDecimal, if_pos rfl]
  · rename_i hx
    have hsign : isBelowZero (.finite x) = x.negative := by
      rw [isBelowZero_finite, bne_iff_ne.mpr hx, Bool.and_true]
    rw [hsign, ← ofParts_split hx, Binary64.ofParts, Int.zero_sub]
    refine ofDecimal_congr x.negative hplaces (h.trans hplaces) ?_
    rw [Nat.mul_assoc, hzeros]

end Binary64

/-- Digits that stand for a rounded decimal are read as that decimal. -/
theorem Decimal.RoundsDigits.ofDecimal_eq {d : Decimal} {places : Nat} {whole fraction : List Char}
    (h : d.RoundsDigits places whole fraction) (negative : Bool) (hlen : fraction.length ≤ 400)
    (hplaces : places ≤ 400) :
    Binary64.ofDecimal negative (natOfDigits (whole ++ fraction)) (-(fraction.length : Int)) =
      .ofDecimal negative (d.roundedAt places) (-(places : Int)) := by
  have hvalue := h.value
  rw [decimalValue, div_eq_div_iff (by positivity) (by positivity)] at hvalue
  exact Binary64.ofDecimal_congr negative hlen hplaces (by exact_mod_cast hvalue)

/-! ## Free decimals -/

variable (x : Binary64.Finite) (grouping : Bool) (least : UInt32)

/-- The text is read as the number rounded to twenty decimals. -/
theorem parseNumber_formatLocalized_free :
    parseNumber (formatLocalized (.finite x) grouping least none) none = .ok (x.shown 20) := by
  obtain ⟨hround, hlen, -⟩ := localizedParts_spec none x.decimal
  have hread := coerceChars_localizedParts x grouping least none
  rw [Option.map_none, Binary64.ofParts, Int.zero_sub,
    hround.ofDecimal_eq _ (hlen.trans (by decide)) (by decide)] at hread
  rw [parseNumber, parseNumberChars?, hread]
  rfl

/-- The decimals of the plain text are those of the shortest decimal. -/
theorem plainFraction_plainText :
    plainFraction (Binary64.finite x).plainText.toList = x.decimal.split.2 := by
  obtain ⟨-, hdigits, -, -⟩ := x.decimal.split_spec
  have hpoint : '.' ∉ x.decimal.split.1 :=
    not_mem_of_isDigit (by decide) (List.forall_mem_append.mp hdigits).1
  have htext : (Binary64.finite x).plainText.toList = x.plainChars := String.toList_ofList
  rw [htext, Binary64.Finite.plainChars, Decimal.plainChars]
  split
  · -- the sign is one more character before the point
    have hcons : '-' :: Decimal.joinAt '.' x.decimal.split.1 x.decimal.split.2 =
        Decimal.joinAt '.' ('-' :: x.decimal.split.1) x.decimal.split.2 := by
      unfold Decimal.joinAt
      split <;> rfl
    rw [hcons]
    exact plainFraction_joinAt (by simpa using hpoint) _
  · exact plainFraction_joinAt hpoint _

/-! ## Boxes -/

namespace Box

variable {b : Box .number} {x : Binary64.Finite}

theorem display_number (hvalue : b.value = some (.finite x))
    (hconverters : b.converters = Converters.numberDefaults) :
    b.display = formatLocalized (.finite x) b.settings.useGrouping
      (b.settings.minimumIntegerDigits.getD 1) b.settings.fractionDigits := by
  obtain ⟨⟨value, kind, settings⟩, converters⟩ := b
  dsimp only at hvalue hconverters
  subst hvalue hconverters
  rfl

theorem parse_number (hconverters : b.converters = Converters.numberDefaults) {text : String}
    (hread : parseNumber text b.settings.fractionDigits = .ok (.finite x)) :
    b.parse text = some (.finite x) := by
  simp only [parse, hconverters, Converters.numberDefaults, hread,
    Converters.accepted]
  rfl

/-- **A number with at most twenty decimals is read back from its text**, whatever the grouping and
the leading zeros, and so a number box with the converters of its family and no fixed decimals reads
the text that it shows. A zero is read without its sign. -/
theorem parse_display_number
    (hplaces : (plainFraction (Binary64.finite x).plainText.toList).length ≤ 20) :
    (∀ (grouping : Bool) (least : UInt32),
      parseNumber (formatLocalized (.finite x) grouping least none) none =
        .ok x.withoutNegativeZero) ∧
    ∀ b : Box .number, b.value = some (.finite x) → b.converters = Converters.numberDefaults →
      b.settings.fractionDigits = none → b.parse b.display = some x.withoutNegativeZero := by
  rw [plainFraction_plainText] at hplaces
  have hshown : x.shown 20 = x.withoutNegativeZero := Binary64.shown_of_le hplaces (by decide)
  have hread : ∀ (grouping : Bool) (least : UInt32),
      parseNumber (formatLocalized (.finite x) grouping least none) none =
        .ok x.withoutNegativeZero := fun grouping least => by
    rw [parseNumber_formatLocalized_free, hshown]
  refine ⟨hread, fun b hvalue hconverters hfree => ?_⟩
  obtain ⟨y, hy⟩ : ∃ y, x.withoutNegativeZero = .finite y := by
    unfold Binary64.Finite.withoutNegativeZero
    split
    · exact ⟨_, rfl⟩
    · exact ⟨x, rfl⟩
  rw [display_number hvalue hconverters, hfree, hy]
  refine parse_number hconverters ?_
  rw [hfree, hread, hy]

/-- The number `1123456.789`. -/
def turnover : Binary64.Finite :=
  ⟨false, 0x41312480C9FBE76D, by decide⟩

/-- A box that shows it with grouped thousands. -/
def turnoverBox : Box .number :=
  ofSeed (.float (.finite turnover))
    { (Options.keep : Options .number) with
      settings := { Family.number.keepSettings with useGrouping := some true } }

theorem turnoverBox_reads_back :
    (plainFraction (Binary64.finite turnover).plainText.toList).length ≤ 20 ∧
      turnoverBox.value = some (.finite turnover) ∧
      turnoverBox.converters = Converters.numberDefaults ∧
      turnoverBox.settings.fractionDigits = none ∧
      turnoverBox.display = "1.123.456,789" ∧
      turnoverBox.parse turnoverBox.display = some turnover.withoutNegativeZero := by
  have hplaces : (plainFraction (Binary64.finite turnover).plainText.toList).length ≤ 20 := by
    decide +kernel
  have hconverters : turnoverBox.converters = Converters.numberDefaults := rfl
  have hdisplay : turnoverBox.display = "1.123.456,789" := by
    rw [display_number (x := turnover) rfl hconverters]
    decide +kernel
  exact ⟨hplaces, rfl, hconverters, rfl, hdisplay,
    (parse_display_number hplaces).2 turnoverBox rfl hconverters rfl⟩

end Box

end EntityQuery

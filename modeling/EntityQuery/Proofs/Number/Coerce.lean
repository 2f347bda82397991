import EntityQuery.Proofs.Number.Numeral

/-!
# What free text reads as

A number read out of free text is never NaN: numerals and the names of infinities are not, and the
digits of a radix are taken in by multiplying with a finite number other than zero and adding a
finite one, which makes no NaN of anything else.
-/

namespace EntityQuery

namespace Binary64

theorem zero_ne_nan (negative : Bool) : zero negative ≠ .nan := by
  unfold zero
  exact nofun

theorem ofDecimal_ne_nan (negative : Bool) (digits : Nat) (exponent : Int) :
    ofDecimal negative digits exponent ≠ .nan := by
  unfold ofDecimal
  split_ifs
  · exact zero_ne_nan _
  · exact nofun
  · exact zero_ne_nan _
  · exact ofUnits_ne_nan _ _ _

theorem mul_finite_ne_nan {x : Binary64} (hx : x ≠ .nan) {y : Finite} (hy : y.word ≠ 0) :
    x.mul (.finite y) ≠ .nan := by
  cases x with
  | finite x => exact ofUnits_ne_nan _ _ _
  | infinite s => simp [mul, hy]
  | nan => exact absurd rfl hx

theorem add_finite_ne_nan {x : Binary64} (hx : x ≠ .nan) (y : Finite) :
    x.add (.finite y) ≠ .nan := by
  cases x with
  | finite x => exact ofUnits_ne_nan _ _ _
  | infinite s => exact nofun
  | nan => exact absurd rfl hx

/-- A digit taken in makes no NaN. -/
theorem pushDigit_ne_nan {radix digit : Nat} (hradix : 0 < radix ∧ radix ≤ 16)
    (hdigit : digit < radix) {acc : Binary64} (hacc : acc ≠ .nan) :
    acc.pushDigit radix digit ≠ .nan := by
  have hfinite : ∀ {n : Nat}, n ≤ 16 → ∃ x : Finite, ofInt n = .finite x ∧ x.truncate = n := by
    intro n hn
    have hle : (n : Int).natAbs ≤ 2 * leadingBit := by
      rw [Int.natAbs_natCast]
      exact Nat.le_trans hn (by decide)
    obtain ⟨x, hx, -, htruncate⟩ := ofInt_eq_finite hle
    exact ⟨x, hx, htruncate⟩
  obtain ⟨x, hx, htruncate⟩ := hfinite hradix.2
  obtain ⟨y, hy, -⟩ := hfinite (n := digit) (by omega)
  have hword : x.word ≠ 0 := by
    intro hzero
    have hwhole := natAbs_truncate x
    rw [htruncate, Int.natAbs_natCast, Finite.wholePart, units_eq_zero_iff.mpr hzero,
      Nat.zero_div] at hwhole
    omega
  rw [pushDigit, hx, hy]
  exact add_finite_ne_nan (mul_finite_ne_nan hacc hword) y

end Binary64

open Binary64

theorem ofNumeral?_ne_nan {s : List Char} {x : Binary64} (h : ofNumeral? s = some x) : x ≠ .nan := by
  simp only [ofNumeral?, Option.bind_eq_bind, Option.bind_eq_some_iff] at h
  obtain ⟨⟨whole, fraction, rest⟩, -, exponent, -, hparts⟩ := h
  cases hparts
  exact ofDecimal_ne_nan _ _ _

theorem digitIn?_lt {radix : Nat} {c : Char} {d : Nat} (h : digitIn? radix c = some d) :
    d < radix := by
  simp only [digitIn?, Option.ite_none_right_eq_some, Option.some.injEq] at h
  obtain ⟨hlt, rfl⟩ := h
  exact hlt

theorem readRadix?_ne_nan {radix : Nat} (hradix : 0 < radix ∧ radix ≤ 16) {s : List Char}
    {acc x : Binary64} (hacc : acc ≠ .nan) (h : readRadix? radix acc s = some x) : x ≠ .nan := by
  induction s generalizing acc with
  | nil =>
    cases h
    exact hacc
  | cons c s ih =>
    rw [readRadix?, Option.bind_eq_bind, Option.bind_eq_some_iff] at h
    obtain ⟨d, hd, hrest⟩ := h
    exact ih (pushDigit_ne_nan hradix (digitIn?_lt hd) hacc) hrest

theorem radixOf?_bounds {c : Char} {radix : Nat} (h : radixOf? c = some radix) :
    0 < radix ∧ radix ≤ 16 := by
  unfold radixOf? at h
  split_ifs at h <;> cases h <;> decide

theorem readNumber?_ne_nan {s : List Char} {x : Binary64} (h : readNumber? s = some x) :
    x ≠ .nan := by
  unfold readNumber? at h
  split_ifs at h
  · cases h
    exact nofun
  · cases h
    exact nofun
  · split at h
    · cases h
      exact zero_ne_nan _
    · split at h
      · rename_i radix hradix
        split at h
        · cases h
        · exact readRadix?_ne_nan (radixOf?_bounds hradix) (zero_ne_nan false) h
      · exact ofNumeral?_ne_nan h
    · exact ofNumeral?_ne_nan h

/-- **What is read is a number.** -/
theorem coerceChars_ne_nan {s : List Char} {x : Binary64} (h : coerceChars s = some x) :
    x ≠ .nan :=
  readNumber?_ne_nan h

end EntityQuery

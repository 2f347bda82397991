import EntityQuery.Proofs.Number.Rounding

/-!
# Shortest decimals read back

The search for the shortest decimal ends with a decimal in the interval of the word it started from:
a grid is left only with a point that rounds to the word, and the last grid holds the magnitude
itself. So reading the decimal gives the word back, provided that the reader does not take its
exponent for one beyond every value; the search starts low enough for that.
-/

namespace EntityQuery

open Binary64

variable {w : Nat}

/-! ## Decimals in the interval of a word -/

/-- A decimal rounds to a word: it lies in the word's interval. -/
def Decimal.RoundsTo (w : Nat) (d : Decimal) : Prop :=
  Rounds w (d.digits * 10 ^ d.exponent.toNat * one) (10 ^ (-d.exponent).toNat)

namespace Decimal

variable {d : Decimal}

theorem roundsTo_iff {digits : Nat} {p : Int} :
    Binary64.roundsTo w digits p = true ↔ RoundsTo w ⟨digits, p⟩ := by
  have hpoint : digits * (10 ^ p.toNat * (2 * one)) = 2 * (digits * 10 ^ p.toNat * one) := by
    ring
  simp only [Binary64.roundsTo, gridStep, Nat.pow_eq, hpoint, RoundsTo, Rounds]
  split <;> simp only [Bool.and_eq_true, decide_eq_true_eq]

/-- Half a unit is at most the midpoint below a word other than zero. -/
theorem RoundsTo.pos (h : RoundsTo w d) (hw : w ≠ 0) :
    10 ^ (-d.exponent).toNat ≤ 2 * (d.digits * 10 ^ d.exponent.toNat * one) := by
  have hend : 1 ≤ lowerEnd w := Nat.add_pos_right _ (unitsOf_pos hw)
  calc 10 ^ (-d.exponent).toNat = 1 * 10 ^ (-d.exponent).toNat := (Nat.one_mul _).symm
    _ ≤ lowerEnd w * 10 ^ (-d.exponent).toNat := Nat.mul_le_mul_right _ hend
    _ ≤ _ := h.le.1

theorem RoundsTo.digits_ne_zero (h : RoundsTo w d) (hw : w ≠ 0) : d.digits ≠ 0 := by
  intro hzero
  have hpos := h.pos hw
  have hden : 0 < 10 ^ (-d.exponent).toNat := Nat.pow_pos (by decide)
  rw [hzero, Nat.zero_mul, Nat.zero_mul] at hpos
  omega

/-- A decimal that rounds to a word other than zero is not taken for one below every value. -/
theorem RoundsTo.exponent_ge (h : RoundsTo w d) (hw : w ≠ 0) :
    -(400 + (Nat.log2 d.digits : Int)) ≤ d.exponent := by
  by_contra hlow
  have hdigits : d.digits < 2 ^ (Nat.log2 d.digits + 1) := Nat.lt_log2_self
  have hpos := h.pos hw
  have hnum : d.exponent.toNat = 0 := by omega
  obtain ⟨k, hk, hone⟩ : ∃ k ≤ 1074, one = 2 ^ k := ⟨1074, Nat.le_refl _, one_eq⟩
  have hpow : 2 ^ (Nat.log2 d.digits + 1 + (k + 1)) ≤ 10 ^ (-d.exponent).toNat := by
    calc 2 ^ (Nat.log2 d.digits + 1 + (k + 1))
        ≤ 2 ^ (3 * (-d.exponent).toNat) := Nat.pow_le_pow_right (by decide) (by omega)
      _ = (2 ^ 3) ^ (-d.exponent).toNat := Nat.pow_mul 2 3 _
      _ ≤ 10 ^ (-d.exponent).toNat := Nat.pow_le_pow_left (by decide) _
  have hupper : 2 * (d.digits * one) < 2 ^ (Nat.log2 d.digits + 1 + (k + 1)) := by
    calc 2 * (d.digits * one) = d.digits * 2 ^ (k + 1) := by rw [hone]; ring
      _ < 2 ^ (Nat.log2 d.digits + 1) * 2 ^ (k + 1) :=
          Nat.mul_lt_mul_of_pos_right hdigits (Nat.two_pow_pos _)
      _ = 2 ^ (Nat.log2 d.digits + 1 + (k + 1)) := (Nat.pow_add _ _ _).symm
  rw [hnum, Nat.pow_zero, Nat.mul_one] at hpos
  omega

/-- **A decimal that rounds to the word of a value reads as that value.** -/
theorem RoundsTo.ofDecimal {x : Finite} (h : RoundsTo x.word d) (hx : x.word ≠ 0)
    (hexp : d.exponent ≤ 400) : Binary64.ofDecimal x.negative d.digits d.exponent = .finite x := by
  have hden : 0 < 10 ^ (-d.exponent).toNat := Nat.pow_pos (by decide)
  have hlow := h.exponent_ge hx
  rw [Binary64.ofDecimal, if_neg (h.digits_ne_zero hx), if_neg (by omega), if_neg (by omega)]
  exact ofUnits_of_rounds hden rfl h

/-- Written out, a decimal has no power of ten beyond its places. -/
theorem RoundsTo.written (h : RoundsTo w d) :
    RoundsTo w ⟨d.digits * 10 ^ d.exponent.toNat, -((-d.exponent).toNat : Int)⟩ := by
  unfold RoundsTo at h ⊢
  rwa [Int.toNat_neg_natCast, Nat.pow_zero, Nat.mul_one, Int.neg_neg, Int.toNat_natCast]

end Decimal

namespace Binary64

/-! ## The search -/

variable {tie : Decimal.Tie}

theorem nearerPoint_cases (tie : Decimal.Tie) (w : Nat) (p : Int) :
    nearerPoint tie w p = 2 * unitsOf w * (gridStep p).2 / (gridStep p).1 ∨
      nearerPoint tie w p = 2 * unitsOf w * (gridStep p).2 / (gridStep p).1 + 1 := by
  unfold nearerPoint
  dsimp only
  split
  · exact Or.inl rfl
  · split
    · exact Or.inr rfl
    · cases tie
      · exact Or.inr rfl
      · dsimp only
        split
        · exact Or.inl rfl
        · exact Or.inr rfl

theorem roundsTo_onGrid? {p : Int} {d : Nat} (h : onGrid? tie w p = some d) :
    Decimal.RoundsTo w ⟨d, p⟩ := by
  rw [← Decimal.roundsTo_iff]
  unfold onGrid? at h
  dsimp only at h
  split at h
  · obtain rfl := Option.some.inj h
    rcases nearerPoint_cases tie w p with heq | heq <;> rwa [heq]
  · obtain rfl := Option.some.inj h
    assumption
  · obtain rfl := Option.some.inj h
    assumption
  · cases h

/-- The finest grid holds every magnitude. -/
theorem roundsTo_finest (w : Nat) : Decimal.RoundsTo w ⟨unitsOf w * Nat.pow 5 1074, -1074⟩ := by
  have hone := one_eq
  -- the exponent is kept a variable, so that no power is ever computed
  generalize hk : (1074 : Nat) = k at hone ⊢
  have hneg : (-1074 : Int) = -k := by omega
  unfold Decimal.RoundsTo
  rw [hneg, hone, Int.neg_neg, Int.toNat_natCast, Int.toNat_neg_natCast, Nat.pow_zero, Nat.mul_one,
    Nat.mul_assoc, Nat.pow_eq, ← Nat.mul_pow]
  exact rounds_unitsOf w (Nat.pow_pos (by decide))

theorem roundsTo_searchGrids (n : Nat) : Decimal.RoundsTo w (searchGrids tie w n) := by
  induction n with
  | zero => exact roundsTo_finest w
  | succ n ih =>
    unfold searchGrids
    split
    · exact roundsTo_onGrid? ‹_›
    · exact ih

theorem exponent_searchGrids (n : Nat) : (searchGrids tie w n).exponent ≤ n - 1074 := by
  induction n with
  | zero => exact Int.le_refl _
  | succ n ih =>
    unfold searchGrids
    split
    · dsimp only
      omega
    · omega

/-- The search starts low enough for the reader. -/
theorem coarsest_le (hw : w < topWord) : coarsest w ≤ 342 := by
  have hlog : Nat.log2 (unitsOf w) < 2098 := by
    by_cases hzero : w = 0
    · subst hzero
      decide
    · obtain ⟨s, m, rfl, hm, hfull⟩ := exists_parts w
      have hs : s ≤ 2045 := by
        simp only [leadingBit, topWord] at *
        omega
      have hlt : unitsOf (s * leadingBit + m) < 2 ^ (53 + s) := by
        rw [unitsOf_parts (Nat.le_of_lt hm) hfull, Nat.pow_add]
        exact Nat.mul_lt_mul_of_pos_right hm (Nat.two_pow_pos s)
      have hlog := (Nat.log2_lt (Nat.ne_of_gt (unitsOf_pos hzero))).mpr hlt
      omega
  unfold coarsest
  dsimp only
  split <;> omega

variable (tie) in
theorem roundsTo_shortest (hw : w ≠ 0) : Decimal.RoundsTo w (shortest tie w) := by
  rw [shortest, if_neg hw]
  exact roundsTo_searchGrids _

variable (tie) in
theorem exponent_shortest_le (hw : w < topWord) : (shortest tie w).exponent ≤ 342 := by
  unfold shortest
  split
  · decide
  · have hsearch : (searchGrids tie w (coarsest w + 1074).toNat).exponent ≤
        (coarsest w + 1074).toNat - 1074 := exponent_searchGrids _
    have hstart := coarsest_le hw
    omega

/-- **The shortest decimal of a value reads as that value**, whichever way its ties go. -/
theorem ofDecimal_shortest (tie : Decimal.Tie) {x : Finite} (hx : x.word ≠ 0) :
    ofDecimal x.negative (shortest tie x.word).digits (shortest tie x.word).exponent =
      .finite x := by
  have hexp := exponent_shortest_le tie x.word_lt
  exact (roundsTo_shortest tie hx).ofDecimal hx (by omega)

end Binary64

end EntityQuery

import EntityQuery.Local.Number
import EntityQuery.Proofs.Number.Scaling

/-!
# Cutting decimals off

A number is cut to `d` decimals by a product with `10^d`, a cut to an integer and a quotient by
`10^d`, each rounded. Here is what this makes of a number that has only these decimals, `k / 10^d`
as nearly as binary64 holds it. With a power of ten that is exact and `k` below `2^52`, the result is
`k / 10^d` again or `(k - 1) / 10^d`, and `cutDigits` says which. Without decimals the number stays,
whatever `k` is; with so many decimals that the power leaves the finite values, NaN is left.

Proof. Half a step of the rounding of `k / 10^d`, times `10^d`, is less than one half, so the product
lies within one half of `k`. It stays there when it is rounded, since the numbers one half away from
`k` are values; so its whole part is `k` or `k - 1`.
-/

namespace EntityQuery.Binary64

variable {k n d : Nat}

/-! ## Near a whole number -/

/-- Rounding is off by at most half a step, and the step is small against the result. -/
theorem nearestWord_near (n : Nat) (hd : 0 < d) :
    ∃ s, 2 * n ≤ 2 * (unitsOf (nearestWord n d) * d) + d * 2 ^ s ∧
      2 * (unitsOf (nearestWord n d) * d) ≤ 2 * n + d * 2 ^ s ∧
      (s = 0 ∨ leadingBit * 2 ^ s ≤ unitsOf (nearestWord n d)) := by
  obtain ⟨s, hword, hlt, hfull⟩ := scale_spec n hd
  have hstep : 0 < d * 2 ^ s := Nat.mul_pos hd (Nat.two_pow_pos s)
  obtain ⟨hm, hparts⟩ := divHalfEven_bounds hstep hlt hfull
  obtain ⟨habove, hbelow, -⟩ := divHalfEven_spec n hstep
  have hunits : unitsOf (nearestWord n d) = divHalfEven n (d * 2 ^ s) * 2 ^ s := by
    rw [hword, unitsOf_parts hm hparts]
  have hmul : unitsOf (nearestWord n d) * d = divHalfEven n (d * 2 ^ s) * (d * 2 ^ s) := by
    rw [hunits]
    ring
  refine ⟨s, hmul ▸ habove, hmul ▸ hbelow, hparts.imp_right fun h => ?_⟩
  rw [hunits]
  exact Nat.mul_le_mul_right _ h

/-- The product of the rounded quotient `k / d` by `d` lies within one half of `k`. -/
theorem scaled_near (hd : 0 < d) (hd' : d < one) (hk : k < leadingBit) :
    2 * (k * one) < 2 * (unitsOf (nearestWord (k * one) d) * d) + one ∧
      2 * (unitsOf (nearestWord (k * one) d) * d) < 2 * (k * one) + one := by
  obtain ⟨s, habove, hbelow, hfull⟩ := nearestWord_near (k * one) hd
  have hstep : d * 2 ^ s < one := by
    rcases hfull with rfl | hfull
    · rwa [Nat.pow_zero, Nat.mul_one]
    · -- with a full significand, a step of one or more would put the product beyond `k`
      by_contra hge
      have hpos : 0 < d * 2 ^ s := Nat.mul_pos hd (Nat.two_pow_pos s)
      have hfull' : (k + 1) * (d * 2 ^ s) ≤ unitsOf (nearestWord (k * one) d) * d := by
        calc (k + 1) * (d * 2 ^ s) ≤ leadingBit * (d * 2 ^ s) := Nat.mul_le_mul_right _ hk
          _ = leadingBit * 2 ^ s * d := by ring
          _ ≤ _ := Nat.mul_le_mul_right d hfull
      have hscaled : k * one ≤ k * (d * 2 ^ s) := Nat.mul_le_mul_left k (by omega)
      rw [Nat.succ_mul] at hfull'
      omega
  omega

/-- Halves of integers are values. -/
theorem exists_half : ∃ half, one = 2 * half ∧
    ∀ j ≤ 2 * leadingBit, ∃ w, w < topWord ∧ unitsOf w = j * half := by
  -- the exponent is kept a variable, so that no power is ever computed
  obtain ⟨e, he⟩ : ∃ e, e = 1073 := ⟨1073, rfl⟩
  refine ⟨2 ^ e, ?_, fun j hj => exists_unitsOf_pow hj (by omega) (by omega)⟩
  rw [one_eq, Nat.mul_comm, ← Nat.pow_succ, he]

/-- What lies within one half of `k` is rounded to a value whose whole part is `k` or one less. -/
theorem wholePart_near (hk : k < leadingBit) (habove : 2 * (k * one) < 2 * n + one)
    (hbelow : 2 * n < 2 * (k * one) + one) :
    nearestWord n 1 < topWord ∧
      (unitsOf (nearestWord n 1) / one = k ∨ unitsOf (nearestWord n 1) / one + 1 = k) := by
  obtain ⟨half, hone, hvalue⟩ := exists_half
  have hpos := one_pos
  have hscale : ∀ j, j * one = 2 * (j * half) ∧ (2 * j + 1) * half = 2 * (j * half) + half := by
    intro j
    rw [hone]
    constructor <;> ring
  -- the numbers one half away from `k` are values
  obtain ⟨w, hlt, hw⟩ := hvalue (2 * k + 1) (by omega)
  have hle : nearestWord n 1 ≤ w := by
    refine nearestWord_le Nat.one_pos ?_
    have hk1 := hscale k
    omega
  have hhigh : unitsOf (nearestWord n 1) / one < k + 1 := by
    rw [Nat.div_lt_iff_lt_mul one_pos, Nat.succ_mul]
    have hmono := unitsOf_strictMono.monotone hle
    have hk1 := hscale k
    omega
  refine ⟨Nat.lt_of_le_of_lt hle hlt, ?_⟩
  cases k with
  | zero => exact Or.inl (Nat.lt_one_iff.mp hhigh)
  | succ j =>
    obtain ⟨v, -, hv⟩ := hvalue (2 * j + 1) (by omega)
    have hj1 := hscale j
    have hsucc : (j + 1) * one = j * one + one := Nat.succ_mul j one
    have hle' : v ≤ nearestWord n 1 := by
      refine le_nearestWord Nat.one_pos ?_
      omega
    have hlow : j ≤ unitsOf (nearestWord n 1) / one := by
      rw [Nat.le_div_iff_mul_le one_pos]
      have hmono := unitsOf_strictMono.monotone hle'
      omega
    omega

/-! ## Cutting -/

/-- What is left of `k` when `k / 10^d` is scaled back by `10^d` and cut to an integer, each step
rounded: less than `k` if rounding has brought the product below it. -/
def cutDigits (k d : Nat) : Nat :=
  unitsOf (nearestWord (unitsOf (nearestWord (k * one) (10 ^ d)) * 10 ^ d) 1) / one

/-- **Scaling back and cutting takes at most one from the last place.** -/
theorem cutDigits_near (hd : d ≤ 22) (hk : k < leadingBit) :
    cutDigits k d = k ∨ cutDigits k d + 1 = k := by
  obtain ⟨habove, hbelow⟩ := scaled_near (Nat.pow_pos (by decide)) (pow_ten_lt_one hd) hk
  exact (wholePart_near hk habove hbelow).2

variable {negative : Bool}

theorem ofDecimal_places (negative : Bool) (k : Nat) (hd : d ≤ 400) :
    ofDecimal negative k (-(d : Int)) = ofUnits negative (k * one) (10 ^ d) := by
  by_cases hk : k = 0
  · rw [ofDecimal, if_pos hk, hk, Nat.zero_mul, ofUnits_zero negative (Nat.pow_pos (by decide))]
  · rw [ofDecimal, if_neg hk, if_neg (by omega), if_neg (by omega), Int.toNat_neg_natCast,
      Int.neg_neg, Int.toNat_natCast, Nat.pow_eq, Nat.pow_eq, Nat.pow_zero, Nat.mul_one]

theorem quotient_lt (hd : 0 < d) (hk : k ≤ 2 * leadingBit) : nearestWord (k * one) d < topWord := by
  obtain ⟨w, hw, hunits⟩ := exists_unitsOf_eq hk
  refine Nat.lt_of_le_of_lt (nearestWord_le hd ?_) hw
  rw [hunits]
  exact Nat.le_mul_of_pos_right _ hd

theorem toInt_toInt32 {digits : UInt32} (hd : digits.toNat ≤ 22) :
    digits.toInt32.toInt = digits.toNat := by
  have hsmall : 2 * digits.toBitVec.toNat < 2 ^ 32 := by
    have hval : digits.toBitVec.toNat = digits.toNat := rfl
    omega
  exact BitVec.toInt_eq_toNat_of_lt hsmall

theorem trunc_eq {x : Finite} (h : IsValue x.wholePart) :
    ∃ y : Finite, trunc (.finite x) = .finite y ∧ y.negative = x.negative ∧
      y.units = x.wholePart * one :=
  h.ofUnits_eq x.negative

/-- **What cutting leaves of a number with the decimals it keeps.** -/
theorem cutTo_ofDecimal (negative : Bool) {digits : UInt32} (hd : digits.toNat ≤ 22)
    (hk : k < leadingBit) :
    (ofDecimal negative k (-(digits.toNat : Int))).cutTo digits =
      ofDecimal negative (cutDigits k digits.toNat) (-(digits.toNat : Int)) := by
  have hpow : 0 < 10 ^ digits.toNat := Nat.pow_pos (by decide)
  obtain ⟨habove, hbelow⟩ := scaled_near hpow (pow_ten_lt_one hd) hk
  obtain ⟨hproduct, hcut⟩ := wholePart_near hk habove hbelow
  rw [ofDecimal_places negative k (by omega), ofUnits_of_lt (quotient_lt hpow (by omega)), cutTo,
    toInt_toInt32 hd, mul_pow_ten hd]
  dsimp only [Finite.units]
  rw [ofUnits_of_lt hproduct]
  have hvalue : IsValue (cutDigits k digits.toNat) := exists_unitsOf_eq (by
    have hnear := cutDigits_near hd hk
    omega)
  obtain ⟨y, hy, hsign, hunits⟩ := trunc_eq (x := ⟨negative, _, hproduct⟩) hvalue
  rw [hy, div_pow_ten hd, hsign, hunits, ofDecimal_places negative _ (by omega)]
  rfl

/-- Numbers one apart in the last place are different values. -/
theorem ofDecimal_succ_ne (hd : d ≤ 22) (hk : k + 1 < leadingBit) :
    ofDecimal negative k (-(d : Int)) ≠ ofDecimal negative (k + 1) (-(d : Int)) := by
  have hpow : 0 < 10 ^ d := Nat.pow_pos (by decide)
  intro heq
  rw [ofDecimal_places negative _ (by omega), ofDecimal_places negative _ (by omega),
    ofUnits_of_lt (quotient_lt hpow (by omega)), ofUnits_of_lt (quotient_lt hpow (by omega)),
    finite.injEq, Finite.mk.injEq] at heq
  have hbelow := (scaled_near hpow (pow_ten_lt_one hd) hk).1
  have habove := (scaled_near hpow (pow_ten_lt_one hd) (k := k) (by omega)).2
  have hsucc : (k + 1) * one = k * one + one := Nat.succ_mul k one
  rw [← heq.2] at hbelow
  omega

/-- **A number with the decimals that are kept is unchanged exactly if its scaled product is not
rounded below the whole number.** -/
theorem cutTo_ofDecimal_eq_iff (negative : Bool) {digits : UInt32} (hd : digits.toNat ≤ 22)
    (hk : k < leadingBit) :
    (ofDecimal negative k (-(digits.toNat : Int))).cutTo digits =
        ofDecimal negative k (-(digits.toNat : Int)) ↔ cutDigits k digits.toNat = k := by
  rw [cutTo_ofDecimal negative hd hk]
  rcases cutDigits_near hd hk with hcut | hcut
  · rw [hcut]
    exact iff_of_true rfl rfl
  · -- one less in the last place is another value
    refine iff_of_false (fun h => ?_) (by omega)
    generalize cutDigits k digits.toNat = q at hcut h
    subst hcut
    exact ofDecimal_succ_ne hd hk h

/-! ## No decimals, and too many -/

theorem divHalfEven_mul (n : Nat) (hd : 0 < d) : divHalfEven (n * d) d = n := by
  have hrest : ¬ (d < 2 * 0 ∨ 2 * 0 = d ∧ n % 2 = 1) := by omega
  rw [divHalfEven, Nat.mul_div_cancel n hd, Nat.mul_mod_left]
  exact if_neg hrest

/-- An integer of any size is rounded to an integer. -/
theorem one_dvd_unitsOf (k : Nat) : one ∣ unitsOf (nearestWord (k * one) 1) := by
  obtain ⟨e, hone⟩ : ∃ e, one = 2 ^ e := ⟨1074, one_eq⟩
  obtain ⟨s, hword, hlt, hfull⟩ := scale_spec (k * one) Nat.one_pos
  rw [Nat.one_mul] at hword hlt hfull
  obtain ⟨hm, hparts⟩ := divHalfEven_bounds (Nat.two_pow_pos s) hlt hfull
  rw [hword, unitsOf_parts hm hparts]
  rcases Nat.le_total s e with hs | hs
  · -- the steps are fractions of one, so nothing is rounded
    have hexact : k * one = k * 2 ^ (e - s) * 2 ^ s := by
      rw [hone, Nat.mul_assoc, pow_sub_mul_pow 2 hs]
    rw [hexact, divHalfEven_mul _ (Nat.two_pow_pos s), ← hexact]
    exact Nat.dvd_mul_left one k
  · rw [hone]
    exact Nat.dvd_mul_left_of_dvd (Nat.pow_dvd_pow 2 hs) _

theorem cutTo_zero_of_isInteger {x : Finite} (h : x.isInteger = true) :
    cutTo 0 (.finite x) = .finite x := by
  have hscale : (0 : UInt32).toInt32.toInt = (0 : Nat) := by decide
  have hexact : ofUnits x.negative x.units 1 = .finite x := by
    have hunits := ofUnits_units x Nat.one_pos
    rwa [Nat.mul_one] at hunits
  rw [cutTo, hscale, mul_pow_ten (Nat.zero_le 22), Nat.pow_zero, Nat.mul_one, hexact, trunc,
    wholePart_mul_one h, hexact, div_pow_ten (Nat.zero_le 22), Nat.pow_zero, hexact]

/-- **Without decimals nothing is cut off**, whatever the size of the number. -/
theorem cutTo_zero (negative : Bool) (k : Nat) :
    cutTo 0 (ofDecimal negative k 0) = ofDecimal negative k 0 := by
  have hplaces : ofDecimal negative k 0 = ofUnits negative (k * one) 1 :=
    ofDecimal_places negative k (Nat.zero_le 400)
  rw [hplaces]
  cases hx : ofUnits negative (k * one) 1 with
  | finite x =>
    have hunits : x.units = unitsOf (nearestWord (k * one) 1) := congrArg unitsOf (eq_of_ofUnits hx).2
    refine cutTo_zero_of_isInteger ?_
    rw [Finite.isInteger, hunits, Nat.mod_eq_zero_of_dvd (one_dvd_unitsOf k)]
    rfl
  | infinite s =>
    have hscale : (0 : UInt32).toInt32.toInt = (0 : Nat) := by decide
    obtain ⟨y, hy, hsign, -, hword⟩ := pow_ten_finite (Nat.zero_le 22)
    rw [cutTo, hscale, hy, mul, if_neg hword, trunc, div, hsign, Bool.bne_false, Bool.bne_false]
    · intro y hy
      cases hy
  | nan => rw [cutTo, mul, trunc, div] <;> simp

theorem finite_mul_zero (x : Finite) : mul (.finite x) (zero false) = zero x.negative := by
  have hmul : mul (.finite x) (zero false) = ofUnits (x.negative != false) (x.units * unitsOf 0) one :=
    rfl
  rw [hmul, unitsOf_zero, Nat.mul_zero, ofUnits_zero _ one_pos, Bool.bne_false]

theorem trunc_zero (negative : Bool) : trunc (zero negative) = zero negative := by
  have htrunc : trunc (zero negative) = ofUnits negative (unitsOf 0 / one * one) 1 := rfl
  rw [htrunc, unitsOf_zero, Nat.zero_div, Nat.zero_mul, ofUnits_zero _ Nat.one_pos]

/-- **With too many decimals nothing is left**: the power of ten is infinite or zero. -/
theorem cutTo_of_large {digits : UInt32} (h : 342 ≤ digits.toInt32.toInt.natAbs) (x : Binary64) :
    x.cutTo digits = .nan := by
  rw [cutTo, pow_ten_of_large h]
  split
  · cases x with
    | finite x =>
      rw [finite_mul_zero, trunc_zero]
      rfl
    | infinite s => rfl
    | nan => rfl
  · cases x with
    | finite x =>
      rw [mul]
      split <;> rfl
    | infinite s => rfl
    | nan => rfl

end EntityQuery.Binary64

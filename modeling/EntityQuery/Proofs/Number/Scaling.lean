import EntityQuery.Proofs.Number.Rounding

/-!
# Scaling by powers of ten

Powers of ten come from squaring and multiplying, each product rounded. Up to `10^22` they are exact,
and from some power on they are infinite.

Proof. What a product of two powers keeps, square and multiply keeps at every step: that the power
is exact, as far as it is a binary64 value, or that it is at least a power of two.
-/

namespace EntityQuery.Binary64

/-! ## Sums and products of integers -/

/-- A natural number that is a binary64 value. -/
def IsValue (n : Nat) : Prop :=
  ∃ w, w < topWord ∧ unitsOf w = n * one

variable {m n : Nat}

theorem IsValue.ofUnits_eq (h : IsValue n) (negative : Bool) :
    ∃ x : Finite, ofUnits negative (n * one) 1 = .finite x ∧ x.negative = negative ∧
      x.units = n * one := by
  obtain ⟨w, hlt, hunits⟩ := h
  refine ⟨⟨negative, w, hlt⟩, ?_, rfl, hunits⟩
  have hexact := ofUnits_units ⟨negative, w, hlt⟩ Nat.one_pos
  rwa [Finite.units, hunits, Nat.mul_one] at hexact

theorem ofInt_natCast (n : Nat) : ofInt n = ofUnits false (n * one) 1 := by
  have hsign : decide ((n : Int) < 0) = false := decide_eq_false (by omega)
  rw [ofInt, hsign, Int.natAbs_natCast]

theorem IsValue.ofInt_eq (h : IsValue n) :
    ∃ x : Finite, ofInt n = .finite x ∧ x.negative = false ∧ x.units = n * one := by
  rw [ofInt_natCast]
  exact h.ofUnits_eq false

theorem mul_ofInt (hm : IsValue m) (hn : IsValue n) :
    mul (ofInt m) (ofInt n) = ofInt (m * n : Nat) := by
  obtain ⟨x, hx, hxsign, hxunits⟩ := hm.ofInt_eq
  obtain ⟨y, hy, hysign, hyunits⟩ := hn.ofInt_eq
  rw [hx, hy, mul, signOf, hxsign, hysign, hxunits, hyunits, ofInt_natCast]
  refine ofUnits_congr one_pos Nat.one_pos ?_
  ring

theorem add_ofInt (hm : IsValue m) (hn : IsValue n) :
    add (ofInt m) (ofInt n) = ofInt (m + n : Nat) := by
  have hnat : ∀ k : Nat, ofSignedUnits false k = ofUnits false k 1 := by
    intro k
    have hsign : decide ((k : Int) < 0) = false := decide_eq_false (by omega)
    rw [ofSignedUnits, hsign, ite_self, Int.natAbs_natCast]
  obtain ⟨x, hx, hxsign, hxunits⟩ := hm.ofInt_eq
  obtain ⟨y, hy, hysign, hyunits⟩ := hn.ofInt_eq
  have hsum : x.signedUnits + y.signedUnits = ((m + n) * one : Nat) := by
    simp only [Finite.signedUnits, hxsign, hysign, hxunits, hyunits, Bool.false_eq_true, if_false]
    rw [Nat.add_mul, Int.natCast_add]
  rw [hx, hy, add, hxsign, hysign, Bool.and_false, hsum, hnat, ofInt_natCast]

/-! ## Square and multiply -/

/-- What products keep up to some exponent, square and multiply keeps. -/
theorem powFrom_induction {R : Nat → Binary64 → Prop} {bound : Nat}
    (hmul : ∀ {a b : Nat} {x y : Binary64}, a + b ≤ bound → R a x → R b y → R (a + b) (mul x y))
    (n : Nat) {a b : Nat} {acc base : Binary64} (hacc : R a acc) (hbase : R b base)
    (hle : a + b * n ≤ bound) : R (a + b * n) (powFrom acc base n) := by
  induction n using Nat.strong_induction_on generalizing a b acc base with
  | _ n ih =>
    -- the low bit goes into the accumulator
    have hbits : n = 2 * (n / 2) + n % 2 := (Nat.div_add_mod n 2).symm
    have hsplit : a + b * n = a + b * (n % 2) + (b + b) * (n / 2) := by
      calc a + b * n = a + b * (2 * (n / 2) + n % 2) := by rw [← hbits]
        _ = _ := by ring
    have hlow : R (a + b * (n % 2)) (if n % 2 = 1 then mul acc base else acc) := by
      rcases Nat.mod_two_eq_zero_or_one n with hbit | hbit
      · rw [hbit, if_neg (by decide), Nat.mul_zero, Nat.add_zero]
        exact hacc
      · rw [hbit, if_pos rfl, Nat.mul_one]
        refine hmul ?_ hacc hbase
        rw [hbit, Nat.mul_one] at hsplit
        omega
    rw [powFrom]
    split
    · rename_i hzero
      rwa [hsplit, hzero, Nat.mul_zero, Nat.add_zero]
    · rename_i hhigh
      have hsquare : b + b ≤ (b + b) * (n / 2) :=
        Nat.le_mul_of_pos_right _ (Nat.pos_of_ne_zero hhigh)
      rw [hsplit]
      exact ih (n / 2) (by omega) hlow (hmul (by omega) hbase hbase) (by omega)

/-! ## Powers of ten -/

theorem isValue_pow_ten {i : Nat} (hi : i ≤ 22) : IsValue (10 ^ i) := by
  have hfive : 5 ^ i ≤ 2 * leadingBit :=
    Nat.le_trans (Nat.pow_le_pow_right (by decide) hi) (by decide)
  have hten : 10 ^ i = 5 ^ i * 2 ^ i := Nat.mul_pow 5 2 i
  obtain ⟨k, hk, hone⟩ : ∃ k, k = 1074 ∧ one = 2 ^ k := ⟨1074, rfl, one_eq⟩
  obtain ⟨w, hlt, hunits⟩ := exists_unitsOf_pow (e := i + k) hfive (by omega) (by omega)
  refine ⟨w, hlt, ?_⟩
  rw [hunits, hten, hone, Nat.pow_add, Nat.mul_assoc]

/-- **Powers of ten up to `10^22` are computed exactly.** -/
theorem pow_ten_eq {d : Nat} (hd : d ≤ 22) : (ofInt 10).pow d = ofInt (10 ^ d : Nat) := by
  have hmul : ∀ {a b : Nat} {x y : Binary64}, a + b ≤ 22 → x = ofInt (10 ^ a : Nat) →
      y = ofInt (10 ^ b : Nat) → mul x y = ofInt (10 ^ (a + b) : Nat) := by
    rintro a b _ _ hab rfl rfl
    rw [mul_ofInt (isValue_pow_ten (by omega)) (isValue_pow_ten (by omega)), Nat.pow_add]
  have hpow : powFrom (ofInt 1) (ofInt 10) d = ofInt (10 ^ (0 + 1 * d) : Nat) :=
    powFrom_induction (R := fun i x => x = ofInt (10 ^ i : Nat)) hmul d rfl rfl (by omega)
  rw [Nat.zero_add, Nat.one_mul] at hpow
  rw [pow, Int.natAbs_natCast, hpow]
  exact if_neg (by omega)

theorem pow_ten_lt_one {d : Nat} (hd : d ≤ 22) : 10 ^ d < one := by
  have hten : 10 ^ 22 < 2 ^ 74 := by decide
  rw [one_eq]
  calc 10 ^ d ≤ 10 ^ 22 := Nat.pow_le_pow_right (by decide) hd
    _ < 2 ^ 74 := hten
    _ ≤ _ := Nat.pow_le_pow_right (by decide) (by omega)

theorem pow_ten_finite {d : Nat} (hd : d ≤ 22) : ∃ y : Finite, (ofInt 10).pow d = .finite y ∧
    y.negative = false ∧ y.units = 10 ^ d * one ∧ y.word ≠ 0 := by
  obtain ⟨y, hy, hsign, hunits⟩ := (isValue_pow_ten hd).ofInt_eq
  have hpos : 0 < 10 ^ d * one := Nat.mul_pos (Nat.pow_pos (by decide)) one_pos
  refine ⟨y, (pow_ten_eq hd).trans hy, hsign, hunits, fun hzero => ?_⟩
  rw [units_eq_zero_iff.mpr hzero] at hunits
  omega

theorem mul_pow_ten {d : Nat} {x : Finite} (hd : d ≤ 22) :
    mul (.finite x) ((ofInt 10).pow d) = ofUnits x.negative (x.units * 10 ^ d) 1 := by
  obtain ⟨y, hy, hsign, hunits, -⟩ := pow_ten_finite hd
  rw [hy, mul, signOf, hsign, hunits, Bool.bne_false]
  refine ofUnits_congr one_pos Nat.one_pos ?_
  ring

theorem div_pow_ten {d : Nat} {x : Finite} (hd : d ≤ 22) :
    div (.finite x) ((ofInt 10).pow d) = ofUnits x.negative x.units (10 ^ d) := by
  obtain ⟨y, hy, hsign, hunits, hword⟩ := pow_ten_finite hd
  have hpow : 0 < 10 ^ d := Nat.pow_pos (by decide)
  rw [hy, div, if_neg hword, signOf, hsign, Bool.bne_false, hunits]
  refine ofUnits_congr (Nat.mul_pos hpow one_pos) hpow ?_
  ring

/-! ## Powers beyond the finite values -/

/-- A positive value of at least `2^e`, or the positive infinity. -/
inductive AtLeast (e : Nat) : Binary64 → Prop
  | finite {x : Finite} (hsign : x.negative = false) (hunits : 2 ^ e * one ≤ x.units) :
    AtLeast e (.finite x)
  | infinite : AtLeast e (.infinite false)

theorem unitsOf_pow_two (e : Nat) : unitsOf ((e + 1022) * leadingBit + leadingBit) = 2 ^ e * one := by
  obtain ⟨k, hk⟩ : ∃ k, k = 1022 := ⟨1022, rfl⟩
  have hone : one = 2 ^ (52 + k) := by rw [one_eq, hk]
  rw [← hk, unitsOf_parts (by decide) (Or.inr (Nat.le_refl _)), hone]
  calc leadingBit * 2 ^ (e + k) = 2 ^ 52 * 2 ^ (e + k) := rfl
    _ = 2 ^ e * 2 ^ (52 + k) := by ring

theorem atLeast_ofUnits {e d : Nat} (hd : 0 < d) (h : 2 ^ e * one * d ≤ n) :
    AtLeast e (ofUnits false n d) := by
  unfold ofUnits
  split
  · refine .finite rfl ?_
    rw [← unitsOf_pow_two] at h ⊢
    exact unitsOf_strictMono.monotone (le_nearestWord hd h)
  · exact .infinite

theorem atLeast_ofInt {e : Nat} (h : 2 ^ e ≤ n) : AtLeast e (ofInt n) := by
  rw [ofInt_natCast]
  refine atLeast_ofUnits Nat.one_pos ?_
  rw [Nat.mul_one]
  exact Nat.mul_le_mul_right one h

theorem AtLeast.mul {a b : Nat} {x y : Binary64} (hx : AtLeast a x) (hy : AtLeast b y) :
    AtLeast (a + b) (Binary64.mul x y) := by
  have hne : ∀ {e : Nat} {z : Finite}, 2 ^ e * one ≤ z.units → z.word ≠ 0 := by
    intro e z hunits hzero
    have hpos : 0 < 2 ^ e * one := Nat.mul_pos (Nat.two_pow_pos e) one_pos
    rw [units_eq_zero_iff.mpr hzero] at hunits
    omega
  cases hx with
  | @finite x hxsign hxunits =>
    cases hy with
    | @finite y hysign hyunits =>
      rw [Binary64.mul, signOf, hxsign, hysign]
      refine atLeast_ofUnits one_pos ?_
      calc 2 ^ (a + b) * one * one = 2 ^ a * one * (2 ^ b * one) := by rw [Nat.pow_add]; ring
        _ ≤ x.units * y.units := Nat.mul_le_mul hxunits hyunits
    | infinite =>
      rw [Binary64.mul, if_neg (hne hxunits), hxsign]
      exact .infinite
  | infinite =>
    cases hy with
    | finite hysign hyunits =>
      rw [Binary64.mul, if_neg (hne hyunits), hysign]
      exact .infinite
    | infinite => exact .infinite

theorem AtLeast.eq_infinite {e : Nat} {x : Binary64} (h : AtLeast e x) (he : 1024 ≤ e) :
    x = .infinite false := by
  cases h with
  | @finite x _ hunits =>
    rw [← unitsOf_pow_two] at hunits
    have hle := unitsOf_strictMono.le_iff_le.mp hunits
    have hlt := x.word_lt
    have hmul : 2046 * leadingBit ≤ (e + 1022) * leadingBit := Nat.mul_le_mul_right _ (by omega)
    simp only [leadingBit, topWord] at *
    omega
  | infinite => rfl

theorem powFrom_ten_infinite {d : Nat} (hd : 342 ≤ d) :
    powFrom (ofInt 1) (ofInt 10) d = .infinite false := by
  have hone : AtLeast 0 (ofInt (1 : Nat)) := atLeast_ofInt (by decide)
  have hten : AtLeast 3 (ofInt (10 : Nat)) := atLeast_ofInt (by decide)
  have hpow : AtLeast (0 + 3 * d) (powFrom (ofInt 1) (ofInt 10) d) :=
    powFrom_induction (fun _ hx hy => hx.mul hy) d hone hten (Nat.le_refl _)
  exact hpow.eq_infinite (by omega)

/-- **A power of ten beyond the finite values is infinite**, and its reciprocal zero. -/
theorem pow_ten_of_large {n : Int} (hn : 342 ≤ n.natAbs) :
    (ofInt 10).pow n = if n < 0 then zero false else .infinite false := by
  have hone : IsValue 1 := isValue_pow_ten (i := 0) (by omega)
  obtain ⟨x, hx, hsign, -⟩ := hone.ofInt_eq
  have hzero : div (ofInt 1) (.infinite false) = zero false := by
    have hx' : ofInt 1 = .finite x := hx
    rw [hx', div, hsign]
    rfl
  rw [pow, powFrom_ten_infinite hn, hzero]

end EntityQuery.Binary64

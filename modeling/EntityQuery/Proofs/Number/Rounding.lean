import EntityQuery.Number.Shortest
import Mathlib.Data.Nat.Log
import Mathlib.Order.Monotone.Basic
import Mathlib.Tactic.Ring

/-!
# Correct rounding

`nearestWord n d` is the one word whose interval holds the quotient `n / d`: the quotient lies
between the midpoints to the neighbouring words, and on a midpoint only when the word is even.

Proof. A word is `s * 2^52 + m` with a significand `m` below `2^53`, full unless `s = 0`, and stands
for `m * 2^s` units. This is also right for `m = 2^53`, which is how a significand that rounds up
carries. So the midpoint above it is `(2 * m + 1) * 2^s` half units, and rounding to `m` half to even
at the scale `2^s` leaves the quotient within the interval of the word. No other word has the
quotient in its interval: intervals of different words meet at most in a common end, where one of
the two words is odd.
-/

namespace EntityQuery.Binary64

/-! ## Words and their units -/

/-- A word in parts: its significand, full unless the scale is that of the least words. -/
theorem exists_parts (w : Nat) :
    ∃ s m, w = s * leadingBit + m ∧ m < 2 * leadingBit ∧ (s = 0 ∨ leadingBit ≤ m) := by
  by_cases hw : w < leadingBit
  · exact ⟨0, w, by omega, by omega, Or.inl rfl⟩
  · refine ⟨w / leadingBit - 1, leadingBit + w % leadingBit, ?_, ?_, Or.inr (Nat.le_add_right _ _)⟩ <;>
    · simp only [leadingBit] at hw ⊢
      omega

variable {s m w n d : Nat}

/-- The units of a word in parts, also of one whose significand has just carried. -/
theorem unitsOf_parts (hm : m ≤ 2 * leadingBit) (h : s = 0 ∨ leadingBit ≤ m) :
    unitsOf (s * leadingBit + m) = m * 2 ^ s := by
  unfold unitsOf
  simp only [leadingBit] at hm h ⊢
  by_cases hsmall : s * 0x10000000000000 + m < 0x10000000000000
  · have hs : s = 0 := by omega
    rw [if_pos hsmall, hs]
    omega
  · rw [if_neg hsmall, Nat.shiftLeft_eq]
    by_cases hcarry : m = 2 * 0x10000000000000
    · have hmod : (s * 0x10000000000000 + m) % 0x10000000000000 = 0 := by omega
      have hdiv : (s * 0x10000000000000 + m) / 0x10000000000000 - 1 = s + 1 := by omega
      rw [hmod, hdiv, hcarry]
      ring
    · have hmod : 0x10000000000000 + (s * 0x10000000000000 + m) % 0x10000000000000 = m := by omega
      have hdiv : (s * 0x10000000000000 + m) / 0x10000000000000 - 1 = s := by omega
      rw [hmod, hdiv]

theorem lowerEnd_succ (w : Nat) : lowerEnd (w + 1) = upperEnd w := rfl

/-- The midpoint above a word in parts. -/
theorem upperEnd_parts (hm : m < 2 * leadingBit) (h : s = 0 ∨ leadingBit ≤ m) :
    upperEnd (s * leadingBit + m) = (2 * m + 1) * 2 ^ s := by
  rw [upperEnd, Nat.add_assoc, unitsOf_parts (by omega) h, unitsOf_parts (by omega) (by omega)]
  ring

/-- A significand that has carried has the midpoint above it further away. -/
theorem le_upperEnd_parts (hm : m ≤ 2 * leadingBit) (h : s = 0 ∨ leadingBit ≤ m) :
    (2 * m + 1) * 2 ^ s ≤ upperEnd (s * leadingBit + m) := by
  rcases Nat.lt_or_eq_of_le hm with hlt | rfl
  · exact Nat.le_of_eq (upperEnd_parts hlt h).symm
  · have hword : s * leadingBit + 2 * leadingBit = (s + 1) * leadingBit + leadingBit := by ring
    rw [hword, upperEnd_parts (by decide) (Or.inr (Nat.le_refl _))]
    calc (2 * (2 * leadingBit) + 1) * 2 ^ s ≤ (2 * (2 * leadingBit) + 2) * 2 ^ s :=
          Nat.mul_le_mul_right _ (Nat.le_succ _)
      _ = (2 * leadingBit + 1) * 2 ^ (s + 1) := by ring

/-- The midpoint below a word in parts: half a step down, or less at the least word of a scale, whose
lower neighbour has the finer scale. -/
theorem lowerEnd_parts (hm : m ≤ 2 * leadingBit) (h : s = 0 ∨ leadingBit ≤ m) :
    lowerEnd (s * leadingBit + m) + 2 ^ s = 2 * m * 2 ^ s ∨
      (m = 0 ∨ s ≠ 0 ∧ m = leadingBit) ∧ lowerEnd (s * leadingBit + m) ≤ 2 * m * 2 ^ s := by
  have hbit : 0 < leadingBit := by decide
  rcases Nat.eq_zero_or_pos m with rfl | hpos
  · have hs : s = 0 := by omega
    subst hs
    exact Or.inr ⟨Or.inl rfl, by decide⟩
  · obtain ⟨k, rfl⟩ : ∃ k, m = k + 1 := ⟨m - 1, by omega⟩
    by_cases hk : s = 0 ∨ leadingBit ≤ k
    · left
      rw [← Nat.add_assoc, lowerEnd_succ, upperEnd_parts (by omega) hk]
      ring
    · -- the least word of its scale follows the last one of the scale before
      right
      obtain ⟨r, rfl⟩ : ∃ r, s = r + 1 := ⟨s - 1, by omega⟩
      have hword : (r + 1) * leadingBit + (k + 1) = r * leadingBit + (2 * leadingBit - 1) + 1 := by
        rw [Nat.succ_mul]
        omega
      refine ⟨Or.inr ⟨Nat.succ_ne_zero r, by omega⟩, ?_⟩
      rw [hword, lowerEnd_succ, upperEnd_parts (by omega) (by omega)]
      calc (2 * (2 * leadingBit - 1) + 1) * 2 ^ r ≤ 4 * (k + 1) * 2 ^ r :=
            Nat.mul_le_mul_right _ (by omega)
        _ = 2 * (k + 1) * 2 ^ (r + 1) := by ring

theorem unitsOf_lt_succ (w : Nat) : unitsOf w < unitsOf (w + 1) := by
  obtain ⟨s, m, rfl, hm, h⟩ := exists_parts w
  rw [Nat.add_assoc, unitsOf_parts (by omega) h, unitsOf_parts (by omega) (by omega)]
  exact Nat.mul_lt_mul_of_pos_right (Nat.lt_succ_self m) (Nat.two_pow_pos s)

theorem unitsOf_strictMono : StrictMono unitsOf :=
  strictMono_nat_of_lt_succ unitsOf_lt_succ

theorem upperEnd_strictMono : StrictMono upperEnd := fun _ _ h =>
  Nat.add_lt_add (unitsOf_strictMono h) (unitsOf_strictMono (Nat.succ_lt_succ h))

/-! ## The interval of a word -/

/-- The quotient `n / d` lies in the interval of a word, whose ends count when the word is even. -/
def Rounds (w n d : Nat) : Prop :=
  if w % 2 = 0 then lowerEnd w * d ≤ 2 * n ∧ 2 * n ≤ upperEnd w * d
  else lowerEnd w * d < 2 * n ∧ 2 * n < upperEnd w * d

theorem Rounds.le (h : Rounds w n d) : lowerEnd w * d ≤ 2 * n ∧ 2 * n ≤ upperEnd w * d := by
  unfold Rounds at h
  split at h <;> omega

/-- An odd word does not take the ends of its interval. -/
theorem Rounds.lt (h : Rounds w n d) (hw : w % 2 = 1) :
    lowerEnd w * d < 2 * n ∧ 2 * n < upperEnd w * d := by
  unfold Rounds at h
  rwa [if_neg (by omega)] at h

theorem rounds_of_lt (h : lowerEnd w * d < 2 * n) (h' : 2 * n < upperEnd w * d) :
    Rounds w n d := by
  unfold Rounds
  split
  · exact ⟨Nat.le_of_lt h, Nat.le_of_lt h'⟩
  · exact ⟨h, h'⟩

/-- Of the words of two quotients, that of the greater quotient is not the lesser one. -/
theorem Rounds.not_lt {w' n' d' : Nat} (hd : 0 < d) (hd' : 0 < d') (h : Rounds w n d)
    (h' : Rounds w' n' d') (hle : n' * d ≤ n * d') : ¬ w < w' := by
  intro hlt
  obtain ⟨v, rfl⟩ : ∃ v, w' = v + 1 := ⟨w' - 1, by omega⟩
  have hmul : 2 * n' * d ≤ 2 * n * d' := by
    calc 2 * n' * d = 2 * (n' * d) := Nat.mul_assoc _ _ _
      _ ≤ 2 * (n * d') := Nat.mul_le_mul_left 2 hle
      _ = 2 * n * d' := (Nat.mul_assoc _ _ _).symm
  have hupper : 2 * n * d' ≤ upperEnd w * d * d' := Nat.mul_le_mul_right d' h.le.2
  have hlower : upperEnd v * d' * d ≤ 2 * n' * d := Nat.mul_le_mul_right d h'.le.1
  have hswap : upperEnd v * d' * d = upperEnd v * d * d' := Nat.mul_right_comm _ _ _
  have hends : upperEnd v ≤ upperEnd w := by
    refine Nat.le_of_mul_le_mul_right (Nat.le_of_mul_le_mul_right ?_ hd') hd
    omega
  -- the intervals meet, so the words are neighbours and one of them is odd
  have hv : v = w := Nat.le_antisymm (upperEnd_strictMono.le_iff_le.mp hends) (by omega)
  subst hv
  rcases Nat.mod_two_eq_zero_or_one v with hpar | hpar
  · have hodd : upperEnd v * d' * d < 2 * n' * d :=
      Nat.mul_lt_mul_of_pos_right (h'.lt (by omega)).1 hd
    omega
  · have hodd : 2 * n * d' < upperEnd v * d * d' :=
      Nat.mul_lt_mul_of_pos_right (h.lt hpar).2 hd'
    omega

theorem Rounds.unique {w' : Nat} (hd : 0 < d) (h : Rounds w n d) (h' : Rounds w' n d) : w = w' :=
  Nat.le_antisymm (Nat.not_lt.mp (h'.not_lt hd hd h (Nat.le_refl _)))
    (Nat.not_lt.mp (h.not_lt hd hd h' (Nat.le_refl _)))

/-! ## Rounding to nearest -/

/-- Half to even leaves a remainder of at most half a step, and less than that from an odd result. -/
theorem divHalfEven_spec (n : Nat) (hd : 0 < d) :
    2 * n ≤ 2 * (divHalfEven n d * d) + d ∧ 2 * (divHalfEven n d * d) ≤ 2 * n + d ∧
      (divHalfEven n d % 2 = 1 →
        2 * n < 2 * (divHalfEven n d * d) + d ∧ 2 * (divHalfEven n d * d) < 2 * n + d) := by
  have hn := Nat.div_add_mod' n d
  have hr := Nat.mod_lt n hd
  have hnext : (n / d + 1) * d = n / d * d + d := Nat.succ_mul (n / d) d
  unfold divHalfEven
  dsimp only
  split <;> omega

/-- The scale that rounding takes leaves a full significand of at most 53 bits before rounding. -/
theorem scale_spec (n : Nat) (hd : 0 < d) :
    ∃ s, nearestWord n d = s * leadingBit + divHalfEven n (d * 2 ^ s) ∧
      n < 2 * (leadingBit * (d * 2 ^ s)) ∧ (s = 0 ∨ leadingBit * (d * 2 ^ s) ≤ n) := by
  refine ⟨Nat.log2 (n / d) - 52, ?_, ?_, ?_⟩
  · rw [nearestWord, Nat.shiftLeft_eq]
  · have hlt : n / d < 2 ^ (Nat.log2 (n / d) + 1) := Nat.lt_log2_self
    have hpow : 2 ^ (Nat.log2 (n / d) + 1) ≤ 2 ^ (53 + (Nat.log2 (n / d) - 52)) :=
      Nat.pow_le_pow_right (by decide) (by omega)
    calc n < 2 ^ (53 + (Nat.log2 (n / d) - 52)) * d :=
          (Nat.div_lt_iff_lt_mul hd).mp (Nat.lt_of_lt_of_le hlt hpow)
      _ = 2 * (leadingBit * (d * 2 ^ (Nat.log2 (n / d) - 52))) := by rw [Nat.pow_add]; ring
  · by_cases hsmall : Nat.log2 (n / d) ≤ 52
    · exact Or.inl (Nat.sub_eq_zero_of_le hsmall)
    · have hq : n / d ≠ 0 := by
        intro hzero
        rw [hzero] at hsmall
        exact hsmall (by decide)
      have hpow : 2 ^ Nat.log2 (n / d) = 2 ^ (52 + (Nat.log2 (n / d) - 52)) := by
        congr 1
        omega
      refine Or.inr ?_
      calc leadingBit * (d * 2 ^ (Nat.log2 (n / d) - 52))
          = 2 ^ (52 + (Nat.log2 (n / d) - 52)) * d := by rw [Nat.pow_add]; ring
        _ = 2 ^ Nat.log2 (n / d) * d := by rw [hpow]
        _ ≤ n / d * d := Nat.mul_le_mul_right d (Nat.log2_self_le hq)
        _ ≤ n := Nat.div_mul_le_self n d

/-- Rounding leaves a full significand full, and carries at most into the next bit. -/
theorem divHalfEven_bounds (hd : 0 < d) (hlt : n < 2 * (leadingBit * d))
    (hfull : s = 0 ∨ leadingBit * d ≤ n) :
    divHalfEven n d ≤ 2 * leadingBit ∧ (s = 0 ∨ leadingBit ≤ divHalfEven n d) := by
  obtain ⟨habove, hbelow, -⟩ := divHalfEven_spec n hd
  constructor
  · by_contra hgt
    have hmul : (2 * leadingBit + 1) * d ≤ divHalfEven n d * d := Nat.mul_le_mul_right d (by omega)
    rw [Nat.succ_mul, Nat.mul_assoc] at hmul
    omega
  · refine hfull.imp_right fun hn => ?_
    by_contra hgt
    have hmul : (divHalfEven n d + 1) * d ≤ leadingBit * d := Nat.mul_le_mul_right d (by omega)
    rw [Nat.succ_mul] at hmul
    omega

theorem parts_mod_two (s m : Nat) : (s * leadingBit + m) % 2 = m % 2 := by
  have heven : s * leadingBit = 2 * (s * 0x8000000000000) := by
    simp only [leadingBit]
    ring
  omega

/-- A quotient within half a step of a significand lies in the interval of the word. At the least
word of a scale, where the interval is shorter below, the quotient is not below the word at all. -/
theorem rounds_parts (hm : m ≤ 2 * leadingBit) (hparts : s = 0 ∨ leadingBit ≤ m)
    (hfull : s = 0 ∨ leadingBit * (d * 2 ^ s) ≤ n)
    (habove : 2 * n ≤ 2 * (m * (d * 2 ^ s)) + d * 2 ^ s)
    (hbelow : 2 * (m * (d * 2 ^ s)) ≤ 2 * n + d * 2 ^ s)
    (hodd : m % 2 = 1 → 2 * n < 2 * (m * (d * 2 ^ s)) + d * 2 ^ s ∧
      2 * (m * (d * 2 ^ s)) < 2 * n + d * 2 ^ s) :
    Rounds (s * leadingBit + m) n d := by
  have hlower : lowerEnd (s * leadingBit + m) * d ≤ 2 * n ∧
      (m % 2 = 1 → lowerEnd (s * leadingBit + m) * d < 2 * n) := by
    rcases lowerEnd_parts hm hparts with hend | ⟨hfirst, hend⟩
    · have hmul : lowerEnd (s * leadingBit + m) * d + d * 2 ^ s = 2 * (m * (d * 2 ^ s)) := by
        calc _ = (lowerEnd (s * leadingBit + m) + 2 ^ s) * d := by ring
          _ = _ := by rw [hend]; ring
      omega
    · have hmul : lowerEnd (s * leadingBit + m) * d ≤ 2 * (m * (d * 2 ^ s)) := by
        calc _ ≤ 2 * m * 2 ^ s * d := Nat.mul_le_mul_right d hend
          _ = _ := by ring
      rcases hfirst with rfl | ⟨hs, rfl⟩
      · omega
      · have hn := hfull.resolve_left hs
        have heven : leadingBit % 2 = 0 := by decide
        omega
  have hupper : 2 * (m * (d * 2 ^ s)) + d * 2 ^ s ≤ upperEnd (s * leadingBit + m) * d := by
    calc _ = (2 * m + 1) * 2 ^ s * d := by ring
      _ ≤ _ := Nat.mul_le_mul_right d (le_upperEnd_parts hm hparts)
  unfold Rounds
  rw [parts_mod_two]
  split <;> omega

/-- **Rounding to nearest is correct**: the quotient lies in the interval of the word it rounds to. -/
theorem rounds_nearestWord (n : Nat) (hd : 0 < d) : Rounds (nearestWord n d) n d := by
  obtain ⟨s, hword, hlt, hfull⟩ := scale_spec n hd
  have hstep : 0 < d * 2 ^ s := Nat.mul_pos hd (Nat.two_pow_pos s)
  obtain ⟨hm, hparts⟩ := divHalfEven_bounds hstep hlt hfull
  obtain ⟨habove, hbelow, hodd⟩ := divHalfEven_spec n hstep
  rw [hword]
  exact rounds_parts hm hparts hfull habove hbelow hodd

/-- **A quotient rounds to the word whose interval it lies in**, and to no other. -/
theorem nearestWord_eq_iff (hd : 0 < d) : nearestWord n d = w ↔ Rounds w n d := by
  constructor
  · rintro rfl
    exact rounds_nearestWord n hd
  · exact Rounds.unique hd (rounds_nearestWord n hd)

/-- **Rounding is monotone.** -/
theorem nearestWord_mono {n' d' : Nat} (hd : 0 < d) (hd' : 0 < d') (h : n * d' ≤ n' * d) :
    nearestWord n d ≤ nearestWord n' d' :=
  Nat.not_lt.mp
    ((rounds_nearestWord n' hd').not_lt hd' hd (rounds_nearestWord n hd) h)

/-- Rounding depends on the value of the quotient alone. -/
theorem nearestWord_congr {n' d' : Nat} (hd : 0 < d) (hd' : 0 < d') (h : n * d' = n' * d) :
    nearestWord n d = nearestWord n' d' :=
  Nat.le_antisymm (nearestWord_mono hd hd' (Nat.le_of_eq h))
    (nearestWord_mono hd' hd (Nat.le_of_eq h.symm))

/-! ## Exact values -/

/-- A magnitude lies in the interval of its word. -/
theorem rounds_unitsOf (w : Nat) (hd : 0 < d) : Rounds w (unitsOf w * d) d := by
  have habove : (2 * unitsOf w) * d < upperEnd w * d := by
    have hlt := unitsOf_lt_succ w
    refine Nat.mul_lt_mul_of_pos_right ?_ hd
    unfold upperEnd
    omega
  cases w with
  | zero =>
    have hzero : lowerEnd 0 = 0 := by decide
    unfold Rounds
    rw [if_pos rfl, hzero, Nat.zero_mul, ← Nat.mul_assoc]
    exact ⟨Nat.zero_le _, Nat.le_of_lt habove⟩
  | succ v =>
    have hbelow : lowerEnd (v + 1) * d < (2 * unitsOf (v + 1)) * d := by
      have hlt := unitsOf_lt_succ v
      refine Nat.mul_lt_mul_of_pos_right ?_ hd
      rw [lowerEnd_succ]
      unfold upperEnd
      omega
    rw [Nat.mul_assoc] at habove hbelow
    exact rounds_of_lt hbelow habove

theorem nearestWord_unitsOf (w : Nat) (hd : 0 < d) : nearestWord (unitsOf w * d) d = w :=
  (nearestWord_eq_iff hd).mpr (rounds_unitsOf w hd)

/-- A quotient that is at least a magnitude is rounded to no less. -/
theorem le_nearestWord (hd : 0 < d) (h : unitsOf w * d ≤ n) : w ≤ nearestWord n d := by
  rw [← nearestWord_unitsOf w hd]
  exact nearestWord_mono hd hd (Nat.mul_le_mul_right d h)

theorem nearestWord_le (hd : 0 < d) (h : n ≤ unitsOf w * d) : nearestWord n d ≤ w := by
  rw [← nearestWord_unitsOf w hd]
  exact nearestWord_mono hd hd (Nat.mul_le_mul_right d h)

theorem ofUnits_of_lt {negative : Bool} (h : nearestWord n d < topWord) :
    ofUnits negative n d = .finite ⟨negative, nearestWord n d, h⟩ :=
  dif_pos h

theorem ofUnits_ne_nan (negative : Bool) (n d : Nat) : ofUnits negative n d ≠ .nan := by
  unfold ofUnits
  split <;> simp

theorem ofUnits_congr {negative : Bool} {n' d' : Nat} (hd : 0 < d) (hd' : 0 < d')
    (h : n * d' = n' * d) : ofUnits negative n d = ofUnits negative n' d' := by
  simp only [ofUnits, nearestWord_congr hd hd' h]

theorem eq_of_ofUnits {negative : Bool} {x : Finite} (h : ofUnits negative n d = .finite x) :
    x.negative = negative ∧ x.word = nearestWord n d := by
  unfold ofUnits at h
  split at h
  · obtain rfl := Binary64.finite.inj h
    exact ⟨rfl, rfl⟩
  · cases h

theorem ofUnits_of_rounds {negative : Bool} {x : Finite} (hd : 0 < d) (hsign : x.negative = negative)
    (h : Rounds x.word n d) : ofUnits negative n d = .finite x := by
  have hword : nearestWord n d = x.word := (nearestWord_eq_iff hd).mpr h
  obtain ⟨negative, word, hlt⟩ := x
  dsimp only at hword hsign
  subst hsign
  rw [ofUnits_of_lt (hword.symm ▸ hlt)]
  simp only [hword]

/-- **A value that is a binary64 value already is not changed by rounding.** -/
theorem ofUnits_units (x : Finite) (hd : 0 < d) :
    ofUnits x.negative (x.units * d) d = .finite x :=
  ofUnits_of_rounds hd rfl (rounds_unitsOf x.word hd)

/-! ## Integers -/

theorem one_eq : one = 2 ^ 1074 := by
  have hshift : ∀ k : Nat, 1 <<< k = 2 ^ k := Nat.one_shiftLeft
  exact hshift 1074

theorem one_pos : 0 < one := by
  simp only [one_eq, Nat.two_pow_pos]

theorem unitsOf_zero : unitsOf 0 = 0 := by decide

theorem unitsOf_pos (hw : w ≠ 0) : 0 < unitsOf w := by
  have hlt := unitsOf_strictMono (Nat.pos_of_ne_zero hw)
  rwa [unitsOf_zero] at hlt

/-- A finite value, both zeros being the one without a sign. -/
def Finite.withoutNegativeZero (x : Finite) : Binary64 :=
  if x.word = 0 then zero false else .finite x

theorem ofUnits_zero (negative : Bool) (hd : 0 < d) : ofUnits negative 0 d = zero negative := by
  have hunits := ofUnits_units ⟨negative, 0, by decide⟩ hd
  rwa [Finite.units, unitsOf_zero, Nat.zero_mul] at hunits

theorem ofInt_zero : ofInt 0 = zero false := by
  rw [ofInt, Int.natAbs_zero, Nat.zero_mul]
  exact ofUnits_zero _ Nat.one_pos

theorem wholePart_mul_one {x : Finite} (h : x.isInteger = true) : x.wholePart * one = x.units :=
  Nat.div_mul_cancel (Nat.dvd_of_mod_eq_zero (eq_of_beq h))

theorem natAbs_truncate (x : Finite) : x.truncate.natAbs = x.wholePart := by
  unfold Finite.truncate
  split <;> simp

theorem units_eq_zero_iff {x : Finite} : x.units = 0 ↔ x.word = 0 := by
  constructor
  · intro h
    by_contra hword
    exact Nat.ne_of_gt (unitsOf_pos hword) h
  · intro h
    rw [Finite.units, h, unitsOf_zero]

/-- An integral value is the value of its whole part. -/
theorem ofInt_truncate {x : Finite} (h : x.isInteger = true) :
    ofInt x.truncate = x.withoutNegativeZero := by
  have hwhole := wholePart_mul_one h
  unfold Finite.withoutNegativeZero
  by_cases hzero : x.word = 0
  · have hcut : x.truncate = 0 := by
      simp [Finite.truncate, Finite.wholePart, units_eq_zero_iff.mpr hzero]
    rw [if_pos hzero, hcut, ofInt_zero]
  · have hpos : 0 < x.wholePart := by
      refine Nat.pos_of_ne_zero fun hnone => hzero ?_
      rw [hnone, Nat.zero_mul] at hwhole
      exact units_eq_zero_iff.mp hwhole.symm
    have hsign : decide (x.truncate < 0) = x.negative := by
      unfold Finite.truncate
      cases x.negative <;> simp [hpos]
    rw [if_neg hzero, ofInt, hsign, natAbs_truncate, hwhole, ← Nat.mul_one x.units]
    exact ofUnits_units x Nat.one_pos

/-- Some power of two fills the significand. -/
theorem exists_full_significand {k : Nat} (hpos : 0 < k) (hk : k ≤ 2 * leadingBit) :
    ∃ j ≤ 52, leadingBit ≤ k * 2 ^ j ∧ k * 2 ^ j ≤ 2 * leadingBit := by
  refine ⟨52 - Nat.log2 k, Nat.sub_le _ _, ?_, ?_⟩
  · have hself : 2 ^ Nat.log2 k ≤ k := Nat.log2_self_le (Nat.ne_of_gt hpos)
    calc leadingBit = 2 ^ 52 := rfl
      _ ≤ 2 ^ (Nat.log2 k + (52 - Nat.log2 k)) := Nat.pow_le_pow_right (by decide) (by omega)
      _ = 2 ^ Nat.log2 k * 2 ^ (52 - Nat.log2 k) := Nat.pow_add _ _ _
      _ ≤ k * 2 ^ (52 - Nat.log2 k) := Nat.mul_le_mul_right _ hself
  · by_cases hlog : Nat.log2 k ≤ 52
    · have hlt : k < 2 ^ (Nat.log2 k + 1) := Nat.lt_log2_self
      calc k * 2 ^ (52 - Nat.log2 k) ≤ 2 ^ (Nat.log2 k + 1) * 2 ^ (52 - Nat.log2 k) :=
            Nat.mul_le_mul_right _ (Nat.le_of_lt hlt)
        _ = 2 ^ 53 := by rw [← Nat.pow_add]; congr 1; omega
    · rwa [Nat.sub_eq_zero_of_le (by omega), Nat.pow_zero, Nat.mul_one]

/-- Every integer up to `2^53` times a power of two is the magnitude of a word, if the power is not
too small or too large. -/
theorem exists_unitsOf_pow {k e : Nat} (hk : k ≤ 2 * leadingBit) (he : 52 ≤ e) (he' : e ≤ 2044) :
    ∃ w, w < topWord ∧ unitsOf w = k * 2 ^ e := by
  rcases Nat.eq_zero_or_pos k with rfl | hpos
  · exact ⟨0, by decide, by rw [unitsOf_zero, Nat.zero_mul]⟩
  obtain ⟨j, hj, hlow, hhigh⟩ := exists_full_significand hpos hk
  refine ⟨(e - j) * leadingBit + k * 2 ^ j, ?_, ?_⟩
  · have hle : (e - j) * leadingBit ≤ 2044 * leadingBit := Nat.mul_le_mul_right _ (by omega)
    simp only [leadingBit, topWord] at *
    omega
  · have hj' : j ≤ e := by omega
    rw [unitsOf_parts hhigh (Or.inr hlow), Nat.mul_assoc, pow_mul_pow_sub 2 hj']

/-- Every integer up to `2^53` is the magnitude of a word. -/
theorem exists_unitsOf_eq {k : Nat} (hk : k ≤ 2 * leadingBit) :
    ∃ w, w < topWord ∧ unitsOf w = k * one := by
  rw [one_eq]
  exact exists_unitsOf_pow hk (by omega) (by omega)

/-- **Integers up to `2^53` are values**: they are not rounded. -/
theorem ofInt_eq_finite {n : Int} (h : n.natAbs ≤ 2 * leadingBit) :
    ∃ x : Finite, ofInt n = .finite x ∧ x.isInteger = true ∧ x.truncate = n := by
  obtain ⟨w, hlt, hunits⟩ := exists_unitsOf_eq h
  let x : Finite := ⟨decide (n < 0), w, hlt⟩
  have hx : x.units = n.natAbs * one := hunits
  refine ⟨x, ?_, ?_, ?_⟩
  · have hexact := ofUnits_units x Nat.one_pos
    rwa [hx, Nat.mul_one] at hexact
  · rw [Finite.isInteger, hx, Nat.mul_mod_left]
    rfl
  · have hwhole : x.wholePart = n.natAbs := by
      rw [Finite.wholePart, hx, Nat.mul_div_cancel _ one_pos]
    unfold Finite.truncate
    rw [hwhole]
    by_cases hn : n < 0
    · rw [if_pos (decide_eq_true hn)]
      omega
    · rw [if_neg (by simp [x, hn])]
      omega

end EntityQuery.Binary64

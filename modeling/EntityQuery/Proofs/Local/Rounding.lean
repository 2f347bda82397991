import EntityQuery.Local.Number
import EntityQuery.Proofs.Number.Numeral
import Mathlib.Data.List.DropRight
import Mathlib.Data.Rat.Floor
import Mathlib.Tactic.FieldSimp
import Mathlib.Tactic.Ring

/-!
# Rounding on the digits

A number is rounded for people on its digits: those beyond a place are cut off, and if the first of
them is at least five, one is added in the last place left, with a carry that may run through the
point and through all digits before it. The result stands for the number rounded half up at that
place, and it has no leading zero that the number did not have.

Proof. Adding a carry is one recursion over the digits before and after the point together, so its
value is one induction, in which each place either passes the carry on or takes it. The digits cut
off are worth at least half a unit of the last place exactly if their first digit is at least five.
-/

namespace EntityQuery

open Text

/-! ## Rounding half up -/

/-- The quotient `n / d` rounded to a whole number, a tie up. -/
def divHalfUp (n d : Nat) : Nat :=
  (2 * n + d) / (2 * d)

theorem divHalfUp_one (n : Nat) : divHalfUp n 1 = n := by
  rw [divHalfUp]
  omega

/-- A remainder of at least half the divisor rounds up. -/
theorem divHalfUp_add {r d : Nat} (q : Nat) (hr : r < d) :
    divHalfUp (q * d + r) d = if d ≤ 2 * r then q + 1 else q := by
  have hsum : 2 * (q * d + r) + d = 2 * r + d + 2 * d * q := by ring
  rw [divHalfUp, hsum, Nat.add_mul_div_left _ _ (by omega)]
  split
  · have hone : (2 * r + d) / (2 * d) = 1 := Nat.div_eq_of_lt_le (by omega) (by omega)
    rw [hone, Nat.add_comm]
  · rw [Nat.div_eq_of_lt (by omega), Nat.zero_add]

theorem round_div (n : Nat) {d : Nat} (hd : 0 < d) :
    round ((n : ℚ) / d) = divHalfUp n d := by
  have hne : (d : ℚ) ≠ 0 := Nat.cast_ne_zero.mpr hd.ne'
  have hhalf : (n : ℚ) / d + 1 / 2 = ((2 * n + d : Nat) : ℚ) / ((2 * d : Nat) : ℚ) := by
    push_cast
    field_simp
  rw [round_eq, hhalf, Rat.floor_natCast_div_natCast, divHalfUp]
  norm_cast

/-! ## Adding a carry -/

/-- A digit but the last one has a next digit, which is not zero. -/
theorem next_digit {c : Char} (hc : c.isDigit = true) (hne : c ≠ '9') :
    (Char.ofNat (c.toNat + 1)).isDigit = true ∧ Char.ofNat (c.toNat + 1) ≠ '0' ∧
      natOfDigits [Char.ofNat (c.toNat + 1)] = natOfDigits [c] + 1 := by
  have hall : ∀ i < 9, (Char.ofNat (48 + i + 1)).isDigit = true ∧ Char.ofNat (48 + i + 1) ≠ '0' ∧
      natOfDigits [Char.ofNat (48 + i + 1)] = natOfDigits [Char.ofNat (48 + i)] + 1 := by decide
  obtain ⟨hlo, hhi⟩ := Char.isDigit_iff_toNat.mp hc
  have hnine : c.toNat ≠ 57 := fun h => hne (by rw [← Char.ofNat_toNat c, h])
  have hlo' : 48 ≤ c.toNat := hlo
  have hhi' : c.toNat ≤ 57 := hhi
  have hi : 48 + (c.toNat - 48) = c.toNat := by omega
  have hnext := hall (c.toNat - 48) (by omega)
  rwa [hi, Char.ofNat_toNat] at hnext

/-- The digits before the point take the carry that those after it leave. -/
theorem carryInto_append (carry : Bool) (ds es : List Char) :
    carryInto carry (ds ++ es) =
      ((carryInto (carryInto carry es).1 ds).1,
        (carryInto (carryInto carry es).1 ds).2 ++ (carryInto carry es).2) := by
  induction ds with
  | nil => rfl
  | cons c ds ih =>
    simp only [List.cons_append, carryInto, ih]
    split
    · split <;> rfl
    · rfl

theorem length_carryInto (carry : Bool) (ds : List Char) :
    (carryInto carry ds).2.length = ds.length := by
  induction ds with
  | nil => rfl
  | cons c ds ih =>
    simp only [carryInto]
    split
    · split <;> simp only [List.length_cons, ih]
    · simp only [List.length_cons, ih]

section Carry

variable {ds : List Char} (hds : ∀ c ∈ ds, c.isDigit = true) (carry : Bool)
include hds

theorem isDigit_carryInto : ∀ c ∈ (carryInto carry ds).2, c.isDigit = true := by
  induction ds with
  | nil => simp [carryInto]
  | cons d ds ih =>
    obtain ⟨hd, hrest⟩ := List.forall_mem_cons.mp hds
    have htail := ih hrest
    simp only [carryInto]
    split
    · split
      · exact List.forall_mem_cons.mpr ⟨by decide, htail⟩
      · rename_i hnine
        exact List.forall_mem_cons.mpr ⟨(next_digit hd hnine).1, htail⟩
    · exact List.forall_mem_cons.mpr ⟨hd, htail⟩

/-- The carry that is left is worth one more place. -/
theorem natOfDigits_carryInto :
    natOfDigits (carryInto carry ds).2 + (carryInto carry ds).1.toNat * 10 ^ ds.length =
      natOfDigits ds + carry.toNat := by
  induction ds with
  | nil => simp [carryInto]
  | cons d ds ih =>
    obtain ⟨hd, hrest⟩ := List.forall_mem_cons.mp hds
    have htail := ih hrest
    have hlen := length_carryInto carry ds
    simp only [carryInto]
    cases hcarry : (carryInto carry ds).1 with
    | false =>
      rw [hcarry, Bool.toNat_false, Nat.zero_mul, Nat.add_zero] at htail
      simp only [Bool.false_eq_true, if_false, Bool.toNat_false, Nat.zero_mul, Nat.add_zero]
      rw [natOfDigits_cons, natOfDigits_cons d ds, hlen, htail, Nat.add_assoc]
    | true =>
      rw [hcarry, Bool.toNat_true, Nat.one_mul] at htail
      rw [if_pos rfl, natOfDigits_cons d ds, Nat.add_assoc, ← htail, List.length_cons, Nat.pow_succ]
      by_cases hnine : d = '9'
      · have hzero : natOfDigits ['0'] = 0 := rfl
        have hvalue : natOfDigits ['9'] = 9 := rfl
        rw [if_pos hnine, hnine, natOfDigits_cons, hzero, hvalue, Bool.toNat_true]
        ring
      · rw [if_neg hnine, natOfDigits_cons, (next_digit hd hnine).2.2, hlen, Bool.toNat_false]
        ring

/-- A carry that is taken leaves no zero in front. -/
theorem head_carryInto (htaken : (carryInto carry ds).1 = false)
    (hzero : (carryInto carry ds).2.head? = some '0') : ds.head? = some '0' := by
  cases ds with
  | nil => simp [carryInto] at hzero
  | cons d ds =>
    simp only [carryInto] at htaken hzero
    split at htaken
    · rename_i hcarry
      split at htaken
      · cases htaken
      · rename_i hnine
        rw [if_pos hcarry, if_neg hnine] at hzero
        exact absurd (Option.some.inj hzero) (next_digit (hds d (by simp)) hnine).2.1
    · rename_i hcarry
      rwa [if_neg hcarry] at hzero

end Carry

/-! ## Rounding at a place -/

/-- The digits before the point have no leading zero, unless a zero is all there is. -/
def NoLeadingZero (whole : List Char) : Prop :=
  whole.head? = some '0' → whole.length = 1

/-- The digits after a place are worth at least half a unit of it if the first is at least five. -/
theorem five_le_iff (c : Char) {s : List Char} (hs : ∀ d ∈ s, d.isDigit = true) :
    10 ^ (c :: s).length ≤ 2 * natOfDigits (c :: s) ↔ '5' ≤ c := by
  have hlt := natOfDigits_lt hs
  have hvalue : natOfDigits [c] = c.toNat - 48 := by
    change 0 * 10 + (c.toNat - 48) = _
    omega
  have hfive : '5' ≤ c ↔ 53 ≤ c.toNat := by
    rw [Char.le_def, UInt32.le_iff_toNat_le]
    rfl
  have hfirst : ∀ v, 10 ^ s.length * 10 ≤ 2 * (v * 10 ^ s.length + natOfDigits s) ↔ 5 ≤ v := by
    intro v
    rcases Nat.lt_or_ge v 5 with hv | hv
    · have hmul := Nat.mul_le_mul_right (10 ^ s.length) (Nat.le_of_lt_succ hv)
      omega
    · have hmul := Nat.mul_le_mul_right (10 ^ s.length) hv
      omega
  rw [natOfDigits_cons, List.length_cons, Nat.pow_succ, hfirst, hvalue, hfive]
  omega

section Round

variable {whole fraction : List Char}

theorem roundUp_fst_ne_nil (hne : whole ≠ []) : (roundUp whole fraction).1 ≠ [] := by
  simp only [roundUp]
  split
  · exact List.cons_ne_nil _ _
  · exact List.ne_nil_of_length_pos
      (by rw [length_carryInto]; exact List.length_pos_of_ne_nil hne)

/-- **Adding one in the last place** adds one to the value of the digits and keeps the places. -/
theorem roundUp_spec (hdigits : ∀ c ∈ whole ++ fraction, c.isDigit = true) :
    (∀ c ∈ (roundUp whole fraction).1 ++ (roundUp whole fraction).2, c.isDigit = true) ∧
      (roundUp whole fraction).2.length = fraction.length ∧
      natOfDigits ((roundUp whole fraction).1 ++ (roundUp whole fraction).2) =
        natOfDigits (whole ++ fraction) + 1 := by
  have hdigit := isDigit_carryInto hdigits true
  have hvalue := natOfDigits_carryInto hdigits true
  have hlen := length_carryInto true (whole ++ fraction)
  rw [carryInto_append] at hdigit hvalue hlen
  simp only [roundUp]
  refine ⟨?_, length_carryInto true fraction, ?_⟩
  · split
    · exact List.forall_mem_cons.mpr ⟨by decide, hdigit⟩
    · exact hdigit
  · split
    · rename_i hcarry
      have hone : natOfDigits ['1'] = 1 := rfl
      rw [hcarry, Bool.toNat_true, Nat.one_mul, Nat.add_comm] at hvalue
      rw [List.cons_append, natOfDigits_cons, hone, Nat.one_mul, hlen]
      exact hvalue
    · rename_i hcarry
      rw [Bool.not_eq_true] at hcarry
      rwa [hcarry, Bool.toNat_false, Nat.zero_mul, Nat.add_zero] at hvalue

theorem noLeadingZero_roundUp (hwhole : ∀ c ∈ whole, c.isDigit = true)
    (hhead : NoLeadingZero whole) : NoLeadingZero (roundUp whole fraction).1 := by
  intro hzero
  simp only [roundUp] at hzero ⊢
  split at hzero
  · cases hzero
  · rename_i hcarry
    rw [if_neg hcarry, length_carryInto]
    exact hhead (head_carryInto hwhole _ (Bool.eq_false_iff.mpr hcarry) hzero)

variable (places : Nat)

variable (whole fraction) in
/-- Rounding at a place cuts the digits after it and adds one, if anything, to those before. -/
theorem roundPlaces_cases :
    roundPlaces places whole fraction = (whole, fraction.take places) ∨
      roundPlaces places whole fraction = roundUp whole (fraction.take places) := by
  rw [roundPlaces]
  split
  · rename_i hdrop
    have htake : fraction.take places = fraction :=
      List.take_of_length_le (List.drop_eq_nil_iff.mp hdrop)
    exact Or.inl (by rw [htake])
  · split
    · exact Or.inr rfl
    · exact Or.inl rfl

theorem noLeadingZero_roundPlaces (hwhole : ∀ c ∈ whole, c.isDigit = true)
    (hhead : NoLeadingZero whole) : NoLeadingZero (roundPlaces places whole fraction).1 := by
  rcases roundPlaces_cases whole fraction places with h | h
  · rw [h]
    exact hhead
  · rw [h]
    exact noLeadingZero_roundUp hwhole hhead

theorem roundPlaces_fst_ne_nil (hne : whole ≠ []) : (roundPlaces places whole fraction).1 ≠ [] := by
  rcases roundPlaces_cases whole fraction places with h | h
  · rwa [h]
  · rw [h]
    exact roundUp_fst_ne_nil hne

/-- **Rounding the digits rounds their value half up**, and cuts the places. -/
theorem roundPlaces_spec (hdigits : ∀ c ∈ whole ++ fraction, c.isDigit = true) :
    (∀ c ∈ (roundPlaces places whole fraction).1 ++ (roundPlaces places whole fraction).2,
        c.isDigit = true) ∧
      (roundPlaces places whole fraction).2.length = min places fraction.length ∧
      natOfDigits ((roundPlaces places whole fraction).1 ++
          (roundPlaces places whole fraction).2) =
        divHalfUp (natOfDigits (whole ++ fraction)) (10 ^ (fraction.length - places)) := by
  obtain ⟨hwhole, hfraction⟩ := List.forall_mem_append.mp hdigits
  have hkept : ∀ c ∈ whole ++ fraction.take places, c.isDigit = true :=
    List.forall_mem_append.mpr ⟨hwhole, fun c hc => hfraction c (List.mem_of_mem_take hc)⟩
  rw [roundPlaces]
  cases hdrop : fraction.drop places with
  | nil =>
    have hle : fraction.length ≤ places := List.drop_eq_nil_iff.mp hdrop
    rw [Nat.sub_eq_zero_of_le hle, Nat.pow_zero, divHalfUp_one]
    exact ⟨hdigits, (Nat.min_eq_right hle).symm, rfl⟩
  | cons c s =>
    have hcut : ∀ d ∈ c :: s, d.isDigit = true := fun d hd =>
      hfraction d (List.mem_of_mem_drop (hdrop ▸ hd))
    have hhalf := five_le_iff c (List.forall_mem_cons.mp hcut).2
    have hlen : fraction.length - places = (c :: s).length := by rw [← hdrop, List.length_drop]
    have hvalue : natOfDigits (whole ++ fraction) =
        natOfDigits (whole ++ fraction.take places) * 10 ^ (c :: s).length +
          natOfDigits (c :: s) := by
      rw [← natOfDigits_append, List.append_assoc, ← hdrop, List.take_append_drop]
    have hplaces : (fraction.take places).length = min places fraction.length := List.length_take
    rw [hlen, hvalue, divHalfUp_add _ (natOfDigits_lt hcut)]
    dsimp only
    by_cases hfive : '5' ≤ c
    · obtain ⟨hup, hsame, hone⟩ := roundUp_spec hkept
      rw [if_pos hfive, if_pos (hhalf.mpr hfive)]
      exact ⟨hup, hsame.trans hplaces, hone⟩
    · rw [if_neg hfive, if_neg (mt hhalf.mp hfive)]
      exact ⟨hkept, hplaces, rfl⟩

end Round

/-! ## What the digits stand for -/

/-- The number that the digits before and after a decimal point stand for. -/
def decimalValue (whole fraction : List Char) : ℚ :=
  natOfDigits (whole ++ fraction) / 10 ^ fraction.length

theorem decimalValue_padLeft (width : Nat) (whole fraction : List Char) :
    decimalValue (padLeft width '0' whole) fraction = decimalValue whole fraction := by
  rw [decimalValue, natOfDigits_padLeft_append, decimalValue]

theorem decimalValue_append_zeros (whole fraction : List Char) (k : Nat) :
    decimalValue whole (fraction ++ List.replicate k '0') = decimalValue whole fraction := by
  rw [decimalValue, ← List.append_assoc, natOfDigits_append_zeros, List.length_append,
    List.length_replicate, pow_add, Nat.cast_mul, Nat.cast_pow, Nat.cast_ofNat,
    mul_div_mul_right _ _ (by positivity), decimalValue]

/-- A number in digits, rounded half up to some places. -/
theorem round_decimalValue (whole fraction : List Char) (places : Nat) :
    round (decimalValue whole fraction * 10 ^ places) =
      (divHalfUp (natOfDigits (whole ++ fraction)) (10 ^ (fraction.length - places)) *
        10 ^ (places - fraction.length) : Nat) := by
  have hscaled : decimalValue whole fraction * 10 ^ places =
      ((natOfDigits (whole ++ fraction) * 10 ^ (places - fraction.length) : Nat) : ℚ) /
        ((10 ^ (fraction.length - places) : Nat) : ℚ) := by
    have hpow : (10 : ℚ) ^ places * 10 ^ (fraction.length - places) =
        10 ^ (places - fraction.length) * 10 ^ fraction.length := by
      rw [← pow_add, ← pow_add]
      congr 1
      omega
    rw [decimalValue, div_mul_eq_mul_div, div_eq_div_iff (by positivity) (by positivity)]
    push_cast
    rw [mul_assoc, hpow, mul_assoc]
  rw [hscaled, round_div _ (by positivity)]
  -- either there are digits to cut off, or zeros to write
  rcases Nat.le_total fraction.length places with h | h
  · rw [Nat.sub_eq_zero_of_le h, Nat.pow_zero, divHalfUp_one, divHalfUp_one]
  · rw [Nat.sub_eq_zero_of_le h, Nat.pow_zero, Nat.mul_one, Nat.mul_one]

/-- **Digits rounded at a place stand for the rounded number.** -/
theorem decimalValue_roundPlaces {whole fraction : List Char}
    (hdigits : ∀ c ∈ whole ++ fraction, c.isDigit = true) (places : Nat) :
    decimalValue (roundPlaces places whole fraction).1 (roundPlaces places whole fraction).2 =
      round (decimalValue whole fraction * 10 ^ places) / 10 ^ places := by
  obtain ⟨-, hlen, hvalue⟩ := roundPlaces_spec places hdigits
  have hpow : (10 : ℚ) ^ places =
      10 ^ min places fraction.length * 10 ^ (places - fraction.length) := by
    rw [← pow_add]
    congr 1
    omega
  rw [decimalValue, hlen, hvalue, round_decimalValue, Int.cast_natCast, Nat.cast_mul, Nat.cast_pow,
    Nat.cast_ofNat, hpow, mul_div_mul_right _ _ (by positivity)]

/-! ## Rounding a decimal -/

/-- A decimal rounded half up to a number of places, as a whole number of the last place. -/
def Decimal.roundedAt (places : Nat) (d : Decimal) : Nat :=
  match d.exponent + places with
  | .ofNat n => d.digits * Nat.pow 10 n
  | .negSucc n =>
    let step := Nat.pow 10 (n + 1)
    (2 * d.digits + step) / (2 * step)

theorem Decimal.roundedAt_eq_round (d : Decimal) (places : Nat) :
    (d.roundedAt places : Int) = round (decimalValue d.split.1 d.split.2 * 10 ^ places) := by
  obtain ⟨-, -, hvalue, hlen⟩ := d.split_spec
  rw [round_decimalValue, hvalue, hlen, Nat.cast_inj, roundedAt]
  cases hexp : d.exponent + (places : Int) with
  | ofNat n =>
    rw [Int.ofNat_eq_natCast] at hexp
    have hcut : (-d.exponent).toNat - places = 0 := by omega
    have hzeros : d.exponent.toNat + (places - (-d.exponent).toNat) = n := by omega
    dsimp only
    rw [hcut, Nat.pow_zero, divHalfUp_one, Nat.mul_assoc, ← Nat.pow_add, hzeros, Nat.pow_eq]
  | negSucc n =>
    rw [Int.negSucc_eq] at hexp
    have hcut : (-d.exponent).toNat - places = n + 1 := by omega
    have hzeros : places - (-d.exponent).toNat = 0 := by omega
    have hwhole : d.exponent.toNat = 0 := by omega
    rw [hcut, hzeros, hwhole, Nat.pow_zero, Nat.mul_one, Nat.mul_one]
    rfl

/-- Rounding beyond the last place of a decimal only writes zeros. -/
theorem Decimal.roundedAt_of_le {d : Decimal} {places : Nat} (h : d.split.2.length ≤ places) :
    d.roundedAt places =
      natOfDigits (d.split.1 ++ d.split.2) * 10 ^ (places - d.split.2.length) := by
  have hround := d.roundedAt_eq_round places
  rw [round_decimalValue, Nat.sub_eq_zero_of_le h, Nat.pow_zero, divHalfUp_one] at hround
  exact Int.ofNat_inj.mp hround

/-! ## The digits that are written -/

/-- The positional digits of a decimal have a zero before the point only if it stands alone. -/
theorem Decimal.noLeadingZero_split (d : Decimal) : NoLeadingZero d.split.1 := by
  obtain ⟨digits, exponent⟩ := d
  intro hzero
  cases exponent with
  | ofNat n =>
    by_cases hd : digits = 0
    · subst hd
      rfl
    · simp only [split, if_neg hd] at hzero
      rw [List.head?_append_of_ne_nil _ (digitsOf_ne_nil _)] at hzero
      exact absurd hzero (head?_digitsOf hd)
  | negSucc n =>
    simp only [split] at hzero ⊢
    rw [List.length_take, length_padLeft]
    rcases Nat.lt_or_ge (digitsOf digits).length (n + 1 + 1) with hlt | hge
    · omega
    · -- no zero is put before the digits, so the first one is theirs
      rw [padLeft_of_le hge, List.head?_take, if_neg (by omega)] at hzero
      by_cases hd : digits = 0
      · have hlen : (digitsOf digits).length = 1 := by
          rw [hd]
          rfl
        omega
      · exact absurd hzero (head?_digitsOf hd)

/-- Digits that stand for a decimal rounded at a place, without needless zeros in front. -/
structure Decimal.RoundsDigits (d : Decimal) (places : Nat) (whole fraction : List Char) : Prop where
  ne_nil : whole ≠ []
  whole_isDigit : ∀ c ∈ whole, c.isDigit = true
  fraction_isDigit : ∀ c ∈ fraction, c.isDigit = true
  noLeadingZero : NoLeadingZero whole
  value : decimalValue whole fraction = d.roundedAt places / 10 ^ places

theorem Decimal.roundsDigits_roundPlaces (d : Decimal) (places : Nat) :
    d.RoundsDigits places (roundPlaces places d.split.1 d.split.2).1
      (roundPlaces places d.split.1 d.split.2).2 := by
  obtain ⟨hne, hsplit, -, -⟩ := d.split_spec
  obtain ⟨hwhole, hfraction⟩ := List.forall_mem_append.mp (roundPlaces_spec places hsplit).1
  refine ⟨roundPlaces_fst_ne_nil places hne, hwhole, hfraction, ?_, ?_⟩
  · exact noLeadingZero_roundPlaces places (List.forall_mem_append.mp hsplit).1
      d.noLeadingZero_split
  · rw [decimalValue_roundPlaces hsplit, ← d.roundedAt_eq_round, Int.cast_natCast]

/-- With as many decimals as places the digits are those of the rounded decimal. -/
theorem Decimal.RoundsDigits.natOfDigits_eq {d : Decimal} {places : Nat} {whole fraction : List Char}
    (h : d.RoundsDigits places whole fraction) (hlen : fraction.length = places) :
    natOfDigits (whole ++ fraction) = d.roundedAt places := by
  have hvalue := h.value
  rwa [decimalValue, hlen, div_left_inj' (by positivity), Nat.cast_inj] at hvalue

/-- Zeros at the end may be written or not. -/
theorem Decimal.roundsDigits_append_zeros {d : Decimal} {places : Nat} {whole fraction : List Char}
    (k : Nat) : d.RoundsDigits places whole (fraction ++ List.replicate k '0') ↔
      d.RoundsDigits places whole fraction := by
  have hvalue := decimalValue_append_zeros whole fraction k
  have hzeros : ∀ c ∈ List.replicate k '0', c.isDigit = true := by
    intro c hc
    rw [List.eq_of_mem_replicate hc]
    decide
  constructor
  · intro h
    exact ⟨h.ne_nil, h.whole_isDigit, (List.forall_mem_append.mp h.fraction_isDigit).1,
      h.noLeadingZero, hvalue ▸ h.value⟩
  · intro h
    exact ⟨h.ne_nil, h.whole_isDigit, List.forall_mem_append.mpr ⟨h.fraction_isDigit, hzeros⟩,
      h.noLeadingZero, hvalue.trans h.value⟩

/-- What is dropped from the end are zeros, and none of them is left. -/
theorem dropEndWhile_zeros (s : List Char) :
    (∃ k, s = dropEndWhile (· == '0') s ++ List.replicate k '0') ∧
      (dropEndWhile (· == '0') s).getLast? ≠ some '0' := by
  constructor
  · have hzeros : ∀ c ∈ s.rtakeWhile (· == '0'), c = '0' := fun c hc =>
      beq_iff_eq.mp (List.mem_rtakeWhile_imp (p := (· == '0')) hc)
    refine ⟨(s.rtakeWhile (· == '0')).length, ?_⟩
    rw [← List.eq_replicate_of_mem hzeros]
    exact List.rdropWhile_append_rtakeWhile.symm
  · intro hlast
    obtain ⟨hne, hzero⟩ := List.mem_getLast?_eq_getLast hlast
    exact List.rdropWhile_last_not (· == '0') s hne (beq_iff_eq.mpr hzero.symm)

/-- The decimals are as many as fixed, or else at most twenty without a zero at the end. -/
def HasPlaces : Option Nat → List Char → Prop
  | some places, fraction => fraction.length = places
  | none, fraction => fraction.length ≤ 20 ∧ fraction.getLast? ≠ some '0'

/-- **The digits written** stand for the decimal rounded at its last place, the twentieth if the
places are not fixed. -/
theorem localizedParts_spec (fractionDigits : Option Nat) (d : Decimal) :
    d.RoundsDigits (fractionDigits.getD 20) (localizedParts fractionDigits d).1
        (localizedParts fractionDigits d).2 ∧
      HasPlaces fractionDigits (localizedParts fractionDigits d).2 := by
  have hlen : ∀ places, (roundPlaces places d.split.1 d.split.2).2.length ≤ places := fun places =>
    (roundPlaces_spec places d.split_spec.2.1).2.1.trans_le (Nat.min_le_left _ _)
  have hround := d.roundsDigits_roundPlaces (fractionDigits.getD 20)
  cases fractionDigits with
  | some places =>
    have hparts : localizedParts (some places) d = ((roundPlaces places d.split.1 d.split.2).1,
        padRight places '0' (roundPlaces places d.split.1 d.split.2).2) := rfl
    rw [hparts]
    refine ⟨(Decimal.roundsDigits_append_zeros _).mpr hround, ?_⟩
    rw [HasPlaces, padRight, List.length_append, List.length_replicate]
    exact Nat.add_sub_of_le (hlen places)
  | none =>
    have hparts : localizedParts none d = ((roundPlaces 20 d.split.1 d.split.2).1,
        dropEndWhile (· == '0') (roundPlaces 20 d.split.1 d.split.2).2) := rfl
    obtain ⟨⟨k, hzeros⟩, hlast⟩ := dropEndWhile_zeros (roundPlaces 20 d.split.1 d.split.2).2
    rw [hparts]
    refine ⟨(Decimal.roundsDigits_append_zeros k).mp (hzeros ▸ hround), ?_, hlast⟩
    have hprefix := List.rdropWhile_prefix (· == '0') (roundPlaces 20 d.split.1 d.split.2).2
    exact hprefix.length_le.trans (hlen 20)

end EntityQuery

import EntityQuery.Number.Coerce
import EntityQuery.Proofs.Number.Shortest
import EntityQuery.Proofs.Text.Digits

/-!
# Reading numerals back

The positional text of a number and the digits of an integer are numerals without an exponent: a
minus sign or none, digits, and at most one point that has digits on both sides. Free text that is
such a numeral is read by the grammar of numerals, since it is no name of an infinity and holds no
letter that could announce a radix.
-/

namespace EntityQuery

open Text

/-! ## The grammar of numerals -/

/-- A minus sign or none before the digits. -/
def signed (negative : Bool) (s : List Char) : List Char :=
  if negative then '-' :: s else s

theorem signed_inj {negative : Bool} {s t : List Char} :
    signed negative s = signed negative t ↔ s = t := by
  cases negative <;> simp [signed]

theorem takeSign_signed {c : Char} (hc : c.isDigit = true) (negative : Bool) (s : List Char) :
    takeSign (signed negative (c :: s)) = (negative, c :: s) := by
  cases negative with
  | true => rfl
  | false =>
    unfold takeSign signed
    split
    · simp_all
    · simp_all
    · simp_all

section Parts

variable {whole fraction : List Char} (hne : whole ≠ [])
  (hwhole : ∀ c ∈ whole, c.isDigit = true) (hfraction : ∀ c ∈ fraction, c.isDigit = true)
include hne hwhole hfraction

theorem readMantissa?_joinAt :
    readMantissa? (Decimal.joinAt '.' whole fraction) = some (whole, fraction, []) := by
  have hend : ∀ {ds : List Char}, (∀ c ∈ ds, c.isDigit = true) → spanDigits ds = (ds, []) := by
    intro ds hds
    have hspan : spanDigits (ds ++ []) = (ds, []) := spanDigits_append hds (by simp)
    rwa [List.append_nil] at hspan
  unfold Decimal.joinAt readMantissa?
  cases fraction with
  | nil => simp [hend hwhole, hne]
  | cons c fraction =>
    have hpoint : spanDigits (whole ++ '.' :: c :: fraction) = (whole, '.' :: c :: fraction) :=
      spanDigits_append hwhole (by simp)
    simp [hpoint, hend hfraction]

theorem ofNumeral?_signed (negative : Bool) :
    Binary64.ofNumeral? (signed negative (Decimal.joinAt '.' whole fraction)) =
      some (.ofParts negative whole fraction 0) := by
  have hmantissa := readMantissa?_joinAt hne hwhole hfraction
  obtain ⟨c, ds, rfl⟩ := List.exists_cons_of_ne_nil hne
  obtain ⟨s, hjoin⟩ : ∃ s, Decimal.joinAt '.' (c :: ds) fraction = c :: s := by
    unfold Decimal.joinAt
    split
    · exact ⟨ds, rfl⟩
    · exact ⟨ds ++ '.' :: fraction, rfl⟩
  rw [hjoin] at hmantissa ⊢
  have hsign := takeSign_signed (hwhole c (by simp)) negative s
  unfold Binary64.ofNumeral?
  simp only [hsign, hmantissa, Option.bind_eq_bind, Option.bind_some, readExponent?]
  rfl

end Parts

/-! ## Numerals as free text -/

/-- The characters of numerals without an exponent. -/
def isNumeralChar (c : Char) : Bool :=
  c.isDigit || c == '.' || c == '-'

/-- A text of such characters. -/
def IsNumeral (s : List Char) : Prop :=
  s ≠ [] ∧ ∀ c ∈ s, isNumeralChar c = true

theorem isNumeral_signed {whole fraction : List Char} (hne : whole ≠ [])
    (hwhole : ∀ c ∈ whole, c.isDigit = true) (hfraction : ∀ c ∈ fraction, c.isDigit = true)
    (negative : Bool) : IsNumeral (signed negative (Decimal.joinAt '.' whole fraction)) := by
  have hdigit : ∀ {c : Char}, c.isDigit = true → isNumeralChar c = true := fun h => by
    rw [isNumeralChar, h, Bool.true_or, Bool.true_or]
  have hjoin : IsNumeral (Decimal.joinAt '.' whole fraction) := by
    unfold Decimal.joinAt
    split
    · exact ⟨hne, fun c hc => hdigit (hwhole c hc)⟩
    · refine ⟨List.append_ne_nil_of_left_ne_nil hne _, fun c hc => ?_⟩
      rcases List.mem_append.mp hc with hc | hc
      · exact hdigit (hwhole c hc)
      · rcases List.mem_cons.mp hc with rfl | hc
        · decide
        · exact hdigit (hfraction c hc)
  cases negative with
  | false => exact hjoin
  | true =>
    refine ⟨List.cons_ne_nil _ _, fun c hc => ?_⟩
    rcases List.mem_cons.mp hc with rfl | hc
    · decide
    · exact hjoin.2 c hc

theorem isNumberPadding_of_isNumeralChar {c : Char} (h : isNumeralChar c = true) :
    isNumberPadding c = false := by
  have hblank : isBlank c = false := by
    simp only [isNumeralChar, Bool.or_eq_true, beq_iff_eq] at h
    rcases h with (h | rfl) | rfl
    · exact isBlank_of_isDigit h
    · decide
    · decide
  have hmark : c ≠ Char.ofNat 0xFEFF := by
    rintro rfl
    revert h
    decide
  rw [isNumberPadding, hblank, Bool.false_or, beq_eq_false_iff_ne]
  exact hmark

theorem radixOf?_of_isNumeralChar {c : Char} (h : isNumeralChar c = true) : radixOf? c = none := by
  unfold radixOf?
  rw [if_neg, if_neg, if_neg] <;> rintro (rfl | rfl) <;> revert h <;> decide

/-- Without the letters of an infinity or of a radix, a number is read by the grammar of numerals. -/
theorem readNumber?_eq_ofNumeral? {s : List Char} (hne : s ≠ []) (hword : 'y' ∉ s)
    (hradix : ∀ c ∈ s, radixOf? c = none) : readNumber? s = Binary64.ofNumeral? s := by
  have hnot : ∀ {w : List Char}, 'y' ∈ w → s ≠ w := by
    rintro w hw rfl
    exact hword hw
  unfold readNumber?
  rw [if_neg, if_neg (hnot (by decide))]
  · split
    · exact absurd rfl hne
    · rw [hradix _ (by simp)]
    · rfl
  · rintro (hs | hs)
    · exact hnot (by decide) hs
    · exact hnot (by decide) hs

theorem IsNumeral.readNumber? {s : List Char} (h : IsNumeral s) :
    EntityQuery.readNumber? s = Binary64.ofNumeral? s := by
  refine readNumber?_eq_ofNumeral? h.1 (fun hy => ?_) fun c hc =>
    radixOf?_of_isNumeralChar (h.2 c hc)
  have hno : isNumeralChar 'y' = false := by decide
  rw [h.2 'y' hy] at hno
  cases hno

/-- Free text that is a numeral has nothing around it to ignore. -/
theorem IsNumeral.coerceChars {s : List Char} (h : IsNumeral s) :
    EntityQuery.coerceChars s = Binary64.ofNumeral? s := by
  have htrim : trimWhere isNumberPadding s = s :=
    trimWhere_eq_self
      (fun c hc => isNumberPadding_of_isNumeralChar (h.2 c (List.mem_of_mem_head? hc)))
      fun c hc => isNumberPadding_of_isNumeralChar (h.2 c (List.mem_of_getLast? hc))
  rw [EntityQuery.coerceChars, htrim, h.readNumber?]

theorem coerceChars_signed {whole fraction : List Char} (hne : whole ≠ [])
    (hwhole : ∀ c ∈ whole, c.isDigit = true) (hfraction : ∀ c ∈ fraction, c.isDigit = true)
    (negative : Bool) : coerceChars (signed negative (Decimal.joinAt '.' whole fraction)) =
      some (.ofParts negative whole fraction 0) := by
  rw [(isNumeral_signed hne hwhole hfraction negative).coerceChars,
    ofNumeral?_signed hne hwhole hfraction]

/-! ## Integers -/

theorem ofDecimal_integer (negative : Bool) {k : Nat} (hk : k ≠ 0) :
    Binary64.ofDecimal negative k 0 = Binary64.ofUnits negative (k * Binary64.one) 1 := by
  rw [Binary64.ofDecimal, if_neg hk, if_neg (by decide), if_neg (by omega), Int.neg_zero,
    Int.toNat_zero, Nat.pow_eq, Nat.pow_zero, Nat.mul_one]

theorem intDigits_eq_signed (n : Int) :
    intDigits n = signed (decide (n < 0)) (Decimal.joinAt '.' (digitsOf n.natAbs) []) := by
  cases n with
  | ofNat k =>
    have hsign : decide (Int.ofNat k < 0) = false :=
      decide_eq_false (Int.not_lt.mpr (Int.natCast_nonneg k))
    rw [hsign]
    rfl
  | negSucc k =>
    have hsign : decide (Int.negSucc k < 0) = true := decide_eq_true (Int.negSucc_lt_zero k)
    rw [hsign]
    rfl

theorem isNumeral_intDigits (n : Int) : IsNumeral (intDigits n) := by
  rw [intDigits_eq_signed]
  exact isNumeral_signed (digitsOf_ne_nil _) (fun _ => isDigit_of_mem_digitsOf) (by simp) _

/-- **The digits of an integer read as that integer**, rounded if need be. -/
theorem coerceChars_intDigits (n : Int) : coerceChars (intDigits n) = some (.ofInt n) := by
  have hread : coerceChars (intDigits n) =
      some (.ofParts (decide (n < 0)) (digitsOf n.natAbs) [] 0) := by
    rw [intDigits_eq_signed]
    exact coerceChars_signed (digitsOf_ne_nil _) (fun _ => isDigit_of_mem_digitsOf) (by simp) _
  rw [hread, Binary64.ofParts, List.append_nil, natOfDigits_digitsOf]
  by_cases hn : n = 0
  · subst hn
    rw [Binary64.ofInt_zero]
    rfl
  · exact congrArg some (ofDecimal_integer _ (Int.natAbs_ne_zero.mpr hn))

/-! ## Positional text -/

namespace Decimal

/-- The digits on both sides of the point, and what they are worth. -/
theorem split_spec (d : Decimal) :
    d.split.1 ≠ [] ∧ (∀ c ∈ d.split.1 ++ d.split.2, c.isDigit = true) ∧
      natOfDigits (d.split.1 ++ d.split.2) = d.digits * 10 ^ d.exponent.toNat ∧
      d.split.2.length = (-d.exponent).toNat := by
  obtain ⟨digits, exponent⟩ := d
  cases exponent with
  | ofNat n =>
    by_cases hd : digits = 0
    · subst hd
      exact ⟨List.cons_ne_nil _ _, fun c hc => List.mem_singleton.mp hc ▸ by decide,
        (Nat.zero_mul _).symm, by simp [split]⟩
    have hsplit : split ⟨digits, .ofNat n⟩ = (digitsOf digits ++ List.replicate n '0', []) := by
      simp only [split, if_neg hd]
    rw [hsplit]
    dsimp only
    rw [List.append_nil]
    refine ⟨List.append_ne_nil_of_left_ne_nil (digitsOf_ne_nil _) _, ?_, ?_, ?_⟩
    · intro c hc
      rcases List.mem_append.mp hc with hc | hc
      · exact isDigit_of_mem_digitsOf hc
      · rw [List.eq_of_mem_replicate hc]
        decide
    · rw [natOfDigits_append_zeros, natOfDigits_digitsOf]
      rfl
    · simp
  | negSucc n =>
    -- the digits are filled up to one more than there are places
    have hlen := length_padLeft (n + 1 + 1) '0' (digitsOf digits)
    have happend : (split ⟨digits, .negSucc n⟩).1 ++ (split ⟨digits, .negSucc n⟩).2 =
        padLeft (n + 1 + 1) '0' (digitsOf digits) := List.take_append_drop _ _
    rw [happend]
    dsimp only
    refine ⟨?_, isDigit_of_mem_padLeft fun _ => isDigit_of_mem_digitsOf, ?_, ?_⟩
    · apply List.ne_nil_of_length_pos
      simp only [split, List.length_take]
      omega
    · rw [natOfDigits_padLeft, natOfDigits_digitsOf]
      simp
    · simp only [split, List.length_drop]
      omega

end Decimal

namespace Binary64

variable {x : Finite}

theorem roundsTo_decimal (hx : x.word ≠ 0) : x.decimal.RoundsTo x.word :=
  roundsTo_shortest .up hx

theorem isNumeral_plainChars (x : Finite) : IsNumeral x.plainChars := by
  obtain ⟨hne, hdigits, -, -⟩ := x.decimal.split_spec
  obtain ⟨hwhole, hfraction⟩ := List.forall_mem_append.mp hdigits
  exact isNumeral_signed hne hwhole hfraction x.negative

/-- The digits of the shortest decimal of a value stand for that value. -/
theorem ofParts_split (hx : x.word ≠ 0) :
    Binary64.ofParts x.negative x.decimal.split.1 x.decimal.split.2 0 = .finite x := by
  obtain ⟨-, -, hvalue, hlen⟩ := x.decimal.split_spec
  rw [Binary64.ofParts, hvalue, hlen, Int.zero_sub]
  exact (roundsTo_decimal hx).written.ofDecimal hx (by dsimp only; omega)

/-- **The positional text of a value reads as that value.** -/
theorem coerceChars_plainChars (hx : x.word ≠ 0) : coerceChars x.plainChars = some (.finite x) := by
  obtain ⟨hne, hdigits, -, -⟩ := x.decimal.split_spec
  obtain ⟨hwhole, hfraction⟩ := List.forall_mem_append.mp hdigits
  have hread := coerceChars_signed hne hwhole hfraction x.negative
  rw [ofParts_split hx] at hread
  exact hread

end Binary64

end EntityQuery

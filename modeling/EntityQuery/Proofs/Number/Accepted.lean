import EntityQuery.Proofs.Number.Coerce
import EntityQuery.Proofs.Number.Scaling
import EntityQuery.Proofs.Text.Fields
import Mathlib.Data.Nat.Digits.Defs

/-!
# The texts that are numbers

Free text is a number if what stands between the padding is nothing, the name of an infinity, an
unsigned literal with a radix, or a decimal numeral (`IsNumberText`). These are the texts that are
read, and no others (`coerceNumber_spec`).

Each reader is compared with its part of the grammar, from the sign to the exponent, and a decimal
numeral is what they read one after the other (`exists_ofNumeral?_iff`). The forms do not get in
each other's way: a numeral has no letter that could announce a radix. The digits of a radix are
taken in one by one, and as long as the number stays a binary64 value no product and no sum is
rounded (`pushDigit_ofInt`), so that up to `2^53` the number read is the one written.
-/

namespace EntityQuery

open Text

/-! ## The grammar -/

/-- What remains of a text when its padding is taken off at both ends. -/
structure IsTrimmed (isPadding : Char → Bool) (text body : List Char) : Prop where
  split : ∃ before after, text = before ++ (body ++ after) ∧
    (∀ c ∈ before, isPadding c = true) ∧ ∀ c ∈ after, isPadding c = true
  head : ∀ c ∈ body.head?, isPadding c = false
  last : ∀ c ∈ body.getLast?, isPadding c = false

/-- A sign or none. -/
inductive IsSign : List Char → Prop
  | none : IsSign []
  | plus : IsSign ['+']
  | minus : IsSign ['-']

/-- Digits with at most one point, and at least one digit. -/
inductive IsMantissa : List Char → Prop
  | whole {ds : List Char} (hne : ds ≠ []) (hds : ∀ c ∈ ds, c.isDigit = true) : IsMantissa ds
  | point {whole fraction : List Char} (hne : whole ≠ [] ∨ fraction ≠ [])
      (hwhole : ∀ c ∈ whole, c.isDigit = true) (hfraction : ∀ c ∈ fraction, c.isDigit = true) :
      IsMantissa (whole ++ '.' :: fraction)

/-- An exponent or none. -/
inductive IsExponent : List Char → Prop
  | none : IsExponent []
  | given {mark : Char} {sign ds : List Char} (hmark : mark = 'e' ∨ mark = 'E')
      (hsign : IsSign sign) (hne : ds ≠ []) (hds : ∀ c ∈ ds, c.isDigit = true) :
      IsExponent (mark :: (sign ++ ds))

/-- The letters that announce a radix. -/
def radixMarks : List (Char × Nat) :=
  [('x', 16), ('X', 16), ('o', 8), ('O', 8), ('b', 2), ('B', 2)]

/-- A character is the digit of some value in a radix, in lower or upper case. -/
def IsDigitOf (radix : Nat) (c : Char) (v : Nat) : Prop :=
  v < radix ∧ ("0123456789abcdef".toList[v]? = some c ∨ "0123456789ABCDEF".toList[v]? = some c)

instance (radix : Nat) (c : Char) (v : Nat) : Decidable (IsDigitOf radix c v) :=
  inferInstanceAs (Decidable (_ ∧ _))

/-- An unsigned literal with a radix, and the integer that it writes. -/
inductive IsRadixLiteral : List Char → Nat → Prop
  | intro {mark : Char} {radix : Nat} {ds : List Char} {vs : List Nat}
      (hmark : (mark, radix) ∈ radixMarks) (hne : ds ≠ [])
      (hds : List.Forall₂ (IsDigitOf radix) ds vs) :
      IsRadixLiteral ('0' :: mark :: ds) (Nat.ofDigits radix vs.reverse)

/-- The texts that are numbers. -/
inductive IsNumberText : List Char → Prop
  | empty : IsNumberText []
  | infinity {sign : List Char} (hsign : IsSign sign) : IsNumberText (sign ++ "Infinity".toList)
  | radix {s : List Char} {n : Nat} (h : IsRadixLiteral s n) : IsNumberText s
  | decimal {sign mantissa exponent : List Char} (hsign : IsSign sign)
      (hmantissa : IsMantissa mantissa) (hexponent : IsExponent exponent) :
      IsNumberText (sign ++ (mantissa ++ exponent))

/-! ## Padding -/

section Padding

variable {p : Char → Bool} {s body : List Char}

theorem dropWhile_append_body {before : List Char} (hbefore : ∀ c ∈ before, p c = true)
    (hbody : ∀ c ∈ body.head?, p c = false) : (before ++ body).dropWhile p = body := by
  rw [List.dropWhile_append_of_pos hbefore]
  cases body with
  | nil => rfl
  | cons c body => exact List.dropWhile_cons_of_neg (by simp [hbody c rfl])

theorem isTrimmed_trimWhere (p : Char → Bool) (s : List Char) : IsTrimmed p s (trimWhere p s) := by
  have hfront : s.takeWhile p ++ s.dropWhile p = s := List.takeWhile_append_dropWhile
  have hback : trimWhere p s ++ ((s.dropWhile p).reverse.takeWhile p).reverse = s.dropWhile p := by
    rw [trimWhere, dropEndWhile, ← List.reverse_append, List.takeWhile_append_dropWhile,
      List.reverse_reverse]
  refine ⟨⟨s.takeWhile p, ((s.dropWhile p).reverse.takeWhile p).reverse, ?_, ?_, ?_⟩, ?_, ?_⟩
  · rw [hback, hfront]
  · exact List.all_eq_true.mp List.all_takeWhile
  · intro c hc
    exact List.all_eq_true.mp List.all_takeWhile c (List.mem_reverse.mp hc)
  · intro c hc
    have hhead : c ∈ (s.dropWhile p).head? := by
      rw [← hback, List.head?_append, Option.mem_def.mp hc]
      rfl
    have hnot := List.head?_dropWhile_not p s
    rw [Option.mem_def.mp hhead] at hnot
    simpa using hnot
  · intro c hc
    rw [trimWhere, dropEndWhile, List.getLast?_reverse, Option.mem_def] at hc
    have hnot := List.head?_dropWhile_not p (s.dropWhile p).reverse
    rw [hc] at hnot
    simpa using hnot

/-- There is one way to trim a text. -/
theorem isTrimmed_iff : IsTrimmed p s body ↔ body = trimWhere p s := by
  constructor
  · rintro ⟨⟨before, after, rfl, hbefore, hafter⟩, hhead, hlast⟩
    have hlast' : ∀ c ∈ body.reverse.head?, p c = false := by
      rwa [← List.getLast?_eq_head?_reverse]
    have hafter' : ∀ c ∈ after.reverse, p c = true := fun c hc => hafter c (List.mem_reverse.mp hc)
    rw [trimWhere, dropEndWhile]
    by_cases hbody : body = []
    · subst hbody
      rw [List.nil_append, List.dropWhile_append_of_pos hbefore,
        ← List.append_nil after, dropWhile_append_body hafter (by simp)]
      rfl
    · have hfront : ∀ c ∈ (body ++ after).head?, p c = false := by
        obtain ⟨c, cs, rfl⟩ := List.exists_cons_of_ne_nil hbody
        exact hhead
      rw [dropWhile_append_body hbefore hfront, List.reverse_append,
        dropWhile_append_body hafter' hlast', List.reverse_reverse]
  · rintro rfl
    exact isTrimmed_trimWhere p s

end Padding

/-! ## Decimal numerals -/

theorem exists_of_takeSign (s : List Char) :
    ∃ sign, IsSign sign ∧ s = sign ++ (takeSign s).2 := by
  unfold takeSign
  split
  · exact ⟨_, .minus, rfl⟩
  · exact ⟨_, .plus, rfl⟩
  · exact ⟨_, .none, rfl⟩

theorem takeSign_append {sign s : List Char} (hsign : IsSign sign)
    (hs : ∀ c ∈ s.head?, c ≠ '-' ∧ c ≠ '+') : ∃ negative, takeSign (sign ++ s) = (negative, s) := by
  cases hsign with
  | plus => exact ⟨false, rfl⟩
  | minus => exact ⟨true, rfl⟩
  | none =>
    refine ⟨false, ?_⟩
    rw [List.nil_append]
    unfold takeSign
    split
    · exact absurd rfl (hs '-' rfl).1
    · exact absurd rfl (hs '+' rfl).2
    · rfl

theorem ne_sign_of_isDigit {c : Char} (hc : c.isDigit = true) : c ≠ '-' ∧ c ≠ '+' := by
  constructor <;> rintro rfl <;> revert hc <;> decide

section Mantissa

variable {s ds rest : List Char}

theorem IsMantissa.ne_nil {mantissa : List Char} (h : IsMantissa mantissa) : mantissa ≠ [] := by
  cases h with
  | whole hne _ => exact hne
  | point => simp

theorem IsMantissa.head_append {mantissa : List Char} (h : IsMantissa mantissa) (rest : List Char) :
    ∀ c ∈ (mantissa ++ rest).head?, c ≠ '-' ∧ c ≠ '+' := by
  cases h with
  | @whole ds hne hds =>
    obtain ⟨d, ds, rfl⟩ := List.exists_cons_of_ne_nil hne
    rintro c ⟨⟩
    exact ne_sign_of_isDigit (hds d (by simp))
  | @point whole fraction _ hwhole =>
    cases whole with
    | nil =>
      rintro c ⟨⟩
      decide
    | cons d whole =>
      rintro c ⟨⟩
      exact ne_sign_of_isDigit (hwhole d (by simp))

theorem readMantissa?_point (hspan : spanDigits s = (ds, '.' :: rest)) :
    readMantissa? s = if ds = [] ∧ (spanDigits rest).1 = [] then none
      else some (ds, (spanDigits rest).1, (spanDigits rest).2) := by
  simp only [readMantissa?, hspan, List.isEmpty_iff]

theorem readMantissa?_whole (hspan : spanDigits s = (ds, rest)) (hrest : rest.head? ≠ some '.') :
    readMantissa? s = if ds = [] then none else some (ds, [], rest) := by
  simp only [readMantissa?, hspan, List.isEmpty_iff]
  split
  · exact absurd rfl hrest
  · simp only [and_true]

theorem isMantissa_of_readMantissa? {parts : List Char × List Char × List Char}
    (h : readMantissa? s = some parts) :
    ∃ mantissa, IsMantissa mantissa ∧ s = mantissa ++ parts.2.2 := by
  obtain ⟨⟨ds, rest⟩, hspan⟩ : ∃ parts, spanDigits s = parts := ⟨_, rfl⟩
  obtain ⟨rfl, hds, -⟩ := spanDigits_eq_iff.mp hspan
  by_cases hrest : rest.head? = some '.'
  · obtain ⟨rest, rfl⟩ := List.head?_eq_some_iff.mp hrest
    obtain ⟨⟨fraction, after⟩, hfraction⟩ : ∃ parts, spanDigits rest = parts := ⟨_, rfl⟩
    rw [readMantissa?_point hspan, hfraction] at h
    split at h
    · cases h
    · rename_i hne
      cases h
      obtain ⟨rfl, hdigits, -⟩ := spanDigits_eq_iff.mp hfraction
      exact ⟨_, .point (not_and_or.mp hne) hds hdigits, by simp⟩
  · rw [readMantissa?_whole hspan hrest] at h
    split at h
    · cases h
    · rename_i hne
      cases h
      exact ⟨ds, .whole hne hds, rfl⟩

theorem exists_readMantissa?_append {mantissa : List Char} (h : IsMantissa mantissa)
    (hrest : ∀ c ∈ rest.head?, c.isDigit = false ∧ c ≠ '.') :
    ∃ whole fraction, readMantissa? (mantissa ++ rest) = some (whole, fraction, rest) := by
  have hstop : ∀ c ∈ rest.head?, c.isDigit = false := fun c hc => (hrest c hc).1
  cases h with
  | whole hne hds =>
    have hpoint : rest.head? ≠ some '.' := fun hc => (hrest '.' hc).2 rfl
    exact ⟨_, _, (readMantissa?_whole (spanDigits_append hds hstop) hpoint).trans (if_neg hne)⟩
  | @point whole fraction hne hwhole hfraction =>
    have hspan : spanDigits ((whole ++ '.' :: fraction) ++ rest) =
        (whole, '.' :: (fraction ++ rest)) := by
      rw [List.append_assoc]
      exact spanDigits_append hwhole (by simp)
    refine ⟨whole, fraction, ?_⟩
    rw [readMantissa?_point hspan, spanDigits_append hfraction hstop]
    exact if_neg (not_and_or.mpr hne)

end Mantissa

theorem exists_readExponent?_iff {s : List Char} : (∃ n, readExponent? s = some n) ↔ IsExponent s := by
  constructor
  · rintro ⟨n, h⟩
    cases s with
    | nil => exact .none
    | cons mark s =>
      rw [readExponent?] at h
      split at h
      · rename_i hmark
        obtain ⟨sign, hsign, hs⟩ := exists_of_takeSign s
        obtain ⟨⟨ds, rest⟩, hspan⟩ : ∃ parts, spanDigits (takeSign s).2 = parts := ⟨_, rfl⟩
        obtain ⟨hsplit, hds, -⟩ := spanDigits_eq_iff.mp hspan
        simp only [hspan] at h
        split at h
        · cases h
        · rename_i hend
          rw [not_or, List.isEmpty_iff, Bool.not_eq_true', Bool.not_eq_false, List.isEmpty_iff] at hend
          rw [hs, hsplit, hend.2, List.append_nil]
          exact .given hmark hsign hend.1 hds
      · cases h
  · rintro (_ | @⟨mark, sign, ds, hmark, hsign, hne, hds⟩)
    · exact ⟨0, rfl⟩
    · have hfirst : ∀ c ∈ ds.head?, c ≠ '-' ∧ c ≠ '+' :=
        fun c hc => ne_sign_of_isDigit (hds c (List.mem_of_mem_head? hc))
      obtain ⟨negative, hsplit⟩ := takeSign_append hsign hfirst
      have hspan : spanDigits (ds ++ []) = (ds, []) := spanDigits_append hds (by simp)
      rw [List.append_nil] at hspan
      refine ⟨if negative then -(natOfDigits ds : Int) else natOfDigits ds, ?_⟩
      rw [readExponent?, if_pos hmark]
      simp only [hsplit, hspan]
      exact if_neg (by simp [hne])

/-- A character of a decimal numeral is no letter of an infinity or of a radix. -/
theorem decimal_chars {sign mantissa exponent : List Char} (hsign : IsSign sign)
    (hmantissa : IsMantissa mantissa) (hexponent : IsExponent exponent) :
    ∀ c ∈ sign ++ (mantissa ++ exponent), c ≠ 'y' ∧ radixOf? c = none := by
  have hdigit : ∀ {ds : List Char}, (∀ c ∈ ds, c.isDigit = true) →
      ∀ c ∈ ds, c ≠ 'y' ∧ radixOf? c = none := by
    intro ds hds c hc
    have hnumeral : isNumeralChar c = true := by
      rw [isNumeralChar, hds c hc, Bool.true_or, Bool.true_or]
    refine ⟨?_, radixOf?_of_isNumeralChar hnumeral⟩
    rintro rfl
    revert hnumeral
    decide
  have hsigns : ∀ {t : List Char}, IsSign t → ∀ c ∈ t, c ≠ 'y' ∧ radixOf? c = none := by
    intro t ht
    cases ht with
    | none => exact List.forall_mem_nil _
    | plus => exact List.forall_mem_singleton.mpr (by decide)
    | minus => exact List.forall_mem_singleton.mpr (by decide)
  rw [List.forall_mem_append, List.forall_mem_append]
  refine ⟨hsigns hsign, ?_, ?_⟩
  · cases hmantissa with
    | whole _ hds => exact hdigit hds
    | point _ hwhole hfraction =>
      rw [List.forall_mem_append, List.forall_mem_cons]
      exact ⟨hdigit hwhole, by decide, hdigit hfraction⟩
  · cases hexponent with
    | none => exact List.forall_mem_nil _
    | given hmark hsign _ hds =>
      rw [List.forall_mem_cons, List.forall_mem_append]
      exact ⟨by rcases hmark with rfl | rfl <;> decide, hsigns hsign, hdigit hds⟩

theorem exists_ofNumeral?_iff {s : List Char} :
    (∃ x, Binary64.ofNumeral? s = some x) ↔ ∃ sign mantissa exponent, IsSign sign ∧
      IsMantissa mantissa ∧ IsExponent exponent ∧ s = sign ++ (mantissa ++ exponent) := by
  constructor
  · rintro ⟨x, h⟩
    simp only [Binary64.ofNumeral?, Option.bind_eq_bind, Option.bind_eq_some_iff] at h
    obtain ⟨⟨whole, fraction, rest⟩, hmantissa, n, hexponent, -⟩ := h
    obtain ⟨sign, hsign, hs⟩ := exists_of_takeSign s
    obtain ⟨mantissa, hm, hsplit⟩ := isMantissa_of_readMantissa? hmantissa
    exact ⟨sign, mantissa, rest, hsign, hm, exists_readExponent?_iff.mp ⟨n, hexponent⟩,
      by rw [hs, hsplit]⟩
  · rintro ⟨sign, mantissa, exponent, hsign, hm, he, rfl⟩
    obtain ⟨negative, hsplit⟩ := takeSign_append hsign (hm.head_append exponent)
    have hstop : ∀ c ∈ exponent.head?, c.isDigit = false ∧ c ≠ '.' := by
      cases he with
      | none => simp
      | given hmark =>
        rintro c ⟨⟩
        rcases hmark with rfl | rfl <;> decide
    obtain ⟨whole, fraction, hmantissa⟩ := exists_readMantissa?_append hm hstop
    obtain ⟨n, hexponent⟩ := exists_readExponent?_iff.mpr he
    refine ⟨Binary64.ofParts negative whole fraction n, ?_⟩
    unfold Binary64.ofNumeral?
    simp only [hsplit, hmantissa, hexponent, Option.bind_eq_bind, Option.bind_some]
    rfl

/-! ## Literals with a radix -/

theorem radixOf?_eq_some_iff {c : Char} {radix : Nat} :
    radixOf? c = some radix ↔ (c, radix) ∈ radixMarks := by
  constructor
  · intro h
    unfold radixOf? at h
    split_ifs at h with hmark hmark hmark <;> cases h <;> rcases hmark with rfl | rfl <;> decide
  · have hmarks : ∀ m ∈ radixMarks, radixOf? m.1 = some m.2 := by decide
    exact fun h => hmarks _ h

theorem digitIn?_of_le {radix : Nat} (hradix : radix ≤ 16) {c : Char} {v : Nat} :
    digitIn? radix c = some v ↔ digitIn? 16 c = some v ∧ v < radix := by
  simp only [digitIn?, Option.ite_none_right_eq_some, Option.some.injEq]
  split_ifs <;> omega

/-- A character in a run of characters, by its place in the run. -/
theorem exists_place {first last c : Char} (h : first ≤ c ∧ c ≤ last) :
    ∃ i, i ≤ last.toNat - first.toNat ∧ c.toNat - first.toNat = i ∧ c = Char.ofNat (first.toNat + i) := by
  have hfirst : first.toNat ≤ c.toNat := UInt32.le_iff_toNat_le.mp (Char.le_def.mp h.1)
  have hlast : c.toNat ≤ last.toNat := UInt32.le_iff_toNat_le.mp (Char.le_def.mp h.2)
  refine ⟨c.toNat - first.toNat, by omega, rfl, ?_⟩
  rw [Nat.add_sub_cancel' hfirst, Char.ofNat_toNat]

/-- The digits are those of the radix, in lower or upper case. -/
theorem digitIn?_eq_some_iff {radix : Nat} (hradix : radix ≤ 16) {c : Char} {v : Nat} :
    digitIn? radix c = some v ↔ IsDigitOf radix c v := by
  have hlower : ∀ v < 16, "0123456789abcdef".toList[v]?.bind (digitIn? 16) = some v := by decide
  have hupper : ∀ v < 16, "0123456789ABCDEF".toList[v]?.bind (digitIn? 16) = some v := by decide
  have hten : ∀ i ≤ 9, "0123456789abcdef".toList[i]? = some (Char.ofNat (48 + i)) := by decide
  have hsmall : ∀ i ≤ 5, "0123456789abcdef".toList[i + 10]? = some (Char.ofNat (97 + i)) := by decide
  have hlarge : ∀ i ≤ 5, "0123456789ABCDEF".toList[i + 10]? = some (Char.ofNat (65 + i)) := by decide
  rw [digitIn?_of_le hradix, IsDigitOf, and_comm]
  refine and_congr_right fun hv => ⟨fun h => ?_, ?_⟩
  · simp only [digitIn?, Option.ite_none_right_eq_some, Option.some.injEq] at h
    obtain ⟨hlt, rfl⟩ := h
    split_ifs at hlt ⊢ with hdigit hletter hletter
    · obtain ⟨i, hi, hplace, hc⟩ := exists_place hdigit
      rw [hplace, hten i hi]
      exact Or.inl (congrArg some hc.symm)
    · obtain ⟨i, hi, hplace, hc⟩ := exists_place hletter
      rw [hplace, hsmall i hi]
      exact Or.inl (congrArg some hc.symm)
    · obtain ⟨i, hi, hplace, hc⟩ := exists_place hletter
      rw [hplace, hlarge i hi]
      exact Or.inr (congrArg some hc.symm)
    · omega
  · rintro (h | h)
    · have hread := hlower v (by omega)
      rwa [h] at hread
    · have hread := hupper v (by omega)
      rwa [h] at hread

theorem radix_le_of_mem {mark : Char} {radix : Nat} (h : (mark, radix) ∈ radixMarks) : radix ≤ 16 :=
  (radixOf?_bounds (radixOf?_eq_some_iff.mpr h)).2

section Radix

variable {radix : Nat} (hradix : radix ≤ 16)
include hradix

theorem readRadix?_eq_some_iff {ds : List Char} {acc x : Binary64} :
    readRadix? radix acc ds = some x ↔ ∃ vs, List.Forall₂ (IsDigitOf radix) ds vs ∧
      vs.foldl (fun y v => y.pushDigit radix v) acc = x := by
  induction ds generalizing acc with
  | nil =>
    constructor
    · rintro ⟨⟩
      exact ⟨[], .nil, rfl⟩
    · rintro ⟨_, ⟨⟩, rfl⟩
      rfl
  | cons c ds ih =>
    simp only [readRadix?, Option.bind_eq_bind, Option.bind_eq_some_iff, ih,
      digitIn?_eq_some_iff hradix]
    constructor
    · rintro ⟨v, hv, vs, hvs, rfl⟩
      exact ⟨v :: vs, .cons hv hvs, rfl⟩
    · rintro ⟨_, @⟨-, -⟩ | @⟨_, v, _, vs, hv, hvs⟩, rfl⟩
      exact ⟨v, hv, vs, hvs, rfl⟩

end Radix

namespace Binary64

/-- No rounding takes place as long as the number is a binary64 value. -/
theorem pushDigit_ofInt {radix v n : Nat} (h : n * radix + v ≤ 2 ^ 53) (hradix : radix ≤ 16)
    (hv : v < radix) : (ofInt n).pushDigit radix v = ofInt (n * radix + v : Nat) := by
  have hvalue : ∀ {k : Nat}, k ≤ 2 ^ 53 → IsValue k := exists_unitsOf_eq
  have hn : n ≤ n * radix := Nat.le_mul_of_pos_right n (by omega)
  have hproduct : (ofInt n).mul (ofInt radix) = ofInt (n * radix : Nat) :=
    mul_ofInt (hvalue (by omega)) (hvalue (by omega))
  rw [pushDigit, hproduct, add_ofInt (hvalue (by omega)) (hvalue (by omega))]

/-- Further digits do not make a number smaller. -/
theorem le_foldl_digits {radix v : Nat} (hv : v < radix) (vs : List Nat) (n : Nat) :
    n ≤ vs.foldl (fun k v => k * radix + v) n := by
  induction vs generalizing n with
  | nil => exact Nat.le_refl n
  | cons w vs ih =>
    have hpush : n ≤ n * radix + w :=
      Nat.le_trans (Nat.le_mul_of_pos_right n (by omega)) (Nat.le_add_right _ _)
    exact Nat.le_trans hpush (ih _)

theorem foldl_pushDigit_ofInt {radix : Nat} (hradix : radix ≤ 16) {vs : List Nat}
    (hvs : ∀ v ∈ vs, v < radix) {n : Nat} (h : vs.foldl (fun k v => k * radix + v) n ≤ 2 ^ 53) :
    vs.foldl (fun y v => y.pushDigit radix v) (ofInt n) =
      ofInt (vs.foldl (fun k v => k * radix + v) n : Nat) := by
  induction vs generalizing n with
  | nil => rw [List.foldl_nil, List.foldl_nil]
  | cons v vs ih =>
    rw [List.forall_mem_cons] at hvs
    rw [List.foldl_cons] at h
    have hstep : n * radix + v ≤ 2 ^ 53 := Nat.le_trans (le_foldl_digits hvs.1 vs _) h
    rw [List.foldl_cons, List.foldl_cons, pushDigit_ofInt hstep hradix hvs.1, ih hvs.2 h]

end Binary64

open Binary64

theorem readNumber?_radix {mark : Char} {radix : Nat} (hmark : (mark, radix) ∈ radixMarks)
    {ds : List Char} (hne : ds ≠ []) :
    readNumber? ('0' :: mark :: ds) = readRadix? radix (zero false) ds := by
  have hword : ∀ w : List Char, w.head? ≠ some '0' → '0' :: mark :: ds ≠ w := by
    rintro w hw rfl
    exact hw rfl
  have hinfinity := hword "Infinity".toList (by decide)
  have hplus := hword "+Infinity".toList (by decide)
  have hminus := hword "-Infinity".toList (by decide)
  unfold readNumber?
  rw [if_neg (not_or.mpr ⟨hinfinity, hplus⟩), if_neg hminus]
  simp only [radixOf?_eq_some_iff.mpr hmark]
  exact if_neg (by simpa using hne)

/-- A literal with a radix is read, exactly if its integer is small enough. -/
theorem IsRadixLiteral.exists_readNumber? {s : List Char} {n : Nat} (h : IsRadixLiteral s n) :
    ∃ x, readNumber? s = some x ∧ (n ≤ 2 ^ 53 → x = ofInt n) := by
  obtain @⟨mark, radix, ds, vs, hmark, hne, hds⟩ := h
  have hradix := radix_le_of_mem hmark
  have hvs : ∀ v ∈ vs, v < radix := by
    clear hne
    induction hds with
    | nil => exact fun v hv => nomatch hv
    | cons hv _ ih => exact List.forall_mem_cons.mpr ⟨hv.1, ih⟩
  refine ⟨vs.foldl (fun y v => y.pushDigit radix v) (zero false), ?_, fun hn => ?_⟩
  · rw [readNumber?_radix hmark hne]
    exact (readRadix?_eq_some_iff hradix).mpr ⟨vs, hds, rfl⟩
  · have hvalue : Nat.ofDigits radix vs.reverse = vs.foldl (fun k v => k * radix + v) 0 := by
      rw [Nat.ofDigits_eq_foldr, List.foldr_reverse]
      simp only [Nat.cast_id, Nat.mul_comm, Nat.add_comm]
    rw [hvalue] at hn ⊢
    rw [← ofInt_zero]
    exact foldl_pushDigit_ofInt hradix hvs hn

/-- **The texts that are read are the texts that are numbers.** -/
theorem exists_readNumber?_iff {s : List Char} : (∃ x, readNumber? s = some x) ↔ IsNumberText s := by
  constructor
  · rintro ⟨x, h⟩
    have hdecimal : ofNumeral? s = some x → IsNumberText s := by
      intro hx
      obtain ⟨sign, mantissa, exponent, hsign, hm, he, rfl⟩ := exists_ofNumeral?_iff.mp ⟨x, hx⟩
      exact .decimal hsign hm he
    unfold readNumber? at h
    split_ifs at h with hplus hminus
    · rcases hplus with rfl | rfl
      · exact .infinity .none
      · exact .infinity .plus
    · subst hminus
      exact .infinity .minus
    · split at h
      · exact .empty
      · rename_i mark ds
        split at h
        · rename_i radix hradix
          split at h
          · cases h
          · rename_i hne
            have hmark := radixOf?_eq_some_iff.mp hradix
            obtain ⟨vs, hds, -⟩ := (readRadix?_eq_some_iff (radix_le_of_mem hmark)).mp h
            exact .radix (.intro hmark (by simpa using hne) hds)
        · exact hdecimal h
      · exact hdecimal h
  · rintro (_ | hsign | h | ⟨hsign, hm, he⟩)
    · exact ⟨_, rfl⟩
    · cases hsign <;> exact ⟨_, rfl⟩
    · obtain ⟨x, hx, -⟩ := h.exists_readNumber?
      exact ⟨x, hx⟩
    · have hchars := decimal_chars hsign hm he
      rw [readNumber?_eq_ofNumeral? (by simp [hm.ne_nil]) (fun hy => (hchars 'y' hy).1 rfl)
        fun c hc => (hchars c hc).2]
      exact exists_ofNumeral?_iff.mpr ⟨_, _, _, hsign, hm, he, rfl⟩

/-- **Which texts are numbers.** -/
theorem coerceNumber_spec (text : String) :
    ∃ body, (∀ b, IsTrimmed isNumberPadding text.toList b ↔ b = body) ∧
      ((∃ x, coerceNumber text = some x) ↔ IsNumberText body) ∧
      coerceNumber text ≠ some .nan ∧
      (body = [] → coerceNumber text = some (zero false)) ∧
      ∀ n, IsRadixLiteral body n → n ≤ 2 ^ 53 →
        ∃ x : Finite, coerceNumber text = some (.finite x) ∧ x.signedUnits = (n * one : Nat) := by
  refine ⟨trimWhere isNumberPadding text.toList, fun b => isTrimmed_iff, exists_readNumber?_iff,
    fun h => coerceChars_ne_nan h rfl, fun hbody => ?_, fun n hliteral hn => ?_⟩
  · rw [coerceNumber, coerceChars, hbody]
    rfl
  · obtain ⟨x, hread, hexact⟩ := hliteral.exists_readNumber?
    obtain ⟨y, hy, hsign, hunits⟩ := IsValue.ofInt_eq (exists_unitsOf_eq hn)
    refine ⟨y, ?_, ?_⟩
    · rw [← hy, ← hexact hn]
      exact hread
    · rw [Finite.signedUnits, hsign, hunits]
      rfl

/-- A hexadecimal literal between a byte order mark and a no-break space. -/
theorem hexadecimal_read :
    IsRadixLiteral "0x1F".toList 31 ∧ ∃ x : Finite,
      coerceNumber "\uFEFF0x1F\u00A0" = some (.finite x) ∧ x.signedUnits = (31 * one : Nat) := by
  have hliteral : IsRadixLiteral "0x1F".toList 31 :=
    @IsRadixLiteral.intro 'x' 16 ['1', 'F'] [1, 15] (by decide) (by decide)
      (.cons (by decide) (.cons (by decide) .nil))
  obtain ⟨body, htrim, -, -, -, hexact⟩ := coerceNumber_spec "\uFEFF0x1F\u00A0"
  have hbody : "0x1F".toList = body := (htrim _).mp (isTrimmed_iff.mpr (by decide))
  exact ⟨hliteral, hexact 31 (hbody ▸ hliteral) (by decide)⟩

end EntityQuery

import EntityQuery.Proofs.Local.Rounding

/-!
# Numbers as they are written

A finite number is written for people as its decimal text rounded half away from zero: a minus sign
below zero, digits, and decimals after a comma. With grouping, a point stands before every three
digits, counted from the comma.

The text is described by itself, without the way it is made: what its digits stand for once the
points are dropped, how many they are on either side, which zeros may stand in front, and where the
points are.
-/

namespace EntityQuery

open Text

/-! ## Groups -/

/-- Digits in groups: three after every point, and one to three before the first one. -/
inductive IsGrouped : List Char → Prop
  | first {ds : List Char} (hne : ds ≠ []) (hlen : ds.length ≤ 3)
      (hdigits : ∀ c ∈ ds, c.isDigit = true) : IsGrouped ds
  | next {s ds : List Char} (h : IsGrouped s) (hlen : ds.length = 3)
      (hdigits : ∀ c ∈ ds, c.isDigit = true) : IsGrouped (s ++ '.' :: ds)

theorem isGrouped_groupReversed {s : List Char} (hne : s ≠ []) (hs : ∀ c ∈ s, c.isDigit = true) :
    IsGrouped (groupReversed s).reverse := by
  fun_induction groupReversed s with
  | case1 a b c d s ih =>
    have hrest := ih (List.cons_ne_nil _ _) fun e he => hs e (by simp at he ⊢; tauto)
    have hgroup : ∀ e ∈ [c, b, a], e.isDigit = true := fun e he => hs e (by simp at he ⊢; tauto)
    have hreverse : (a :: b :: c :: '.' :: groupReversed (d :: s)).reverse =
        (groupReversed (d :: s)).reverse ++ '.' :: [c, b, a] := by simp
    rw [hreverse]
    exact .next hrest rfl hgroup
  | case2 s hshort =>
    refine .first (by simpa using hne) ?_ (by simpa using hs)
    rw [List.length_reverse]
    match s, hshort with
    | [], _ => decide
    | [_], _ => exact Nat.le_add_left 1 2
    | [_, _], _ => exact Nat.le_add_left 2 1
    | [_, _, _], _ => exact Nat.le_refl 3
    | a :: b :: c :: d :: s, hshort => exact absurd rfl (hshort a b c d s)

theorem isGrouped_groupThousands {ds : List Char} (hne : ds ≠ [])
    (hds : ∀ c ∈ ds, c.isDigit = true) : IsGrouped (groupThousands ds) :=
  isGrouped_groupReversed (by simpa using hne) (by simpa using hds)

theorem filter_eq_self_of_not_mem {s : List Char} (hs : '.' ∉ s) : s.filter (· ≠ '.') = s := by
  rw [List.filter_eq_self]
  intro c hc
  rw [decide_eq_true_eq]
  rintro rfl
  exact hs hc

theorem filter_groupReversed {s : List Char} (hs : '.' ∉ s) :
    (groupReversed s).filter (· ≠ '.') = s := by
  fun_induction groupReversed s with
  | case1 a b c d s ih =>
    simp only [List.mem_cons, not_or] at hs
    obtain ⟨ha, hb, hc, hd, hrest⟩ := hs
    have htail := ih (by simp only [List.mem_cons, not_or]; exact ⟨hd, hrest⟩)
    rw [List.filter_cons_of_pos (by simpa using Ne.symm ha),
      List.filter_cons_of_pos (by simpa using Ne.symm hb),
      List.filter_cons_of_pos (by simpa using Ne.symm hc),
      List.filter_cons_of_neg (by simp), htail]
  | case2 s _ => exact filter_eq_self_of_not_mem hs

theorem filter_groupThousands {ds : List Char} (hds : '.' ∉ ds) :
    (groupThousands ds).filter (· ≠ '.') = ds := by
  rw [groupThousands, List.filter_reverse, filter_groupReversed (by simpa using hds),
    List.reverse_reverse]

/-! ## The text of a decimal -/

/-- What stands behind the first point of a text. -/
def plainFraction (s : List Char) : List Char :=
  (s.dropWhile (· ≠ '.')).tail

/-- The number that a text of digits with at most one point stands for. -/
def plainValue (s : List Char) : ℚ :=
  decimalValue (s.takeWhile (· ≠ '.')) (plainFraction s)

theorem not_mem_of_isDigit {c : Char} {s : List Char} (hc : c.isDigit = false)
    (hs : ∀ d ∈ s, d.isDigit = true) : c ∉ s := by
  intro hmem
  rw [hs c hmem] at hc
  cases hc

section Plain

variable {whole : List Char} (hwhole : '.' ∉ whole) (fraction : List Char)
include hwhole

theorem ne_point : ∀ c ∈ whole, decide (c ≠ '.') = true := by
  intro c hc
  rw [decide_eq_true_eq]
  rintro rfl
  exact hwhole hc

theorem plainFraction_joinAt : plainFraction (Decimal.joinAt '.' whole fraction) = fraction := by
  unfold plainFraction Decimal.joinAt
  split
  · rename_i hempty
    rw [List.dropWhile_eq_nil_iff.mpr (ne_point hwhole), List.isEmpty_iff.mp hempty, List.tail_nil]
  · rw [List.dropWhile_append_of_pos (ne_point hwhole), List.dropWhile_cons_of_neg (by simp),
      List.tail_cons]

theorem plainValue_joinAt :
    plainValue (Decimal.joinAt '.' whole fraction) = decimalValue whole fraction := by
  have hfirst : (Decimal.joinAt '.' whole fraction).takeWhile (· ≠ '.') = whole := by
    unfold Decimal.joinAt
    split
    · exact List.takeWhile_eq_self_iff.mpr (ne_point hwhole)
    · rw [List.takeWhile_append_of_pos (ne_point hwhole), List.takeWhile_cons_of_neg (by simp),
        List.append_nil]
  rw [plainValue, hfirst, plainFraction_joinAt hwhole]

end Plain

/-! ## The text of a number -/

/-- How the magnitude `value` is written: `integer` before the comma, with or without points, and
`fraction` behind it. A magnitude is not negative, so `round`, which takes ties up, takes them away
from zero. Zeros stand in front only to make up the least number of digits. -/
structure IsLocalized (grouping : Bool) (least : Nat) (fractionDigits : Option Nat) (value : ℚ)
    (integer fraction : List Char) : Prop where
  grouped : if grouping then IsGrouped integer else ∀ c ∈ integer, c.isDigit = true
  fraction_isDigit : ∀ c ∈ fraction, c.isDigit = true
  hasPlaces : HasPlaces fractionDigits fraction
  value : decimalValue (integer.filter (· ≠ '.')) fraction =
    round (value * 10 ^ fractionDigits.getD 20) / 10 ^ fractionDigits.getD 20
  least_le : max 1 least ≤ (integer.filter (· ≠ '.')).length
  padded : (integer.filter (· ≠ '.')).head? = some '0' →
    (integer.filter (· ≠ '.')).length = max 1 least

theorem Binary64.isBelowZero_finite (x : Finite) :
    isBelowZero (.finite x) = (x.negative && x.word != 0) := rfl

theorem Binary64.isBelowZero_eq (x : Finite) :
    isBelowZero (.finite x) = decide (x.signedUnits < 0) := by
  rw [isBelowZero_finite, Bool.eq_iff_iff, Bool.and_eq_true, bne_iff_ne, decide_eq_true_eq,
    Finite.signedUnits, Finite.units]
  rcases Nat.eq_zero_or_pos x.word with hx | hx
  · rw [hx, unitsOf_zero]
    split <;> simp
  · have hunits := unitsOf_pos hx.ne'
    split
    · rename_i hneg
      exact iff_of_true ⟨hneg, hx.ne'⟩ (by omega)
    · rename_i hneg
      exact iff_of_false (fun h => hneg h.1) (by omega)

/-- Padded digits that start with a zero are just as long as they have to be. -/
theorem length_padLeft_of_zero {width : Nat} {ds : List Char} (hwidth : 0 < width) (hne : ds ≠ [])
    (hds : NoLeadingZero ds) (hzero : (padLeft width '0' ds).head? = some '0') :
    (padLeft width '0' ds).length = width := by
  have hpos := List.length_pos_of_ne_nil hne
  rw [length_padLeft]
  rcases Nat.lt_or_ge ds.length width with hlt | hge
  · exact Nat.max_eq_left hlt.le
  · rw [padLeft_of_le hge] at hzero
    have hone := hds hzero
    omega

/-- **A magnitude is written exactly, rounded at its last decimal.** -/
theorem localizedChars_spec (grouping : Bool) (least : Nat) (fractionDigits : Option Nat)
    (d : Decimal) :
    ∃ integer fraction,
      localizedChars grouping least fractionDigits d = Decimal.joinAt ',' integer fraction ∧
        IsLocalized grouping least fractionDigits (plainValue d.plainChars) integer fraction := by
  obtain ⟨hround, hplaces⟩ := localizedParts_spec fractionDigits d
  have hsplit := (List.forall_mem_append.mp d.split_spec.2.1).1
  have hplain : plainValue d.plainChars = decimalValue d.split.1 d.split.2 :=
    plainValue_joinAt (not_mem_of_isDigit (by decide) hsplit) _
  -- the digits before the comma, without points
  let whole := padLeft (max least 1) '0' (localizedParts fractionDigits d).1
  have hdigits : ∀ c ∈ whole, c.isDigit = true := isDigit_of_mem_padLeft hround.whole_isDigit
  have hne : whole ≠ [] := List.append_ne_nil_of_right_ne_nil _ hround.ne_nil
  have hpoint : '.' ∉ whole := not_mem_of_isDigit (by decide) hdigits
  have hfilter : (if grouping then groupThousands whole else whole).filter (· ≠ '.') = whole := by
    split
    · exact filter_groupThousands hpoint
    · exact filter_eq_self_of_not_mem hpoint
  refine ⟨if grouping then groupThousands whole else whole, (localizedParts fractionDigits d).2, rfl,
    ?_, hround.fraction_isDigit, hplaces, ?_, ?_, ?_⟩
  · split
    · exact isGrouped_groupThousands hne hdigits
    · exact hdigits
  · rw [hfilter, decimalValue_padLeft, hround.value, hplain, ← d.roundedAt_eq_round, Int.cast_natCast]
  · rw [hfilter, length_padLeft, Nat.max_comm 1]
    exact Nat.le_max_left _ _
  · rw [hfilter, Nat.max_comm 1]
    exact length_padLeft_of_zero (by omega) hround.ne_nil hround.noLeadingZero

/-- **How a finite number is written for people**: a minus sign exactly below zero, then the plain
decimal text of the magnitude rounded half away from zero to the decimals that are fixed, or to
twenty without zeros at the end. -/
theorem formatLocalized_spec (x : Binary64.Finite) (grouping : Bool) (least : UInt32)
    (fractionDigits : Option UInt32) :
    ∃ integer fraction,
      (formatLocalized (.finite x) grouping least fractionDigits).toList =
          signed (decide (x.signedUnits < 0)) (Decimal.joinAt ',' integer fraction) ∧
        IsLocalized grouping least.toNat (fractionDigits.map UInt32.toNat)
          (plainValue (Binary64.finite { x with negative := false }).plainText.toList)
          integer fraction := by
  obtain ⟨integer, fraction, hchars, hlocalized⟩ :=
    localizedChars_spec grouping least.toNat (fractionDigits.map UInt32.toNat) x.decimal
  have hplain : (Binary64.finite { x with negative := false }).plainText.toList =
      x.decimal.plainChars := String.toList_ofList
  refine ⟨integer, fraction, ?_, hplain ▸ hlocalized⟩
  rw [← Binary64.isBelowZero_eq, ← hchars]
  exact String.toList_ofList

-- the carry of `999.995` lengthens the digits before the comma, which makes a new group
example : formatLocalized (.finite ⟨false, 0x408F3FF5C28F5C29, by decide⟩) true 1 (some 2) =
    "1.000,00" := by
  decide +kernel

end EntityQuery

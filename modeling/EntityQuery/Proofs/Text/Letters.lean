import EntityQuery.Text.Letters

/-!
# Texts up to the case of letters

A text agrees with a pattern up to the case of ASCII letters part by part, and where the pattern has
no letters the text is the pattern.

The letters are two ranges of code points, and lower-casing moves the capitals up by 32, onto the
small letters. So no two capitals have one lower case, and no capital has one that is no letter.
-/

namespace EntityQuery.Text

variable {s a b : List Char} {c d : Char}

/-! ## Code points -/

theorem isUpper_iff_toNat : c.isUpper = true ↔ 65 ≤ c.toNat ∧ c.toNat ≤ 90 := by
  show decide ('A'.val ≤ c.val ∧ c.val ≤ 'Z'.val) = true ↔ _
  rw [decide_eq_true_iff, UInt32.le_iff_toNat_le, UInt32.le_iff_toNat_le]
  rfl

theorem isAlpha_iff_toNat :
    c.isAlpha = true ↔ (65 ≤ c.toNat ∧ c.toNat ≤ 90) ∨ (97 ≤ c.toNat ∧ c.toNat ≤ 122) := by
  show (c.isUpper || (decide ('a'.val ≤ c.val) && decide (c.val ≤ 'z'.val))) = true ↔ _
  rw [Bool.or_eq_true, isUpper_iff_toNat, Bool.and_eq_true, decide_eq_true_iff, decide_eq_true_iff,
    UInt32.le_iff_toNat_le, UInt32.le_iff_toNat_le]
  rfl

theorem isAlpha_of_isDigit (h : c.isDigit = true) : c.isAlpha = false := by
  have hhigh : c.toNat ≤ 57 := (Char.isDigit_iff_toNat.mp h).2
  rw [Bool.eq_false_iff, ne_eq, isAlpha_iff_toNat]
  omega

/-! ## Lower case -/

theorem toLower_of_not_isUpper (h : ¬ c.isUpper = true) : c.toLower = c :=
  dif_neg fun hrange => h (decide_eq_true hrange)

theorem toNat_toLower (h : c.isUpper = true) : c.toLower.toNat = c.toNat + 32 := by
  have hhigh : c.val.toNat ≤ 90 := (isUpper_iff_toNat.mp h).2
  have hsmall : c.val.toNat + 32 < 2 ^ 32 := by omega
  have hlower : c.toLower.toNat = (c.val + 32).toNat :=
    congrArg Char.toNat (dif_pos (of_decide_eq_true h))
  rw [hlower, UInt32.toNat_add]
  exact Nat.mod_eq_of_lt hsmall

theorem toLower_of_not_isAlpha (h : c.isAlpha = false) : c.toLower = c := by
  apply toLower_of_not_isUpper
  intro hupper
  have hletter : c.isAlpha = true := isAlpha_iff_toNat.mpr (Or.inl (isUpper_iff_toNat.mp hupper))
  rw [h] at hletter
  cases hletter

/-- A character that is no letter is the lower case of itself only. -/
theorem toLower_eq_iff (hd : d.isAlpha = false) : c.toLower = d.toLower ↔ c = d := by
  constructor
  · intro h
    rw [toLower_of_not_isAlpha hd] at h
    by_cases hc : c.isUpper = true
    · -- the lower case of a capital is a letter
      have hrange := isUpper_iff_toNat.mp hc
      have hletter : d.isAlpha = true := by
        rw [← h, isAlpha_iff_toNat, toNat_toLower hc]
        omega
      rw [hd] at hletter
      cases hletter
    · rwa [toLower_of_not_isUpper hc] at h
  · rintro rfl
    rfl

/-- A capital is the other case of its lower case. -/
theorem toLower_eq_toLower_iff (hd : d.isUpper = true) :
    c.toLower = d.toLower ↔ c = d ∨ c = d.toLower := by
  have hlower := toNat_toLower hd
  constructor
  · intro h
    by_cases hc : c.isUpper = true
    · left
      apply Char.toNat_inj.mp
      rw [← h, toNat_toLower hc] at hlower
      omega
    · rw [toLower_of_not_isUpper hc] at h
      exact Or.inr h
  · rintro (rfl | rfl)
    · rfl
    · apply toLower_of_not_isUpper
      have hrange := isUpper_iff_toNat.mp hd
      rw [isUpper_iff_toNat, hlower]
      omega

/-! ## Part by part -/

theorem sameLetters_nil : sameLetters s [] = true ↔ s = [] := by
  simp [sameLetters]

theorem sameLetters_cons :
    sameLetters s (d :: b) = true ↔ ∃ c t, s = c :: t ∧ c.toLower = d.toLower ∧
      sameLetters t b = true := by
  simp only [sameLetters, beq_iff_eq, List.map_cons, List.map_eq_cons_iff]

theorem sameLetters_append :
    sameLetters s (a ++ b) = true ↔ ∃ t u, s = t ++ u ∧ sameLetters t a = true ∧
      sameLetters u b = true := by
  simp only [sameLetters, beq_iff_eq, List.map_append, List.map_eq_append_iff]

theorem sameLetters_iff_eq (hb : ∀ c ∈ b, c.isAlpha = false) : sameLetters s b = true ↔ s = b := by
  induction b generalizing s with
  | nil => exact sameLetters_nil
  | cons d b ih =>
    rw [List.forall_mem_cons] at hb
    rw [sameLetters_cons]
    constructor
    · rintro ⟨c, t, rfl, hc, ht⟩
      rw [(toLower_eq_iff hb.1).mp hc, (ih hb.2).mp ht]
    · rintro rfl
      exact ⟨d, b, rfl, rfl, (ih hb.2).mpr rfl⟩

end EntityQuery.Text

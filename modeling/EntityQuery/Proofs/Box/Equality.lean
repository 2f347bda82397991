import EntityQuery.Box.Basic
import EntityQuery.Proofs.Value.Equality

/-!
# Equality of boxes

Boxes compare their content, and the values that they hold compare as loose values. The two agree
in every family: kinds, settings and converters take part in neither, and a number is compared the
same whether it is taken as a number or as the integer or float that it becomes as a value.
-/

namespace EntityQuery

namespace Value

/-- The integer that a number becomes compares with floats as the number does. -/
theorem equal_ofInt_truncate {x : Binary64.Finite} (h : x.isInteger = true)
    (hsafe : x.truncate.natAbs ≤ safeInteger) (y : Binary64) :
    (Binary64.ofInt (Int64.ofInt x.truncate).toInt).equal y = (Binary64.finite x).equal y := by
  have hself : (Binary64.ofInt (Int64.ofInt x.truncate).toInt).equal (.finite x) = true := by
    rw [toInt_ofInt_of_safe hsafe]
    exact Binary64.ofInt_equal_of_signedUnits (Binary64.signedUnits_of_isInteger h)
  rw [Bool.eq_iff_iff]
  constructor
  · exact Binary64.equal_trans (by rwa [Binary64.equal_comm])
  · exact Binary64.equal_trans hself

/-- **Numbers compare as values as they do as numbers.** -/
theorem strictEq_ofNumber (x y : Binary64) : (ofNumber x).strictEq (ofNumber y) = x.equal y := by
  rcases ofNumber_cases x with ⟨x, rfl, hx, hxsafe, hxint⟩ | hxfloat
  · rcases ofNumber_cases y with ⟨y, rfl, hy, hysafe, hyint⟩ | hyfloat
    · rw [hxint, hyint, strictEq, Binary64.equal, Binary64.signedUnits_of_isInteger hx,
        Binary64.signedUnits_of_isInteger hy, Bool.eq_iff_iff, beq_iff_eq, beq_iff_eq]
      constructor
      · intro h
        rw [← toInt_ofInt_of_safe hxsafe, ← toInt_ofInt_of_safe hysafe, h]
      · intro h
        rw [mul_one_injective h]
    · rw [hxint, hyfloat]
      exact equal_ofInt_truncate hx hxsafe y
  · rcases ofNumber_cases y with ⟨y, rfl, hy, hysafe, hyint⟩ | hyfloat
    · rw [hxfloat, hyint, Binary64.equal_comm x]
      exact (Binary64.equal_comm _ _).trans (equal_ofInt_truncate hy hysafe x)
    · rw [hxfloat, hyfloat]
      rfl

theorem strictEq_null_ofNumber (x : Binary64) :
    strictEq .null (ofNumber x) = false ∧ strictEq (ofNumber x) .null = false := by
  rcases ofNumber_cases x with ⟨y, -, -, -, hint⟩ | hfloat
  · rw [hint]
    exact ⟨rfl, rfl⟩
  · rw [hfloat]
    exact ⟨rfl, rfl⟩

/-- Two values are equal as a list exactly if they are strictly equal. -/
theorem allEqual_pair (v w : Value) : allEqual [v, w] = v.strictEq w := by
  simp [allEqual]

end Value

namespace Box

/-- Boxes of one family are the same exactly if the values that they hold are equal. -/
theorem same_eq_strictEq : {F : Family} → (a b : Box F) → a.same b = a.raw.strictEq b.raw
  | .value, _, _ => rfl
  | .bool, a, b => by
    rw [same, raw, raw]
    cases a.value <;> cases b.value <;> rfl
  | .date, a, b => by
    rw [same, raw, raw]
    cases a.value <;> cases b.value <;> rfl
  | .number, a, b => by
    rw [same, raw, raw]
    cases a.value with
    | none =>
      cases b.value with
      | none => rfl
      | some y => exact (Value.strictEq_null_ofNumber y).1.symm
    | some x =>
      cases b.value with
      | none => exact (Value.strictEq_null_ofNumber x).2.symm
      | some y => exact (Value.strictEq_ofNumber x y).symm
  | .lookup, _, _ => rfl

end Box

namespace AnyBox

/-- **Boxes are equal exactly if they are of one family and the values that they hold are equal**,
whatever their kinds, settings and converters are. -/
theorem same_eq_allEqual :
    (∀ (F : Family) (a b : Box F), a.same b = Value.allEqual [a.raw, b.raw]) ∧
      ∀ a b : AnyBox,
        a.same b = (decide (a.family = b.family) && Value.allEqual [a.raw, b.raw]) := by
  refine ⟨fun F a b => ?_, fun a b => ?_⟩
  · rw [Box.same_eq_strictEq, Value.allEqual_pair]
  · obtain ⟨F, a⟩ := a
    obtain ⟨G, b⟩ := b
    rw [same, ofFamily?, Value.allEqual_pair]
    by_cases h : G = F
    · subst h
      simp only [dif_pos, decide_true, Bool.true_and]
      exact Box.same_eq_strictEq a b
    · have h' : ¬ F = G := fun heq => h heq.symm
      simp only [dif_neg h, decide_eq_false h', Bool.false_and]

end AnyBox

end EntityQuery

import EntityQuery.Proofs.Box.Wire
import EntityQuery.Proofs.Record.Saving
import EntityQuery.Proofs.Value.Integers

/-!
# Boxes of wrapped documents

A JSON document becomes a loose value in two ways: it is loaded as the value that it stands for, or
it is wrapped as it is. Most views of a value look through the wrapping: whether it is null or true,
its text and its number are the same either way (`Value.isTruthy_ofJson`, `Value.number?_ofJson`), so
boolean and number boxes do not tell the two apart.

A date box looks through the wrapping of a text only. A wrapped number or truth value gives it no
date, though the loaded one counts milliseconds (`Box.instantOfSeed_ofJson_of_millis`).
`Box.value_ofSeed_json` says where the two boxes agree, and `Box.wrapped_millis_lost` is a number
for which they do not.
-/

namespace EntityQuery

/-! ## Milliseconds -/

/-- The milliseconds that a JSON document counts: truth values are 0 and 1, and a number is cut toward
zero. -/
def Json.millis? : Json → Option Int
  | .bool b => some (if b then 1 else 0)
  | .int n => some n.val
  | .float x => some x.truncate
  | _ => none

namespace Instant

/-- Whether a count of milliseconds stays within the range of dates. -/
def IsMillis (ms : Int) : Prop :=
  firstSecond * 1000 ≤ ms ∧ ms < (lastSecond + 1) * 1000

theorem ofMillis?_eq_none_iff {ms : Int} : ofMillis? ms = none ↔ ¬ IsMillis ms := by
  unfold ofMillis? of? IsMillis
  split
  · refine iff_of_false (by simp) (not_not_intro ?_)
    omega
  · refine iff_of_true rfl ?_
    omega

/-- Every whole number of milliseconds in the range of dates is a safe integer. -/
theorem not_isMillis {ms : Int} (h : (Value.safeInteger : Int) ≤ ms) : ¬ IsMillis ms := by
  have hvalue : Value.safeInteger = 2 ^ 53 := rfl
  unfold IsMillis firstSecond lastSecond
  omega

end Instant

/-! ## Integers -/

/-- Rounding keeps an integer beyond the safe range there. -/
theorem Binary64.safeInteger_le_truncate {n : Int} (hn : (Value.safeInteger : Int) ≤ n) {x : Finite}
    (h : ofInt n = .finite x) : (Value.safeInteger : Int) ≤ x.truncate := by
  have hsign : x.negative = false := by
    rw [(eq_of_ofUnits h).1]
    exact decide_eq_false (by omega)
  have hunits : Value.safeInteger * one ≤ x.units := by
    rw [← unitsOf_safeWord]
    exact unitsOf_strictMono.monotone (safeWord_le (by omega) h)
  have hwhole : Value.safeInteger ≤ x.wholePart :=
    (Nat.le_div_iff_mul_le one_pos).mpr hunits
  rw [Finite.truncate, hsign, if_neg Bool.false_ne_true]
  exact Int.ofNat_le.mpr hwhole

namespace Value

/-! ## Views of a document -/

theorem isNull_ofJson_eq (j : Json) : (ofJson j).isNull = (json j).isNull := by
  cases j with
  | int n => rcases ofJson_int_cases n with ⟨-, h⟩ | ⟨-, x, -, h⟩ <;> rw [h] <;> rfl
  | _ => rfl

theorem text?_ofJson (j : Json) : (ofJson j).text? = (json j).text? := by
  cases j with
  | int n => rcases ofJson_int_cases n with ⟨-, h⟩ | ⟨-, x, -, h⟩ <;> rw [h] <;> rfl
  | _ => rfl

theorem isTruthy_ofJson (j : Json) : (ofJson j).isTruthy = (json j).isTruthy := by
  cases j with
  | int n =>
    rcases ofJson_int_cases n with ⟨hn, h⟩ | ⟨hn, x, hx, h⟩
    · have hzero : Int64.ofInt n.val = 0 ↔ n.val = 0 := by
        rw [← Int64.toInt_inj, toInt_ofInt_of_fits hn, Int64.toInt_zero]
      rw [h, Bool.eq_iff_iff]
      simp only [isTruthy, bne_iff_ne, ne_eq, hzero]
    · have hsafe := safeInteger_lt hn
      have hword := word_ne_zero_of_ofInt (by omega) hx
      have hne : n.val ≠ 0 := by omega
      rw [h, Bool.eq_iff_iff]
      simp [isTruthy, Binary64.isZero, Binary64.isNaN, hword, hne]
  | float x => simp [ofJson, isTruthy, Binary64.isZero, Binary64.isNaN, bne]
  | _ => rfl

theorem number?_ofJson (j : Json) : (ofJson j).number? = (json j).number? := by
  cases j with
  | int n =>
    rcases ofJson_int_cases n with ⟨hn, h⟩ | ⟨-, x, hx, h⟩
    · rw [h, number?, toInt_ofInt_of_fits hn]
      rfl
    · rw [h, number?, ← hx]
      rfl
  | _ => rfl

end Value

namespace Box

/-! ## Boxes of documents -/

theorem instantOfSeed_json (j : Json) :
    instantOfSeed (.json j) = (Value.json j).text?.bind Instant.ofText? := by
  cases j <;> rfl

/-- A document that counts milliseconds gives no date when it is wrapped. -/
theorem instantOfSeed_json_of_millis {j : Json} {ms : Int} (h : j.millis? = some ms) :
    instantOfSeed (.json j) = none := by
  cases j <;> cases h <;> rfl

/-- It gives the instant that it counts when it is loaded. -/
theorem instantOfSeed_ofJson_of_millis {j : Json} {ms : Int} (h : j.millis? = some ms) :
    instantOfSeed (.ofJson j) = Instant.ofMillis? ms := by
  cases j with
  | int n =>
    obtain rfl : n.val = ms := Option.some.inj h
    rcases Value.ofJson_int_cases n with ⟨hn, hint⟩ | ⟨hn, x, hx, hfloat⟩
    · rw [hint, instantOfSeed, Value.toInt_ofInt_of_fits hn]
    · -- beyond the range of dates, before and after rounding
      have hsafe := Int.le_of_lt (Value.safeInteger_lt hn)
      have hrounded := Binary64.safeInteger_le_truncate hsafe hx
      rw [hfloat, instantOfSeed,
        Instant.ofMillis?_eq_none_iff.mpr (Instant.not_isMillis hsafe),
        Instant.ofMillis?_eq_none_iff.mpr (Instant.not_isMillis hrounded)]
  | bool b | float x =>
    cases h
    rfl
  | _ => cases h

theorem instantOfSeed_json_eq_iff (j : Json) :
    instantOfSeed (.json j) = instantOfSeed (.ofJson j) ↔
      ∀ ms, j.millis? = some ms → ¬ Instant.IsMillis ms := by
  cases hms : j.millis? with
  | none =>
    have hsame : instantOfSeed (.json j) = instantOfSeed (.ofJson j) := by
      cases j <;> cases hms <;> rfl
    simp [hsame]
  | some ms =>
    rw [instantOfSeed_json_of_millis hms, instantOfSeed_ofJson_of_millis hms, eq_comm,
      Instant.ofMillis?_eq_none_iff]
    simp

/-- **Boxes of wrapped documents and of loaded ones.** Boolean and number boxes hold the same,
whatever the options. A date box reads the same date from a text, but a number or a truth value
gives it one only when it is loaded: so the two boxes differ exactly if the document counts the
milliseconds of an instant. -/
theorem value_ofSeed_json (j : Json) :
    (∀ o : Options .bool, (ofSeed (.json j) o).value = (ofSeed (.ofJson j) o).value) ∧
      (∀ o : Options .number, (ofSeed (.json j) o).value = (ofSeed (.ofJson j) o).value) ∧
      ∀ o : Options .date,
        (ofSeed (.json j) o).value = (Value.json j).text?.bind Instant.ofText? ∧
        (∀ ms, j.millis? = some ms → (ofSeed (.ofJson j) o).value = Instant.ofMillis? ms) ∧
        ((ofSeed (.json j) o).value = (ofSeed (.ofJson j) o).value ↔
          ∀ ms, j.millis? = some ms → ¬ Instant.IsMillis ms) := by
  refine ⟨fun o => ?_, fun o => ?_, fun o => ⟨?_, fun ms hms => ?_, ?_⟩⟩
  · simp only [value_ofSeed, contentOfSeed, Value.isNull_ofJson_eq, Value.isTruthy_ofJson]
  · simp only [value_ofSeed, contentOfSeed, Value.text?_ofJson, Value.number?_ofJson]
  · rw [value_ofSeed, contentOfSeed, instantOfSeed_json]
  · rw [value_ofSeed, contentOfSeed, instantOfSeed_ofJson_of_millis hms]
  · rw [value_ofSeed, value_ofSeed, contentOfSeed, contentOfSeed, instantOfSeed_json_eq_iff]

/-- A count of milliseconds is a date when it is loaded, and none when it is wrapped. -/
theorem wrapped_millis_lost :
    let j : Json := .int ⟨1620986400000, by decide, by decide⟩
    (ofSeed (.json j) (.keep : Options .date)).value = none ∧
      ∃ t : Instant, (ofSeed (.ofJson j) (.keep : Options .date)).value = some t ∧
        t.toMillis = 1620986400000 := by
  intro j
  have hms : j.millis? = some 1620986400000 := rfl
  refine ⟨?_, ⟨1620986400, 0, by decide, by decide, by decide⟩, ?_, by decide⟩
  · rw [value_ofSeed, contentOfSeed, instantOfSeed_json_of_millis hms]
  · rw [value_ofSeed, contentOfSeed, instantOfSeed_ofJson_of_millis hms]
    decide

end Box

end EntityQuery

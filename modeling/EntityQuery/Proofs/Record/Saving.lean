import EntityQuery.Record.Basic
import EntityQuery.Proofs.Record.Entries
import EntityQuery.Proofs.Value.Literal
import Mathlib.Data.List.Forall2

/-!
# Saving an untouched record

A record that is loaded from a JSON object and saved again has the members of the object, in their
order. Each of them is the JSON value that it was, with one exception (`Json.SavedAs`): values have
no unsigned integers, so a member that is an integer beyond the signed range is loaded as a float,
and saved as the float nearest to it. Within arrays and objects there is no such loss, since these
are kept as documents.
-/

namespace EntityQuery

/-! ## Members -/

namespace Json.Integer

theorem ofInt64_ofInt {n : Integer} (h : n.val < 0x8000000000000000) :
    ofInt64 (Int64.ofInt n.val) = n := by
  have hval := Value.toInt_ofInt_of_fits h
  obtain ⟨val, hlow, hhigh⟩ := n
  simp only [ofInt64, mk.injEq]
  exact hval

end Json.Integer

/-- No unsigned word is beyond the finite numbers. -/
theorem Binary64.exists_ofInt_eq {n : Int} (h : n.natAbs ≤ 2 ^ 64) :
    ∃ x : Finite, ofInt n = .finite x := by
  -- the exponent is kept a variable, so that no power is ever computed
  obtain ⟨e, he, hone⟩ : ∃ e, e = 1074 ∧ one = 2 ^ e := ⟨1074, rfl, one_eq⟩
  obtain ⟨w, hw, hunits⟩ := exists_unitsOf_pow (k := 1) (e := 64 + e) (by decide) (by omega) (by omega)
  have hle : nearestWord (n.natAbs * one) 1 ≤ w := by
    refine nearestWord_le Nat.one_pos ?_
    rw [hunits, hone, Nat.mul_one, Nat.one_mul, Nat.pow_add]
    exact Nat.mul_le_mul_right _ h
  exact ⟨_, ofUnits_of_lt (Nat.lt_of_le_of_lt hle hw)⟩

namespace Json

/-- A JSON value is no integer beyond the signed range. -/
def Fits (j : Json) : Prop :=
  ∀ n, j = .int n → n.val < 0x8000000000000000

/-- What a loaded JSON value is saved as: itself, but for an integer beyond the signed range the
float nearest to it. -/
inductive SavedAs : Json → Json → Prop
  | same {j : Json} (h : j.Fits) : SavedAs j j
  | rounded {n : Integer} {x : Binary64.Finite} (h : 0x8000000000000000 ≤ n.val)
    (hx : Binary64.ofInt n.val = .finite x) : SavedAs (.int n) (.float x)

theorem SavedAs.eq_iff {j k : Json} (h : j.SavedAs k) : k = j ↔ j.Fits := by
  cases h with
  | same h => exact iff_of_true rfl h
  | @rounded n x hn hx =>
    refine iff_of_false (by simp) fun hfits => ?_
    have hlt := hfits n rfl
    omega

end Json

namespace Value

/-- An integer is loaded as itself, or beyond the signed range as the float nearest to it. -/
theorem ofJson_int_cases (n : Json.Integer) :
    (n.val < 0x8000000000000000 ∧ ofJson (.int n) = .int (Int64.ofInt n.val)) ∨
      (0x8000000000000000 ≤ n.val ∧
        ∃ x, Binary64.ofInt n.val = .finite x ∧ ofJson (.int n) = .float (.finite x)) := by
  by_cases hn : n.val < 0x8000000000000000
  · have hword : n.toInt64? = some (Int64.ofInt n.val) := if_pos hn
    exact Or.inl ⟨hn, by simp only [ofJson, hword]⟩
  · have hword : n.toInt64? = none := if_neg hn
    have hhigh := n.val_lt
    obtain ⟨x, hx⟩ := Binary64.exists_ofInt_eq (n := n.val) (by omega)
    exact Or.inr ⟨Int.not_lt.mp hn, x, hx, by simp only [ofJson, hword, hx]⟩

theorem toJson_ofJson {j : Json} (h : j.Fits) : (ofJson j).toJson = j := by
  cases j with
  | int n =>
    have hn := h n rfl
    rcases ofJson_int_cases n with ⟨-, hint⟩ | ⟨hlarge, -⟩
    · rw [hint, toJson, Json.Integer.ofInt64_ofInt hn]
    · omega
  | _ => rfl

theorem savedAs_ofJson (j : Json) : j.SavedAs (ofJson j).toJson := by
  by_cases hfits : j.Fits
  · rw [toJson_ofJson hfits]
    exact .same hfits
  · simp only [Json.Fits, not_forall] at hfits
    obtain ⟨n, rfl, hn⟩ := hfits
    rcases ofJson_int_cases n with ⟨hsmall, -⟩ | ⟨hlarge, x, hx, hfloat⟩
    · exact absurd hsmall hn
    · rw [hfloat]
      exact .rounded hlarge hx

end Value

/-! ## Objects -/

namespace Record

variable {members : List (String × Json)}

/-- The record of an object with distinct names. -/
theorem ofJson_object (h : (members.map Prod.fst).Nodup) :
    ofJson (.object members) =
      (⟨members, h⟩ : Entries Json).mapValues fun _ j => .raw (.ofJson j) :=
  Entries.ofList_eq (by simpa [Function.comp_def] using h)

theorem toJson_ofJson_members (h : (members.map Prod.fst).Nodup) :
    (ofJson (.object members)).toJson =
      .object (members.map fun m => (m.1, (Value.ofJson m.2).toJson)) := by
  rw [ofJson_object h, toJson]
  simp [Entries.mapValues, Field.toJson, Function.comp_def]

/-- **What an untouched record is saved as**: an object with the same names in the same order, each
member as it was loaded but for the integers beyond the signed range, which become the floats nearest
to them. So the object itself comes back exactly if no member is such an integer. -/
theorem toJson_ofJson_object (h : (members.map Prod.fst).Nodup) :
    ∃ saved, (ofJson (.object members)).toJson = .object saved ∧
      List.Forall₂ (fun m m' => m.1 = m'.1 ∧ m.2.SavedAs m'.2) members saved ∧
      ((ofJson (.object members)).toJson = .object members ↔ ∀ m ∈ members, m.2.Fits) := by
  refine ⟨_, toJson_ofJson_members h, ?_, ?_⟩
  · rw [List.forall₂_map_right_iff, List.forall₂_same]
    exact fun m _ => ⟨rfl, Value.savedAs_ofJson m.2⟩
  · have hsame : members.map (fun m => (m.1, (Value.ofJson m.2).toJson)) = members ↔
        ∀ m ∈ members, (m.1, (Value.ofJson m.2).toJson) = id m := by
      rw [← List.map_inj_left, List.map_id]
    rw [toJson_ofJson_members h, Json.object.injEq, hsame]
    refine forall₂_congr fun m _ => ?_
    rw [← (Value.savedAs_ofJson m.2).eq_iff, id_eq, Prod.ext_iff]
    exact and_iff_right rfl

/-- The ends of the signed range, a negative zero, and deeper down an unsigned word. -/
def reading : List (String × Json) :=
  [("First", .int (.ofInt64 Int64.minValue)),
    ("Last", .int (.ofInt64 Int64.maxValue)),
    ("Zero", .ofBinary64 (.zero true)),
    ("Meter", .object [("ID", .int ⟨0xFFFFFFFFFFFFFFFE, by decide, by decide⟩)])]

theorem reading_saved :
    (reading.map Prod.fst).Nodup ∧ (∀ m ∈ reading, m.2.Fits) ∧
      (ofJson (.object reading)).toJson = .object reading := by
  have hnames : (reading.map Prod.fst).Nodup := by decide
  have hfits : ∀ m ∈ reading, m.2.Fits := by
    intro m hm n hn
    simp only [reading, List.mem_cons, List.not_mem_nil, or_false] at hm
    rcases hm with rfl | rfl | rfl | rfl <;> cases hn <;> decide
  obtain ⟨-, -, -, hsame⟩ := toJson_ofJson_object hnames
  exact ⟨hnames, hfits, hsame.mpr hfits⟩

/-- The last unsigned word is saved as `2^64`, a float. -/
theorem toJson_changes_integer :
    let j : Json := .object [("ID", .int ⟨0xFFFFFFFFFFFFFFFF, by decide, by decide⟩)]
    (ofJson j).toJson = .object [("ID", .float ⟨false, 0x43F0000000000000, by decide⟩)] ∧
      (ofJson j).toJson.equal j = false := by
  intro j
  have hread : Binary64.ofInt 0xFFFFFFFFFFFFFFFF =
      .finite ⟨false, 0x43F0000000000000, by decide⟩ := by decide +kernel
  have hsaved : (ofJson j).toJson =
      .object [("ID", .float ⟨false, 0x43F0000000000000, by decide⟩)] := by
    change Json.object [("ID", .ofBinary64 (.ofInt 0xFFFFFFFFFFFFFFFF))] = _
    rw [hread]
    rfl
  refine ⟨hsaved, ?_⟩
  rw [hsaved]
  rfl

end Record

end EntityQuery

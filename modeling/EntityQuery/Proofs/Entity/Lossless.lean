import EntityQuery.Proofs.Box.Wire
import EntityQuery.Proofs.Entity.Boxing
import EntityQuery.Proofs.Record.Saving

/-!
# Saving what was loaded

A record that is loaded from JSON and boxed by a schema is saved as the JSON it came from, provided
that each field with a declared type holds what the type is for: `TypeDeclaration.Holds` says what
that is, and `Definition.WellTyped` says it of a whole object.

Proof. Boxing keeps the names and their order, so it is enough to look at each field. A field that no
box touches is saved as it was loaded. A box is saved as it was loaded by the laws of its family:
value and lookup boxes hold the loaded value itself, a truth value is saved in the form that the
type declares, a timestamp shows all that was read from it, and an integer up to `2^53` is a number
that is saved as an integer again.
-/

namespace EntityQuery

/-! ## Declared types -/

namespace TypeDeclaration

/-- The JSON values that a declared type keeps: null, and the form in which boxes of the type are
saved. Value and lookup types keep any value. -/
def Holds : TypeDeclaration → Json → Prop
  | ⟨.value, _, _⟩, _ => True
  | ⟨.bool, _, asInt⟩, j =>
    j = .null ∨ ∃ b : Bool,
      j = if asInt = some true then .int (.ofInt64 (if b then 1 else 0)) else .bool b
  | ⟨.date, _, _⟩, j => j = .null ∨ ∃ t : Instant, t.HasPlainYear ∧ j = .text t.isoText
  | ⟨.number, _, _⟩, j =>
    j = .null ∨ (∃ n, j = .int n ∧ n.val.natAbs ≤ 2 ^ 53) ∨
      ∃ x, j = .float x ∧ x.isInteger = false
  | ⟨.lookup, _, _⟩, _ => True

end TypeDeclaration

namespace Box

/-- A truth value that comes in the form that the settings ask for is sent in that form. -/
theorem toJson_ofSeed_bool {o : Options .bool} {v : Value} {b : Bool}
    (hv : v = if o.settings = some true then .int (if b then 1 else 0) else .bool b) :
    (ofSeed v o).toJson = v.toJson := by
  have hsettings : (ofSeed v o).settings.toJsonAsInt = o.settings.getD false := rfl
  have hvalue : (ofSeed v o).value = some b := by
    rw [value_ofSeed, hv]
    split
    · exact contentOfSeed_int _ b
    · rfl
  have hsent : (ofSeed v o).sent = v := by
    rw [sent_bool hvalue, hsettings, hv]
    cases o.settings with
    | none => rfl
    | some asInt => cases asInt <;> rfl
  rw [toJson, hsent]

/-- A timestamp shows all that is read from it. -/
theorem toJson_ofSeed_date (o : Options .date) {t : Instant} (ht : t.HasPlainYear) :
    (ofSeed (.text t.isoText) o).toJson = .text t.isoText := by
  have hvalue : (ofSeed (.text t.isoText) o).value = some t.civil.cutToMillis := by
    rw [value_ofSeed, contentOfSeed_text, Instant.ofText?_isoText ht]
  have hshown : t.civil.cutToMillis.isoText = t.isoText := by
    rw [Instant.isoText, Instant.isoText, Instant.isoChars_cutToMillis, Instant.isoChars_civil]
  rw [toJson, sent_date hvalue, Value.toJson, hshown]

/-- A number is sent as the value that it came as. -/
theorem toJson_ofSeed_number (o : Options .number) (x : Binary64.Finite) :
    (ofSeed (.ofNumber (.finite x)) o).toJson = (Value.ofNumber (.finite x)).toJson := by
  have hvalue : (ofSeed (.ofNumber (.finite x)) o).value = some x.withoutNegativeZero :=
    contentOfSeed_ofNumber (blank o) x
  rw [toJson, sent_number hvalue, Value.ofNumber_withoutNegativeZero]

end Box

/-- Value and lookup boxes send what they hold. -/
theorem AnyBox.toJson_eq_raw {b : AnyBox} (h : b.family = .value ∨ b.family = .lookup) :
    b.toJson = b.raw.toJson := by
  obtain ⟨F, b⟩ := b
  rcases h with rfl | rfl <;> rfl

namespace TypeDeclaration

/-- The numbers that a number type holds. -/
theorem exists_ofNumber {j : Json}
    (h : (∃ n, j = .int n ∧ n.val.natAbs ≤ 2 ^ 53) ∨ ∃ x, j = .float x ∧ x.isInteger = false) :
    ∃ x, Value.ofJson j = .ofNumber (.finite x) := by
  rcases h with ⟨n, rfl, hn⟩ | ⟨x, rfl, hx⟩
  · obtain ⟨x, hx, -, -⟩ := Binary64.ofInt_eq_finite hn
    have hword : n.toInt64? = some (Int64.ofInt n.val) := if_pos (by omega)
    refine ⟨x, ?_⟩
    rw [← hx, Value.ofNumber_ofInt hn]
    simp only [Value.ofJson, hword]
  · exact ⟨x, (Value.ofNumber_of_fraction (by simp [hx])).symm⟩

/-- **A box of a declared type is saved as it was loaded.** -/
theorem toJson_box {t : TypeDeclaration} {j : Json} (hfits : j.Fits) (h : t.Holds j) (name : String)
    (text : Option String) :
    (((t.toOptions name).withText text).box (.raw (.ofJson j))).toJson = j := by
  have hbox : (((t.toOptions name).withText text).box (.raw (.ofJson j))).toJson =
      (Value.ofJson j).toJson := by
    by_cases hloose : t.family = .value ∨ t.family = .lookup
    · have hfamily : ((t.toOptions name).withText text).family = .value ∨
          ((t.toOptions name).withText text).family = .lookup := by
        rwa [AnyOptions.family_withText]
      rw [AnyBox.toJson_eq_raw (by exact hfamily), AnyOptions.raw_box hfamily]
      rfl
    · obtain ⟨F, kind, settings⟩ := t
      rw [AnyOptions.withText_of_ne_lookup fun hlookup => hloose (Or.inr hlookup)]
      cases F with
      | value => exact absurd (Or.inl rfl) hloose
      | bool =>
        rcases h with rfl | ⟨b, rfl⟩
        · rfl
        · refine Box.toJson_ofSeed_bool (b := b) ?_
          cases settings with
          | none => rfl
          | some asInt =>
            cases asInt with
            | false => rfl
            | true => exact Value.ofJson_toJson_int _
      | date =>
        rcases h with rfl | ⟨t, ht, rfl⟩
        · rfl
        · exact Box.toJson_ofSeed_date _ ht
      | number =>
        rcases h with rfl | h
        · rfl
        · obtain ⟨x, hx⟩ := exists_ofNumber h
          rw [hx]
          exact Box.toJson_ofSeed_number _ x
      | lookup => exact absurd (Or.inr rfl) hloose
  rw [hbox, Value.toJson_ofJson hfits]

end TypeDeclaration

/-! ## Whole objects -/

namespace Definition

/-- The members of a JSON object that a definition describes: names are distinct, as they are in any
object, integers fit the signed range, and the fields of declared types hold what the types are
for. -/
structure WellTyped (d : Definition) (members : List (String × Json)) : Prop where
  names : (members.map Prod.fst).Nodup
  fits : ∀ m ∈ members, m.2.Fits
  holds : ∀ m ∈ members, ∀ p ∈ d.properties, p.key = m.1 → ∀ name t, p.kind = some name →
    d.types.get? name = some t → t.Holds m.2

/-- **Loading, boxing and saving is lossless**: a JSON object that a definition describes comes back
from the boxed record, with its members in order and each of them the value that it was. -/
theorem boxFields_lossless {d : Definition} {s : Schema} (h : d.toSchema = .ok s)
    {members : List (String × Json)} (hm : d.WellTyped members) :
    (s.boxFields (.ofJson (.object members))).toJson = .object members := by
  obtain ⟨hd, rfl⟩ := toSchema_eq_ok.mp h
  let loaded : Entries Json := ⟨members, hm.names⟩
  let record : Record := loaded.mapValues fun _ j => .raw (.ofJson j)
  have hsave : (d.schema.boxFields record).mapValues (fun _ f => f.toJson) = loaded := by
    refine Entries.ext_get? ?_ fun key => ?_
    · rw [Entries.names_mapValues, Schema.names_boxFields, Entries.names_mapValues]
    · rw [Entries.get?_mapValues]
      rcases d.schema.untouched_or_typed record key with h | ⟨p, hp, o, f, rfl, ho, hf⟩
      · rw [Schema.get?_boxFields_of_untouched (s := d.schema) hd.keys h, Entries.get?_mapValues]
        cases hj : loaded.get? key with
        | none => rfl
        | some j =>
          have hfits : j.Fits := hm.fits _ (mem_of_lookup_eq_some hj)
          exact congrArg some (Value.toJson_ofJson hfits)
      · obtain ⟨name, t, hkind, ht, rfl⟩ := typeFor?_schema.mp ho
        rw [Entries.get?_mapValues, Option.map_eq_some_iff] at hf
        obtain ⟨j, hj, rfl⟩ := hf
        have hmem : (p.key, j) ∈ members := mem_of_lookup_eq_some hj
        have hholds : t.Holds j := hm.holds _ hmem p hp rfl name t hkind ht
        have hraw : record.get? p.key = some (.raw (.ofJson j)) := by
          rw [Entries.get?_mapValues, hj]
          rfl
        rw [Schema.get?_boxFields_of_typed (s := d.schema) hd.keys hp ho hraw, hj, Option.map_some]
        exact congrArg some (TypeDeclaration.toJson_box (hm.fits _ hmem) hholds name _)
  rw [Record.ofJson_object hm.names]
  exact congrArg (fun es : Entries Json => Json.object es.toList) hsave

/-- A definition with a type of each family that is saved in a form of its own. -/
def invoices : Definition where
  endpoint := "Invoices"
  properties :=
    [⟨"PAID", some "flag", none, none, none⟩, ⟨"DUE", some "day", none, none, none⟩,
      ⟨"TOTAL", some "money", none, none, none⟩]
  types := Entries.ofList
    [("flag", ⟨.bool, none, some true⟩), ("day", ⟨.date, none, none⟩),
      ("money", ⟨.number, some "euro", ⟨none, some 2, none⟩⟩)]

/-- The last millisecond of a leap second. -/
def lastMoment : Instant :=
  ⟨1483228799, 1999000000, by decide, by decide, by decide⟩

/-- An invoice as the service sends it. -/
def invoice : List (String × Json) :=
  [("NOTE", .array [.null, .text "x"]), ("TOTAL", .int (.ofInt64 (-9007199254740992))),
    ("DUE", .text lastMoment.isoText), ("PAID", .int (.ofInt64 (if true then 1 else 0)))]

theorem wellTyped_invoice : invoices.WellTyped invoice where
  names := by decide
  fits := by
    intro m hm n hn
    simp only [invoice, List.mem_cons, List.not_mem_nil, or_false] at hm
    rcases hm with rfl | rfl | rfl | rfl <;> cases hn <;> decide
  holds := by
    intro m hm p hp hkey name t hkind ht
    simp only [invoice, List.mem_cons, List.not_mem_nil, or_false] at hm
    simp only [invoices, List.mem_cons, List.not_mem_nil, or_false] at hp
    rcases hm with rfl | rfl | rfl | rfl <;> rcases hp with rfl | rfl | rfl <;>
      first
      | exact absurd hkey (by decide)
      | obtain rfl := Option.some.inj hkind
        obtain rfl := Option.some.inj ht
    · exact Or.inr (Or.inl ⟨_, rfl, by decide⟩)
    · exact Or.inr ⟨lastMoment, by decide, rfl⟩
    · exact Or.inr ⟨true, rfl⟩

/-- The largest integer stays an integer, the leap second stays one, and 1 is saved for true. -/
theorem invoice_lossless :
    invoices.toSchema = .ok invoices.schema ∧ invoices.WellTyped invoice ∧
      (invoices.schema.boxFields (.ofJson (.object invoice))).toJson = .object invoice := by
  have h : invoices.toSchema = .ok invoices.schema := rfl
  exact ⟨h, wellTyped_invoice, boxFields_lossless h wellTyped_invoice⟩

end Definition

end EntityQuery

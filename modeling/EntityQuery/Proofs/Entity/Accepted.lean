import EntityQuery.Entity.Definition
import EntityQuery.Proofs.Record.Boxing
import EntityQuery.Proofs.Record.Entries

/-!
# Definitions that have a schema

A definition has a schema when its property keys are distinct and every type that a property names
is declared. The registered types of the schema set the kind of their boxes and keep the text of
lookup boxes and all converters.
-/

namespace EntityQuery

namespace Definition

/-- The definitions that can be used. -/
structure Consistent (d : Definition) : Prop where
  keys : (d.properties.map Property.key).Nodup
  types : ∀ p ∈ d.properties, ∀ kind, p.kind = some kind → d.types.contains kind = true

/-- The schema of a definition, consistent or not. -/
def schema (d : Definition) : Schema :=
  ⟨d.endpoint, d.properties, d.types.mapValues TypeDeclaration.toOptions⟩

theorem checkProperties_eq_ok {types : Entries TypeDeclaration} {seen : List String}
    {ps : List Property} :
    checkProperties types seen ps = .ok () ↔
      (∀ p ∈ ps, p.key ∉ seen) ∧ (ps.map Property.key).Nodup ∧
        ∀ p ∈ ps, ∀ kind, p.kind = some kind → types.contains kind = true := by
  induction ps generalizing seen with
  | nil => simp [checkProperties]
  | cons p ps ih =>
    have hfresh : (∀ q ∈ ps, q.key ∉ p.key :: seen) ↔
        p.key ∉ ps.map Property.key ∧ ∀ q ∈ ps, q.key ∉ seen := by
      simp only [List.mem_cons, not_or, List.mem_map, not_exists, not_and]
      exact ⟨fun h => ⟨fun q hq hkey => (h q hq).1 hkey, fun q hq => (h q hq).2⟩,
        fun h q hq => ⟨fun hkey => h.1 q hq hkey, h.2 q hq⟩⟩
    rw [checkProperties, List.forall_mem_cons, List.map_cons, List.nodup_cons,
      List.forall_mem_cons]
    by_cases hseen : p.key ∈ seen
    · simp [hseen]
    · rw [if_neg hseen]
      cases hkind : p.kind with
      | none =>
        simp only [ih, hfresh]
        simp [hseen, and_assoc, and_left_comm]
      | some kind =>
        by_cases htype : types.contains kind = true
        · simp only [htype, if_true, ih, hfresh]
          simp [hseen, htype, and_assoc, and_left_comm]
        · simp [htype]

theorem checkProperties_eq_ok_iff_consistent {d : Definition} :
    checkProperties d.types [] d.properties = .ok () ↔ d.Consistent := by
  rw [checkProperties_eq_ok]
  exact ⟨fun h => ⟨h.2.1, h.2.2⟩, fun h => ⟨by simp, h.keys, h.types⟩⟩

theorem toSchema_eq_ok {d : Definition} {s : Schema} :
    d.toSchema = .ok s ↔ d.Consistent ∧ s = d.schema := by
  rw [toSchema, ← checkProperties_eq_ok_iff_consistent]
  cases checkProperties d.types [] d.properties with
  | error e => simp [bind, Except.bind]
  | ok u => simp [bind, Except.bind, pure, Except.pure, schema, eq_comm]

/-- Consistency does not depend on the order of the properties. -/
theorem Consistent.perm {d : Definition} (h : d.Consistent) {ps : List Property}
    (hps : ps.Perm d.properties) : Consistent { d with properties := ps } where
  keys := (hps.map Property.key).nodup_iff.mpr h.keys
  types := fun p hp => h.types p (hps.mem_iff.mp hp)

theorem typeFor?_schema {d : Definition} {p : Property} {o : AnyOptions} :
    d.schema.typeFor? p = some o ↔
      ∃ name t, p.kind = some name ∧ d.types.get? name = some t ∧ t.toOptions name = o := by
  cases hkind : p.kind with
  | none => simp [Schema.typeFor?, hkind]
  | some name => simp [Schema.typeFor?, hkind, schema, Entries.get?_mapValues]

/-- No definition can set the text of lookup boxes. -/
theorem keepsText_of_typeFor? {d : Definition} {p : Property} {o : AnyOptions}
    (h : d.schema.typeFor? p = some o) : o.KeepsText := by
  obtain ⟨name, t, -, -, rfl⟩ := typeFor?_schema.mp h
  obtain ⟨F, kind, settings⟩ := t
  cases F <;> trivial

end Definition

end EntityQuery

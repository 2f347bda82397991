import EntityQuery.Proofs.Entity.Boxing
import Mathlib.Data.List.Nodup
import Mathlib.Data.List.TakeDrop
import Mathlib.Order.Nat

/-!
# The check of a definition

A definition has a schema exactly if it is consistent. If it is not, some property is the first that
repeats a key or names an unknown type, and the error is about this one; a repeated key is reported
rather than an unknown type (`toSchema_spec`).

One step of the check looks at one property and the keys in front of it (`checkProperties_cons`), so
that the check of a list is the check of its front and then of the rest (`checkProperties_append`).
What stands in front of the first fault are the properties of a consistent definition
(`consistent_iff`), and the check gets past them.
-/

namespace EntityQuery

namespace Definition

/-! ## Faults -/

/-- The property at an index has the key of an earlier one. -/
def Repeats (d : Definition) (i : Nat) : Prop :=
  ∃ p ∈ d.properties[i]?, ∃ j < i, ∃ q ∈ d.properties[j]?, q.key = p.key

/-- The property at an index names a type that is not declared. -/
def NamesUnknown (d : Definition) (i : Nat) : Prop :=
  ∃ p ∈ d.properties[i]?, ∃ kind ∈ p.kind, kind ∉ d.types.names

/-- The least index with a fault. -/
structure FirstFault (d : Definition) (i : Nat) : Prop where
  fault : d.Repeats i ∨ d.NamesUnknown i
  least : ∀ j < i, ¬d.Repeats j ∧ ¬d.NamesUnknown j

section Faults

variable {d : Definition} {i : Nat} {p : Property}

instance : Decidable (d.Repeats i) :=
  inferInstanceAs (Decidable (∃ p ∈ d.properties[i]?, ∃ j < i, ∃ q ∈ d.properties[j]?, q.key = p.key))

instance : Decidable (d.NamesUnknown i) :=
  inferInstanceAs (Decidable (∃ p ∈ d.properties[i]?, ∃ kind ∈ p.kind, kind ∉ d.types.names))

instance : Decidable (d.FirstFault i) :=
  decidable_of_iff ((d.Repeats i ∨ d.NamesUnknown i) ∧ ∀ j < i, ¬d.Repeats j ∧ ¬d.NamesUnknown j)
    ⟨fun h => ⟨h.1, h.2⟩, fun h => ⟨h.fault, h.least⟩⟩

theorem repeats_iff (hp : d.properties[i]? = some p) :
    d.Repeats i ↔ p.key ∈ (d.properties.take i).map Property.key := by
  constructor
  · rintro ⟨p', hp', j, hj, q, hq, hkey⟩
    obtain rfl := Option.mem_unique hp' hp
    refine List.mem_map.mpr ⟨q, List.mem_of_getElem? (i := j) ?_, hkey⟩
    rwa [List.getElem?_take_of_lt hj]
  · intro hmem
    obtain ⟨q, hq, hkey⟩ := List.mem_map.mp hmem
    obtain ⟨j, hj⟩ := List.mem_iff_getElem?.mp hq
    rw [List.getElem?_take] at hj
    split at hj
    · rename_i hlt
      exact ⟨p, hp, j, hlt, q, hj, hkey⟩
    · cases hj

theorem namesUnknown_iff (hp : d.properties[i]? = some p) :
    d.NamesUnknown i ↔ ∃ kind, p.kind = some kind ∧ kind ∉ d.types.names := by
  constructor
  · rintro ⟨p', hp', kind, hkind, htype⟩
    obtain rfl := Option.mem_unique hp' hp
    exact ⟨kind, hkind, htype⟩
  · rintro ⟨kind, hkind, htype⟩
    exact ⟨p, hp, kind, hkind, htype⟩

/-- Keys are distinct if none repeats an earlier one. -/
theorem nodup_keys_iff : (d.properties.map Property.key).Nodup ↔ ∀ i, ¬d.Repeats i := by
  rw [List.nodup_iff_getElem?_ne_getElem?]
  constructor
  · rintro h i ⟨p, hp, j, hj, q, hq, hkey⟩
    obtain ⟨hi, -⟩ := List.getElem?_eq_some_iff.mp hp
    refine h j i hj (by rwa [List.length_map]) ?_
    rw [List.getElem?_map, List.getElem?_map, Option.mem_def.mp hp, Option.mem_def.mp hq]
    exact congrArg some hkey
  · intro h j i hj hi hkey
    rw [List.length_map] at hi
    rw [List.getElem?_map, List.getElem?_map, List.getElem?_eq_getElem hi,
      List.getElem?_eq_getElem (hj.trans hi)] at hkey
    exact h i ⟨_, List.getElem?_eq_getElem hi, j, hj, _, List.getElem?_eq_getElem (hj.trans hi),
      Option.some.inj hkey⟩

/-- A definition is consistent if no property has a fault. -/
theorem consistent_iff : d.Consistent ↔ ∀ i, ¬d.Repeats i ∧ ¬d.NamesUnknown i := by
  constructor
  · rintro ⟨hkeys, htypes⟩ i
    refine ⟨nodup_keys_iff.mp hkeys i, ?_⟩
    rintro ⟨p, hp, kind, hkind, htype⟩
    exact htype (Entries.contains_iff.mp (htypes p (List.mem_of_getElem? hp) kind hkind))
  · intro h
    refine ⟨nodup_keys_iff.mpr fun i => (h i).1, fun p hp kind hkind => ?_⟩
    obtain ⟨i, hi⟩ := List.mem_iff_getElem?.mp hp
    by_contra htype
    rw [Entries.contains_iff] at htype
    exact (h i).2 ⟨p, hi, kind, hkind, htype⟩

theorem exists_firstFault (h : ¬d.Consistent) : ∃ i, d.FirstFault i := by
  have hsome : ∃ i, d.Repeats i ∨ d.NamesUnknown i := by
    by_contra hnone
    refine h (consistent_iff.mpr fun i => ?_)
    rw [← not_or]
    exact fun hi => hnone ⟨i, hi⟩
  refine ⟨Nat.find hsome, Nat.find_spec hsome, fun j hj => ?_⟩
  rw [← not_or]
  exact Nat.find_min hsome hj

/-! ## The properties in front of a fault -/

/-- A definition cut down to its first properties. -/
def upTo (d : Definition) (i : Nat) : Definition :=
  { d with properties := d.properties.take i }

/-- The faults in front of an index do not depend on what comes behind. -/
theorem FirstFault.consistent_upTo (h : d.FirstFault i) : (d.upTo i).Consistent := by
  have hget : ∀ j p, p ∈ (d.upTo i).properties[j]? → j < i ∧ p ∈ d.properties[j]? := by
    intro j p hp
    change p ∈ (d.properties.take i)[j]? at hp
    rw [List.getElem?_take] at hp
    split at hp
    · rename_i hlt
      exact ⟨hlt, hp⟩
    · cases hp
  rw [consistent_iff]
  intro j
  constructor
  · rintro ⟨p, hp, k, hk, q, hq, hkey⟩
    obtain ⟨hj, hp⟩ := hget j p hp
    exact (h.least j hj).1 ⟨p, hp, k, hk, q, (hget k q hq).2, hkey⟩
  · rintro ⟨p, hp, kind, hkind, htype⟩
    obtain ⟨hj, hp⟩ := hget j p hp
    exact (h.least j hj).2 ⟨p, hp, kind, hkind, htype⟩

end Faults

/-! ## The steps of the check -/

/-- What is wrong with a property behind others with some keys. -/
def faultOf? (types : Entries TypeDeclaration) (seen : List String) (p : Property) :
    Option DefinitionError :=
  if p.key ∈ seen then some (.duplicateProperty p.key)
  else
    match p.kind with
    | some kind => if types.contains kind then none else some (.unknownType p.key kind)
    | none => none

section Steps

variable {types : Entries TypeDeclaration} {seen : List String} {p : Property}

theorem faultOf?_of_mem (h : p.key ∈ seen) :
    faultOf? types seen p = some (.duplicateProperty p.key) :=
  if_pos h

theorem faultOf?_of_notMem (h : p.key ∉ seen) {kind : String} (hkind : p.kind = some kind)
    (htype : kind ∉ types.names) : faultOf? types seen p = some (.unknownType p.key kind) := by
  have hcontains : ¬types.contains kind = true := mt Entries.contains_iff.mp htype
  rw [faultOf?, if_neg h, hkind]
  exact if_neg hcontains

/-- One step: the check stops at a property with a fault and goes on behind any other. -/
theorem checkProperties_cons (ps : List Property) :
    checkProperties types seen (p :: ps) =
      match faultOf? types seen p with
      | some e => .error e
      | none => checkProperties types (p.key :: seen) ps := by
  rw [checkProperties, faultOf?]
  by_cases hseen : p.key ∈ seen
  · rw [if_pos hseen, if_pos hseen]
  · rw [if_neg hseen, if_neg hseen]
    cases p.kind with
    | none => rfl
    | some kind =>
      by_cases htype : types.contains kind = true
      · simp only [htype, if_true]
      · simp only [htype, Bool.false_eq_true, if_false]

/-- A run: the check gets past properties without a fault and goes on with their keys. -/
theorem checkProperties_append {before : List Property}
    (h : checkProperties types seen before = .ok ()) (ps : List Property) :
    checkProperties types seen (before ++ ps) =
      checkProperties types ((before.map Property.key).reverse ++ seen) ps := by
  -- each step puts one more key in front of those that were seen
  induction before generalizing seen with
  | nil => rfl
  | cons q before ih =>
    rw [checkProperties_cons] at h
    rw [List.cons_append, checkProperties_cons]
    cases hq : faultOf? types seen q with
    | some e =>
      rw [hq] at h
      cases h
    | none =>
      rw [hq] at h
      dsimp only at h ⊢
      rw [ih h, List.map_cons, List.reverse_cons, List.append_assoc, List.singleton_append]

end Steps

section Run

variable {d : Definition} {i : Nat} {p : Property}

/-- The check stops at the first fault. -/
theorem FirstFault.toSchema_eq_error (h : d.FirstFault i) (hp : d.properties[i]? = some p)
    {e : DefinitionError}
    (he : faultOf? d.types ((d.properties.take i).map Property.key).reverse p = some e) :
    d.toSchema = .error e := by
  -- in front of the first fault stand the properties of a consistent definition
  have hfront : checkProperties d.types [] (d.properties.take i) = .ok () :=
    checkProperties_eq_ok_iff_consistent.mpr h.consistent_upTo
  obtain ⟨hi, rfl⟩ := List.getElem?_eq_some_iff.mp hp
  have hsplit : d.properties.take i ++ d.properties[i] :: d.properties.drop (i + 1) =
      d.properties := by
    rw [← List.drop_eq_getElem_cons hi, List.take_append_drop]
  have hcheck : checkProperties d.types [] d.properties = .error e := by
    rw [← hsplit, checkProperties_append hfront, List.append_nil, checkProperties_cons, he]
  rw [toSchema, hcheck]
  rfl

theorem FirstFault.toSchema_of_repeats (h : d.FirstFault i) (hp : d.properties[i]? = some p)
    (hrepeats : d.Repeats i) : d.toSchema = .error (.duplicateProperty p.key) := by
  refine h.toSchema_eq_error hp (faultOf?_of_mem ?_)
  rw [List.mem_reverse]
  exact (repeats_iff hp).mp hrepeats

theorem FirstFault.toSchema_of_not_repeats (h : d.FirstFault i) (hp : d.properties[i]? = some p)
    (hfresh : ¬d.Repeats i) :
    ∃ kind, p.kind = some kind ∧ d.toSchema = .error (.unknownType p.key kind) := by
  obtain ⟨kind, hkind, htype⟩ := (namesUnknown_iff hp).mp (h.fault.resolve_left hfresh)
  refine ⟨kind, hkind, h.toSchema_eq_error hp (faultOf?_of_notMem ?_ hkind htype)⟩
  rw [List.mem_reverse]
  exact mt (repeats_iff hp).mpr hfresh

end Run

/-! ## The schema -/

theorem typeOf?_schema_isSome {d : Definition} (hd : d.Consistent) {p : Property}
    (hp : p ∈ d.properties) : (d.schema.typeOf? p.key).isSome = true ↔ p.kind.isSome = true := by
  have hkeys : (d.schema.properties.map Property.key).Nodup := hd.keys
  rw [Schema.typeOf?_of_mem hkeys hp, Option.isSome_iff_exists, Option.isSome_iff_exists]
  constructor
  · rintro ⟨o, ho⟩
    obtain ⟨kind, t, hkind, -, -⟩ := typeFor?_schema.mp ho
    exact ⟨kind, hkind⟩
  · rintro ⟨kind, hkind⟩
    obtain ⟨t, ht⟩ := Entries.contains_eq_true_iff.mp (hd.types p hp kind hkind)
    exact ⟨t.toOptions kind, typeFor?_schema.mpr ⟨kind, t, hkind, ht, rfl⟩⟩

/-- **Which definitions have a schema**, which error the others give, and what the schema is. -/
theorem toSchema_spec (d : Definition) :
    ((∃ s, d.toSchema = .ok s) ↔
      (d.properties.map Property.key).Nodup ∧
        ∀ p ∈ d.properties, ∀ kind, p.kind = some kind → kind ∈ d.types.names) ∧
    ((∃ s, d.toSchema = .ok s) ∨ ∃ i, d.FirstFault i) ∧
    (∀ i p, d.FirstFault i → d.properties[i]? = some p →
      (d.Repeats i → d.toSchema = .error (.duplicateProperty p.key)) ∧
        (¬d.Repeats i →
          ∃ kind, p.kind = some kind ∧ d.toSchema = .error (.unknownType p.key kind))) ∧
    ∀ s, d.toSchema = .ok s →
      s.endpoint = d.endpoint ∧ s.properties = d.properties ∧ s.types.names = d.types.names ∧
        (∀ name, s.types.get? name = (d.types.get? name).map fun t => t.toOptions name) ∧
        ∀ p ∈ d.properties, s.property? p.key = some p ∧
          ((s.typeOf? p.key).isSome = true ↔ p.kind.isSome = true) := by
  have hok : (∃ s, d.toSchema = .ok s) ↔ d.Consistent := by
    constructor
    · rintro ⟨s, hs⟩
      exact (toSchema_eq_ok.mp hs).1
    · intro hd
      exact ⟨d.schema, toSchema_eq_ok.mpr ⟨hd, rfl⟩⟩
  refine ⟨?_, ?_, ?_, ?_⟩
  · rw [hok]
    constructor
    · rintro ⟨hkeys, htypes⟩
      exact ⟨hkeys, fun p hp kind hkind => Entries.contains_iff.mp (htypes p hp kind hkind)⟩
    · rintro ⟨hkeys, htypes⟩
      exact ⟨hkeys, fun p hp kind hkind => Entries.contains_iff.mpr (htypes p hp kind hkind)⟩
  · rw [hok, or_iff_not_imp_left]
    exact exists_firstFault
  · intro i p h hp
    exact ⟨h.toSchema_of_repeats hp, h.toSchema_of_not_repeats hp⟩
  · intro s hs
    obtain ⟨hd, rfl⟩ := toSchema_eq_ok.mp hs
    refine ⟨rfl, rfl, Entries.names_mapValues _ _, fun name => Entries.get?_mapValues _ _ name, ?_⟩
    intro p hp
    exact ⟨Schema.property?_of_mem (s := d.schema) hd.keys hp, typeOf?_schema_isSome hd hp⟩

/-- A definition whose third property has two faults, behind one with a declared type. -/
def repeatedPatient : Definition where
  endpoint := "Visits"
  properties :=
    [⟨"IDPATIENT", some "plain", none, none, none⟩, ⟨"NOTE", none, none, none, none⟩,
      ⟨"IDPATIENT", some "person", none, none, none⟩, ⟨"PAID", some "flag", none, none, none⟩]
  types := Entries.ofList [("plain", ⟨.value, none, ()⟩)]

/-- The error is about the third property, not the last, and names the key, not the type. -/
theorem repeatedPatient_error :
    repeatedPatient.FirstFault 2 ∧ repeatedPatient.Repeats 2 ∧
      repeatedPatient.toSchema = .error (.duplicateProperty "IDPATIENT") := by
  have hfirst : repeatedPatient.FirstFault 2 := by decide
  have hrepeats : repeatedPatient.Repeats 2 := by decide
  exact ⟨hfirst, hrepeats, ((toSchema_spec repeatedPatient).2.2.1 2 _ hfirst rfl).1 hrepeats⟩

end Definition

end EntityQuery

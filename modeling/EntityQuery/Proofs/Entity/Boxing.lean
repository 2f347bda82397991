import EntityQuery.Proofs.Entity.Accepted

/-!
# Boxing the fields of a record

What a schema with distinct keys makes of a record, field by field. Properties are boxed one after
the other in the same record, so a lookup property reads its text from a record of which some fields
are boxes already. Two things are left of that: the property's own field is as it was, since its key
does not occur before, and a navigation property that was boxed before gives no text
(`lookupText?_foldl`). So each field of the result depends on the record as it came and on which
side of the property its navigation property stands (`get?_boxFields_of_typed`).

From this form: the names stay and every field without a registered type stays (`boxFields_frame`),
and boxing twice is boxing once (`boxFields_twice`), since the second pass copies each box and finds
the text of the first pass or none.
-/

namespace EntityQuery

namespace Schema

variable {s : Schema} {r : Record} {p : Property} {o : AnyOptions} {f : Field}

/-! ## One property -/

theorem boxProperty_of_missing (hf : r.get? p.key = none) : s.boxProperty r p = r := by
  have hcontains : r.contains p.key = false := by rw [Entries.contains, hf]; rfl
  rw [boxProperty, hcontains]
  rfl

theorem boxProperty_of_untyped (ho : s.typeFor? p = none) : s.boxProperty r p = r := by
  rw [boxProperty, ho]
  split <;> rfl

theorem boxProperty_of_typed (ho : s.typeFor? p = some o) (hf : r.get? p.key = some f) :
    s.boxProperty r p =
      r.insert p.key (.boxed ((o.withText (p.lookupText? r)).box f)) := by
  have hcontains : r.contains p.key = true := Entries.contains_eq_true_iff.mpr ⟨f, hf⟩
  rw [boxProperty, if_pos hcontains, ho]
  simp only [Record.replace, Record.boxFor_eq hf]

/-- A property changes at most its own field, which becomes a box. -/
theorem boxProperty_cases (s : Schema) (r : Record) (p : Property) :
    s.boxProperty r p = r ∨
      ∃ b, r.contains p.key = true ∧ s.boxProperty r p = r.insert p.key (.boxed b) := by
  cases hf : r.get? p.key with
  | none => exact Or.inl (boxProperty_of_missing hf)
  | some f =>
    cases ho : s.typeFor? p with
    | none => exact Or.inl (boxProperty_of_untyped ho)
    | some o =>
      exact Or.inr ⟨_, Entries.contains_eq_true_iff.mpr ⟨f, hf⟩, boxProperty_of_typed ho hf⟩

theorem names_boxProperty (s : Schema) (r : Record) (p : Property) :
    (s.boxProperty r p).names = r.names := by
  rcases boxProperty_cases s r p with h | ⟨b, hcontains, h⟩
  · rw [h]
  · rw [h, Entries.names_insert hcontains]

theorem get?_boxProperty_of_ne {key : String} (h : key ≠ p.key) :
    (s.boxProperty r p).get? key = r.get? key := by
  rcases boxProperty_cases s r p with hbox | ⟨b, -, hbox⟩
  · rw [hbox]
  · rw [hbox, Entries.get?_insert, if_neg h]

/-! ## A run of properties -/

theorem names_foldl (s : Schema) (ps : List Property) (r : Record) :
    (ps.foldl s.boxProperty r).names = r.names := by
  induction ps generalizing r with
  | nil => rfl
  | cons p ps ih => rw [List.foldl_cons, ih, names_boxProperty]

theorem get?_foldl_of_untyped {key : String} {ps : List Property}
    (h : ∀ q ∈ ps, q.key = key → s.typeFor? q = none) (r : Record) :
    (ps.foldl s.boxProperty r).get? key = r.get? key := by
  induction ps generalizing r with
  | nil => rfl
  | cons p ps ih =>
    rw [List.foldl_cons, ih fun q hq => h q (by simp [hq])]
    by_cases hkey : p.key = key
    · rw [boxProperty_of_untyped (h p (by simp) hkey)]
    · exact get?_boxProperty_of_ne (Ne.symm hkey)

theorem get?_foldl_of_notMem {key : String} {ps : List Property}
    (h : key ∉ ps.map Property.key) (r : Record) :
    (ps.foldl s.boxProperty r).get? key = r.get? key :=
  get?_foldl_of_untyped (fun _ hq hkey => absurd (hkey ▸ List.mem_map_of_mem hq) h) r

/-- The field of a property is made when its turn comes, of the field as it came. -/
theorem get?_foldl_of_typed {before after : List Property}
    (hbefore : p.key ∉ before.map Property.key) (hafter : p.key ∉ after.map Property.key)
    (ho : s.typeFor? p = some o) (hf : r.get? p.key = some f) :
    ((before ++ p :: after).foldl s.boxProperty r).get? p.key =
      some (.boxed ((o.withText (p.lookupText? (before.foldl s.boxProperty r))).box f)) := by
  have hturn : (before.foldl s.boxProperty r).get? p.key = some f := by
    rw [get?_foldl_of_notMem hbefore, hf]
  rw [List.foldl_append, List.foldl_cons, get?_foldl_of_notMem hafter,
    boxProperty_of_typed ho hturn, Entries.get?_insert, if_pos rfl]

theorem split_of_mem {ps : List Property} (hkeys : (ps.map Property.key).Nodup) (hp : p ∈ ps) :
    ∃ before after, ps = before ++ p :: after ∧ p.key ∉ before.map Property.key ∧
      p.key ∉ after.map Property.key := by
  obtain ⟨before, after, rfl⟩ := List.append_of_mem hp
  rw [List.map_append, List.map_cons, List.nodup_append] at hkeys
  obtain ⟨-, hcons, hdisjoint⟩ := hkeys
  exact ⟨before, after, rfl, fun h => hdisjoint p.key h p.key (by simp) rfl,
    (List.nodup_cons.mp hcons).1⟩

/-- No field of a registered type stays loose. -/
theorem get?_foldl_ne_raw {ps : List Property} (hkeys : (ps.map Property.key).Nodup) (hp : p ∈ ps)
    (ho : s.typeFor? p = some o) (r : Record) (v : Value) :
    (ps.foldl s.boxProperty r).get? p.key ≠ some (.raw v) := by
  obtain ⟨before, after, hsplit, hbefore, hafter⟩ := split_of_mem hkeys hp
  cases hf : r.get? p.key with
  | none =>
    have hnone : (ps.foldl s.boxProperty r).get? p.key = none := by
      rw [Entries.get?_eq_none_iff, names_foldl, ← Entries.get?_eq_none_iff, hf]
    rw [hnone]
    simp
  | some f =>
    rw [hsplit, get?_foldl_of_typed hbefore hafter ho hf]
    simp

/-! ## The text at a property's turn -/

/-- Whether the navigation property of `p` is among some properties and has a registered type. -/
def hides (s : Schema) (ps : List Property) (p : Property) : Bool :=
  ps.any fun q => (s.typeFor? q).isSome && p.expand == some q.key

theorem hides_eq_true {ps : List Property} : s.hides ps p = true ↔
    ∃ q ∈ ps, (∃ o, s.typeFor? q = some o) ∧ p.expand = some q.key := by
  simp [hides, Option.isSome_iff_exists]

theorem typeFor?_of_hides_eq_false {ps : List Property} (h : s.hides ps p = false) {nav : String}
    (hnav : p.expand = some nav) : ∀ q ∈ ps, q.key = nav → s.typeFor? q = none := by
  intro q hq hkey
  cases ho : s.typeFor? q with
  | none => rfl
  | some o =>
    have htrue : s.hides ps p = true := hides_eq_true.mpr ⟨q, hq, ⟨o, ho⟩, hkey ▸ hnav⟩
    rw [h] at htrue
    cases htrue

/-- Behind other properties a property finds the text that it finds in the record as it came, or
none if its navigation property is one of them. -/
theorem lookupText?_foldl {ps : List Property} (hkeys : (ps.map Property.key).Nodup)
    (hp : p.key ∉ ps.map Property.key) (r : Record) :
    p.lookupText? (ps.foldl s.boxProperty r) =
      if s.hides ps p = true then none else p.lookupText? r := by
  by_cases hhides : s.hides ps p = true
  · rw [if_pos hhides]
    obtain ⟨q, hq, ⟨o, ho⟩, hexpand⟩ := hides_eq_true.mp hhides
    exact Property.lookupText?_eq_none hexpand (get?_foldl_ne_raw hkeys hq ho r)
  · rw [if_neg hhides]
    have huntyped := @typeFor?_of_hides_eq_false s p ps (by simpa using hhides)
    refine Property.lookupText?_congr ?_ fun nav hnav => ?_
    · rw [get?_foldl_of_notMem hp]
    · exact get?_foldl_of_untyped (huntyped hnav) r

/-- The properties in front of a property. -/
def before (s : Schema) (p : Property) : List Property :=
  s.properties.takeWhile fun q => q.key != p.key

/-- Whether the navigation property of a property is boxed before it. -/
def navFirst (s : Schema) (p : Property) : Bool :=
  s.hides (s.before p) p

/-- The text that a property finds when its turn comes. -/
def textInTurn? (s : Schema) (r : Record) (p : Property) : Option String :=
  if s.navFirst p = true then none else p.lookupText? r

theorem before_eq {before after : List Property} (h : s.properties = before ++ p :: after)
    (hp : p.key ∉ before.map Property.key) : s.before p = before := by
  have hall : ∀ q ∈ before, (q.key != p.key) = true := fun q hq =>
    bne_iff_ne.mpr fun hkey => hp (hkey ▸ List.mem_map_of_mem hq)
  rw [Schema.before, h, List.takeWhile_append_of_pos hall, List.takeWhile_cons_of_neg (by simp),
    List.append_nil]

/-! ## All properties -/

theorem names_boxFields (s : Schema) (r : Record) : (s.boxFields r).names = r.names :=
  names_foldl s s.properties r

theorem get?_boxFields_eq_none {key : String} :
    (s.boxFields r).get? key = none ↔ r.get? key = none := by
  rw [Entries.get?_eq_none_iff, names_boxFields, Entries.get?_eq_none_iff]

theorem typeOf?_eq_some {key : String} (h : s.typeOf? key = some o) :
    ∃ p ∈ s.properties, p.key = key ∧ s.property? key = some p ∧ s.typeFor? p = some o := by
  obtain ⟨p, hp, ho⟩ := Option.bind_eq_some_iff.mp h
  exact ⟨p, List.mem_of_find?_eq_some hp, by simpa using List.find?_some hp, hp, ho⟩

/-- A name has no field to box, or it is that of a property with a registered type. -/
theorem untouched_or_typed (s : Schema) (r : Record) (key : String) :
    (s.typeOf? key = none ∨ r.get? key = none) ∨
      ∃ p ∈ s.properties, ∃ o f, p.key = key ∧ s.typeFor? p = some o ∧
        r.get? p.key = some f := by
  cases hkey : s.typeOf? key with
  | none => exact Or.inl (Or.inl rfl)
  | some o =>
    obtain ⟨p, hp, rfl, -, ho⟩ := typeOf?_eq_some hkey
    cases hf : r.get? p.key with
    | none => exact Or.inl (Or.inr rfl)
    | some f => exact Or.inr ⟨p, hp, o, f, rfl, ho, hf⟩

section Distinct

variable (hkeys : (s.properties.map Property.key).Nodup)
include hkeys

theorem property?_of_mem (hp : p ∈ s.properties) : s.property? p.key = some p := by
  obtain ⟨before, after, hsplit, hbefore, -⟩ := split_of_mem hkeys hp
  have hnone : before.find? (fun q => q.key == p.key) = none :=
    List.find?_eq_none.mpr fun q hq hkey =>
      hbefore (beq_iff_eq.mp hkey ▸ List.mem_map_of_mem hq)
  rw [property?, hsplit, List.find?_append, hnone]
  simp

theorem typeOf?_of_mem (hp : p ∈ s.properties) : s.typeOf? p.key = s.typeFor? p := by
  rw [typeOf?, property?_of_mem hkeys hp]
  rfl

theorem get?_boxFields_of_untyped {key : String} (h : s.typeOf? key = none) (r : Record) :
    (s.boxFields r).get? key = r.get? key := by
  refine get?_foldl_of_untyped (fun q hq hkey => ?_) r
  rw [← typeOf?_of_mem hkeys hq, hkey, h]

theorem get?_boxFields_of_untouched {key : String}
    (h : s.typeOf? key = none ∨ r.get? key = none) : (s.boxFields r).get? key = r.get? key := by
  rcases h with h | h
  · exact get?_boxFields_of_untyped hkeys h r
  · rw [h, get?_boxFields_eq_none, h]

/-- **The field of a property with a registered type** is the box that the type makes of the field
as it came, with the text that the property finds when its turn comes. -/
theorem get?_boxFields_of_typed (hp : p ∈ s.properties) (ho : s.typeFor? p = some o)
    (hf : r.get? p.key = some f) :
    (s.boxFields r).get? p.key = some (.boxed ((o.withText (s.textInTurn? r p)).box f)) := by
  obtain ⟨before, after, hsplit, hbefore, hafter⟩ := split_of_mem hkeys hp
  have hnodup : (before.map Property.key).Nodup := by
    rw [hsplit, List.map_append] at hkeys
    exact (List.nodup_append.mp hkeys).1
  rw [boxFields, hsplit, get?_foldl_of_typed hbefore hafter ho hf, lookupText?_foldl hnodup hbefore,
    textInTurn?, navFirst, before_eq hsplit hbefore]

/-- What a lookup property finds in the boxed record it finds in the record as it came, unless it
finds nothing: its own field keeps its value, and the field of its navigation property is untouched
or a box. -/
theorem lookupText?_boxFields (hp : p ∈ s.properties) (ho : s.typeFor? p = some o)
    (hfamily : o.family = .lookup) (r : Record) :
    p.lookupText? (s.boxFields r) = p.lookupText? r ∨ p.lookupText? (s.boxFields r) = none := by
  by_cases hhides : s.hides s.properties p = true
  · obtain ⟨q, hq, ⟨o', ho'⟩, hexpand⟩ := hides_eq_true.mp hhides
    exact Or.inr (Property.lookupText?_eq_none hexpand (get?_foldl_ne_raw hkeys hq ho' r))
  · have huntyped := @typeFor?_of_hides_eq_false s p s.properties (by simpa using hhides)
    refine Or.inl (Property.lookupText?_congr ?_ fun nav hnav => ?_)
    · cases hf : r.get? p.key with
      | none => rw [get?_boxFields_eq_none.mpr hf]
      | some f =>
        have hraw := AnyOptions.raw_box (o := o.withText (s.textInTurn? r p))
          (Or.inr (by rw [AnyOptions.family_withText, hfamily])) f
        rw [get?_boxFields_of_typed hkeys hp ho hf]
        exact congrArg some hraw
    · exact get?_foldl_of_untyped (huntyped hnav) r

theorem textInTurn?_boxFields (hp : p ∈ s.properties) (ho : s.typeFor? p = some o)
    (hfamily : o.family = .lookup) (r : Record) :
    s.textInTurn? (s.boxFields r) p = s.textInTurn? r p ∨
      s.textInTurn? (s.boxFields r) p = none := by
  unfold textInTurn?
  by_cases hfirst : s.navFirst p = true
  · exact Or.inr (if_pos hfirst)
  · rw [if_neg hfirst, if_neg hfirst]
    exact lookupText?_boxFields hkeys hp ho hfamily r

end Distinct

end Schema

/-! ## Schemas of definitions -/

namespace Definition

/-- A definition with a lookup property whose navigation property is boxed as well. -/
def visits : Definition where
  endpoint := "Visits"
  properties :=
    [⟨"IDDOCTOR", some "doctor", some "Doctor", some "Name", none⟩,
      ⟨"Doctor", some "plain", none, none, none⟩,
      ⟨"PAID", some "flag", none, none, none⟩,
      ⟨"NOTE", none, none, none, none⟩]
  types := Entries.ofList
    [("doctor", ⟨.lookup, some "person", ()⟩), ("plain", ⟨.value, none, ()⟩),
      ("flag", ⟨.bool, none, some true⟩)]

/-- A visit as the service sends it. -/
def visit : Json :=
  .object
    [("IDDOCTOR", .int (.ofInt64 3)), ("Doctor", .object [("Name", .text "Dr. Grey")]),
      ("PAID", .int (.ofInt64 1)), ("NOTE", .null)]

/-- **What boxing a record touches**: names and their order stay, and so does every field without a
registered type. A field with one becomes a box of its family, tagged with the kind that the type
declares or else with its name, and value and lookup boxes hold what the field held. -/
theorem boxFields_frame {d : Definition} {s : Schema} (h : d.toSchema = .ok s) (r : Record) :
    (s.boxFields r).names = r.names ∧
      (∀ key, s.typeOf? key = none → (s.boxFields r).get? key = r.get? key) ∧
      ∀ key o f, s.typeOf? key = some o → r.get? key = some f →
        ∃ b : AnyBox, (s.boxFields r).get? key = some (.boxed b) ∧ b.family = o.family ∧
          (∃ p name t, s.property? key = some p ∧ p.kind = some name ∧
            d.types.get? name = some t ∧ t.toOptions name = o ∧
            b.kind = some (t.kind.getD name)) ∧
          (o.family = .value ∨ o.family = .lookup → b.raw = f.toValue) := by
  obtain ⟨hd, rfl⟩ := toSchema_eq_ok.mp h
  refine ⟨Schema.names_boxFields _ r, ?_, ?_⟩
  · intro key hkey
    exact Schema.get?_boxFields_of_untyped hd.keys hkey r
  · intro key o f hkey hf
    obtain ⟨p, hp, rfl, hproperty, ho⟩ := Schema.typeOf?_eq_some hkey
    obtain ⟨name, t, hkind, ht, hoptions⟩ := typeFor?_schema.mp ho
    have htag : o.options.kind = .set (t.kind.getD name) := by rw [← hoptions]; rfl
    refine ⟨_, Schema.get?_boxFields_of_typed hd.keys hp ho hf, ?_, ?_, ?_⟩
    · exact AnyOptions.family_withText o _
    · refine ⟨p, name, t, hproperty, hkind, ht, hoptions, ?_⟩
      exact AnyOptions.kind_box (by rw [AnyOptions.kind_withText, htag]) f
    · intro hfamily
      exact AnyOptions.raw_box (by rwa [AnyOptions.family_withText]) f

/-- The doctor of a visit becomes a lookup box with the declared kind and the same key. -/
theorem doctor_of_visit :
    visits.toSchema = .ok visits.schema ∧
      ∃ b : AnyBox, (visits.schema.boxFields (.ofJson visit)).get? "IDDOCTOR" = some (.boxed b) ∧
        b.family = .lookup ∧ b.kind = some "person" ∧ b.raw = .int 3 := by
  have h : visits.toSchema = .ok visits.schema := rfl
  obtain ⟨-, -, hfields⟩ := boxFields_frame h (.ofJson visit)
  obtain ⟨b, hget, hfamily, ⟨p, name, t, hp, hkind, ht, -, htag⟩, hraw⟩ :=
    hfields "IDDOCTOR" _ _ rfl rfl
  obtain rfl := Option.some.inj hp
  obtain rfl := Option.some.inj hkind
  obtain rfl := Option.some.inj ht
  exact ⟨h, b, hget, hfamily, htag, hraw (Or.inr rfl)⟩

/-- **Boxing twice is boxing once.** -/
theorem boxFields_twice {d : Definition} {s : Schema} (h : d.toSchema = .ok s) (r : Record) :
    s.boxFields (s.boxFields r) = s.boxFields r := by
  obtain ⟨hd, rfl⟩ := toSchema_eq_ok.mp h
  refine Entries.ext_get? (Schema.names_boxFields _ _) fun key => ?_
  rcases d.schema.untouched_or_typed r key with h | ⟨p, hp, o, f, rfl, ho, hf⟩
  · refine Schema.get?_boxFields_of_untouched (s := d.schema) hd.keys ?_
    rwa [Schema.get?_boxFields_eq_none]
  · have honce := Schema.get?_boxFields_of_typed hd.keys hp ho hf
    rw [Schema.get?_boxFields_of_typed hd.keys hp ho honce, honce,
      AnyOptions.box_box (keepsText_of_typeFor? ho) fun hfamily =>
        Schema.textInTurn?_boxFields hd.keys hp ho hfamily r]

/-- A visit of which one field is a box of another family already. -/
def paidVisit : Record :=
  (Record.ofJson visit).insert "PAID" (.boxed ⟨.number, .ofSeed (.text "1,5") .keep⟩)

/-- The second pass keeps the doctor's name, which it cannot find any more. -/
theorem paidVisit_twice :
    visits.toSchema = .ok visits.schema ∧
      visits.schema.boxFields (visits.schema.boxFields paidVisit) =
        visits.schema.boxFields paidVisit ∧
      ((visits.schema.boxFields paidVisit).box? "IDDOCTOR").bind AnyBox.text? =
        some "Dr. Grey" := by
  have h : visits.toSchema = .ok visits.schema := rfl
  exact ⟨h, boxFields_twice h paidVisit, rfl⟩

end Definition

end EntityQuery
